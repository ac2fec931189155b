import FluentWrappers.Json.Record
import Mathlib.Data.List.Nodup

/-!
# Records that are read back

A record is written with each name at most once. Under a name a reader finds what was written there,
or the default if nothing was; so a record is read back when its parts are.
-/

namespace FluentWrappers.Json

variable {α : Type} {names : List String} {fields : List (String × Json)} {name other : String}
  {item : Json → Option α} {f : α → Json}

theorem repeatsKnown_eq_false (distinct : (fields.map Prod.fst).Nodup) :
    repeatsKnown names fields = false := by
  induction fields with
  | nil => rfl
  | cons field rest ih =>
    obtain ⟨name, j⟩ := field
    obtain ⟨fresh, distinct⟩ := List.nodup_cons.1 distinct
    have absent : rest.lookup name = none := by
      rw [List.lookup_eq_none_iff]
      intro pair isIn
      rw [bne_iff_ne]
      rintro rfl
      exact fresh (List.mem_map.2 ⟨pair, isIn, rfl⟩)
    rw [repeatsKnown, absent, ih distinct, Option.isSome_none, Bool.and_false, Bool.or_false]

theorem record?_object (distinct : (fields.map Prod.fst).Nodup) :
    (object fields).record? names = some ⟨fields⟩ := by
  rw [record?, repeatsKnown_eq_false distinct]
  rfl

/-! ### What stands under a name -/

theorem lookup_present_self (value : Option α) :
    (present name f value).lookup name = value.map f := by
  cases value with
  | none => rfl
  | some a => exact List.lookup_cons_self

theorem lookup_present_of_ne (apart : other ≠ name) (value : Option α) :
    (present name f value).lookup other = none := by
  cases value with
  | none => rfl
  | some a =>
    have differs : (other == name) = false := beq_eq_false_iff_ne.2 apart
    rw [present, List.lookup_cons, differs]
    rfl

theorem present_sublist (value : Option α) :
    ((present name f value).map Prod.fst).Sublist [name] := by
  cases value with
  | none => exact List.nil_sublist _
  | some a => exact List.Sublist.refl _

namespace Record

variable {r : Record} {value : Option α} {a default : α} {j : Json}

theorem required?_of_lookup (written : r.fields.lookup name = some j) :
    r.required? name item = item j := by
  rw [required?, written]

theorem withDefault?_of_lookup (written : r.fields.lookup name = some j) :
    r.withDefault? name default item = item j := by
  rw [withDefault?, written]

/-- A value that is written only if there is one. -/
theorem optional?_of_lookup_map (written : r.fields.lookup name = value.map f)
    (readBack : ∀ a ∈ value, Json.optional? item (f a) = some (some a)) :
    r.optional? name item = some value := by
  rw [optional?, withDefault?, written]
  cases value with
  | none => rfl
  | some a => exact readBack a rfl

/-- A value that is written as null if there is none. -/
theorem optional?_of_lookup_ofOption (written : r.fields.lookup name = some (ofOption f value))
    (readBack : ∀ a ∈ value, Json.optional? item (f a) = some (some a)) :
    r.optional? name item = some value := by
  rw [optional?, withDefault?_of_lookup written]
  cases value with
  | none => rfl
  | some a => exact readBack a rfl

theorem exists_of_required? (read : r.required? name item = some a) : ∃ j, item j = some a := by
  unfold required? at read
  cases found : r.fields.lookup name with
  | none => rw [found] at read; cases read
  | some j => rw [found] at read; exact ⟨j, read⟩

theorem exists_of_withDefault? (read : r.withDefault? name default item = some a) :
    a = default ∨ ∃ j, item j = some a := by
  unfold withDefault? at read
  cases found : r.fields.lookup name with
  | none =>
    rw [found] at read
    exact .inl (Option.some.inj read).symm
  | some j => rw [found] at read; exact .inr ⟨j, read⟩

theorem exists_of_optional? (read : r.optional? name item = some (some a)) :
    ∃ j, item j = some a := by
  obtain none | ⟨j, read⟩ := exists_of_withDefault? read
  · cases none
  · unfold Json.optional? at read
    split at read
    · cases read
    · obtain ⟨b, read, same⟩ := Option.map_eq_some_iff.1 read
      cases same
      exact ⟨j, read⟩

end Record

/-! ### Lists -/

theorem list?_array_map {as : List α} (readBack : ∀ a ∈ as, item (f a) = some a) :
    list? item (array (as.map f)) = some as := by
  change (as.map f).mapM item = some as
  induction as with
  | nil => rfl
  | cons a rest ih =>
    rw [List.map_cons, List.mapM_cons, readBack a List.mem_cons_self,
      ih fun b isIn => readBack b (List.mem_cons_of_mem a isIn)]
    rfl

theorem exists_of_mapM {items : List Json} {as : List α} {a : α} (read : items.mapM item = some as)
    (isIn : a ∈ as) : ∃ j, item j = some a := by
  induction items generalizing as with
  | nil =>
    cases read
    cases isIn
  | cons j rest ih =>
    rw [List.mapM_cons] at read
    obtain ⟨first, readFirst, read⟩ := Option.bind_eq_some_iff.1 read
    obtain ⟨others, readOthers, read⟩ := Option.bind_eq_some_iff.1 read
    cases read
    obtain rfl | isIn := List.mem_cons.1 isIn
    · exact ⟨j, readFirst⟩
    · exact ih readOthers isIn

theorem exists_of_list? {j : Json} {as : List α} {a : α} (read : list? item j = some as)
    (isIn : a ∈ as) : ∃ j, item j = some a := by
  obtain ⟨items, -, read⟩ := Option.bind_eq_some_iff.1 read
  exact exists_of_mapM read isIn

end FluentWrappers.Json
