import FluentWrappers.Proofs.Fallible
import FluentWrappers.Proofs.FirstOccurrence
import FluentWrappers.Proofs.Verification.Acceptance
import FluentWrappers.Source.Catalog

/-!
# Catalogs that are built up

A catalog starts empty and takes in one source type after the other, unless the name of a type is known
already or two members of it share a name. However many insertions fail on the way, the types are those
of the insertions that did not, their canonical names are distinct, and the index has the position of
each under its own name and nothing else.
-/

namespace FluentWrappers

open Synthesis (SynthesisError)

inductive CatalogRequest where
  | insert (t : SourceType)
  | registerGeneric (definition : String)
  deriving DecidableEq, Repr

namespace SourceCatalog

/-! ### Requests -/

/-- The answer to a request, and the catalog after it. -/
def answer (c : SourceCatalog) : CatalogRequest → Except SynthesisError Unit × SourceCatalog
  | .insert t => add t c
  | .registerGeneric definition => (.ok (), c.registerGeneric definition)

/-- The answers to requests in order, and the catalog after them. -/
def serve (c : SourceCatalog) : List CatalogRequest → List (Except SynthesisError Unit) × SourceCatalog
  | [] => ([], c)
  | request :: rest =>
    let (answer, c) := c.answer request
    let (answers, c) := c.serve rest
    (answer :: answers, c)

/-- The types whose insertion was answered without an error. -/
def inserted : List CatalogRequest → List (Except SynthesisError Unit) → List SourceType
  | .insert t :: requests, .ok () :: answers => t :: inserted requests answers
  | _ :: requests, _ :: answers => inserted requests answers
  | _, _ => []

def names (c : SourceCatalog) : List String := c.types.map SourceType.canonical

/-- What comes of the insertion of a type. -/
inductive Insertion (c : SourceCatalog) (t : SourceType) :
    Except SynthesisError Unit × SourceCatalog → Prop
  | known (known : t.canonical ∈ c.names) :
    Insertion c t (.error (.configuration (.typeRegisteredTwice t.canonical)), c)
  /-- The named member is the first with a name that an earlier one has. -/
  | repeated {before after : List String} {member : String} (new : t.canonical ∉ c.names)
    (members : t.members.map Member.name = before ++ member :: after) (distinct : before.Nodup)
    (again : member ∈ before) :
    Insertion c t (.error (.configuration (.memberDeclaredTwice member t.canonical)), c)
  | added {c' : SourceCatalog} (new : t.canonical ∉ c.names)
    (distinct : (t.members.map Member.name).Nodup) (types : c'.types = c.types ++ [t])
    (generics : c'.runtimeGenerics = c.runtimeGenerics) : Insertion c t (.ok (), c')

variable {c : SourceCatalog} {t : SourceType} {name : String}

theorem contains_iff : c.contains name = true ↔ name ∈ c.names := by
  unfold contains names
  rw [c.table.inStep, List.findIdx?_isSome, List.any_eq_true, List.mem_map]
  exact exists_congr fun u => and_congr_right fun _ => beq_iff_eq

theorem insertion_answer (c : SourceCatalog) (t : SourceType) :
    Insertion c t (c.answer (.insert t)) := by
  show Insertion c t (add t c)
  unfold add
  rw [Fallible.bind_ok (Fallible.get_apply c)]
  by_cases known : t.canonical ∈ c.names
  · rw [if_pos (contains_iff.2 known)]
    exact .known known
  · rw [if_neg (mt contains_iff.1 known)]
    cases repeated : firstRepeated? [] (t.members.map (·.name)) with
    | some member =>
      obtain ⟨before, after, members, distinct, -, again⟩ := exists_of_firstRepeated? repeated
      exact .repeated known members distinct (again.resolve_left List.not_mem_nil)
    | none => exact .added known (firstRepeated?_eq_none repeated).1 rfl rfl

/-- An insertion fails with an error of the configuration exactly if the name of the type is known or a
member is declared twice. -/
theorem insertion_fails_iff : (∃ fault, (c.answer (.insert t)).1 = .error (.configuration fault)) ↔
    t.canonical ∈ c.names ∨ ¬ (t.members.map Member.name).Nodup := by
  generalize outcome : c.answer (.insert t) = result
  have insertion : Insertion c t result := outcome ▸ insertion_answer c t
  cases insertion with
  | known known => exact iff_of_true ⟨_, rfl⟩ (Or.inl known)
  | @repeated before after member new members distinct again =>
    refine iff_of_true ⟨_, rfl⟩ (Or.inr fun apart => ?_)
    rw [members] at apart
    exact (List.nodup_append.1 apart).2.2 member again member List.mem_cons_self rfl
  | added new distinct =>
    refine iff_of_false nofun ?_
    rintro (known | twice)
    · exact new known
    · exact twice distinct

/-- An insertion that fails leaves the catalog as it is. -/
theorem eq_of_insertion_fails {e : SynthesisError} {c' : SourceCatalog}
    (failed : c.answer (.insert t) = (.error e, c')) : c' = c := by
  have insertion : Insertion c t (.error e, c') := failed ▸ insertion_answer c t
  cases insertion with
  | known => rfl
  | repeated => rfl

/-! ### Catalogs that requests lead to -/

/-- The types have different names, and so have the members of each. -/
structure Distinct (c : SourceCatalog) : Prop where
  types : c.names.Nodup
  members : ∀ t ∈ c.types, (t.members.map Member.name).Nodup

theorem distinct_empty : empty.Distinct where
  types := .nil
  members := fun _ isIn => absurd isIn List.not_mem_nil

theorem types_registerGeneric (c : SourceCatalog) (definition : String) :
    (c.registerGeneric definition).types = c.types := by
  unfold registerGeneric
  split
  · rfl
  · rfl

theorem Distinct.answer (h : c.Distinct) (request : CatalogRequest) :
    (c.answer request).2.Distinct := by
  cases request with
  | registerGeneric definition =>
    have same := types_registerGeneric c definition
    refine ⟨?_, fun t isIn => h.members t (same ▸ isIn)⟩
    show ((c.registerGeneric definition).types.map SourceType.canonical).Nodup
    rw [same]
    exact h.types
  | insert t =>
    generalize c.answer (.insert t) = result, insertion_answer c t = insertion
    cases insertion with
    | known => exact h
    | repeated => exact h
    | added new distinct types =>
      constructor
      · unfold names
        rw [types, List.map_append, List.map_singleton]
        exact List.nodup_append.2 ⟨h.types, List.nodup_singleton _, fun a isIn b isLast same => new
          (List.mem_singleton.1 isLast ▸ same ▸ isIn)⟩
      · rw [types]
        intro u isIn
        rcases List.mem_append.1 isIn with isIn | isLast
        · exact h.members u isIn
        · obtain rfl := List.mem_singleton.1 isLast
          exact distinct

theorem serve_cons (c : SourceCatalog) (request : CatalogRequest) (rest : List CatalogRequest) :
    c.serve (request :: rest) = ((c.answer request).1 :: ((c.answer request).2.serve rest).1,
      ((c.answer request).2.serve rest).2) :=
  rfl

theorem Distinct.serve (h : c.Distinct) (requests : List CatalogRequest) :
    (c.serve requests).2.Distinct := by
  induction requests generalizing c with
  | nil => exact h
  | cons request rest ih =>
    rw [serve_cons]
    exact ih (h.answer request)

theorem types_serve (c : SourceCatalog) (requests : List CatalogRequest) :
    (c.serve requests).2.types = c.types ++ inserted requests (c.serve requests).1 := by
  induction requests generalizing c with
  | nil => exact (List.append_nil _).symm
  | cons request rest ih =>
    rw [serve_cons]
    cases request with
    | registerGeneric definition =>
      have same := types_registerGeneric c definition
      exact same ▸ ih (c.registerGeneric definition)
    | insert t =>
      generalize c.answer (.insert t) = result, insertion_answer c t = insertion
      cases insertion with
      | known => exact ih c
      | repeated => exact ih c
      | @added c' _ _ types =>
        have later := ih c'
        rw [types, List.append_assoc] at later
        exact later

theorem mem_runtimeGenerics_registerGeneric (c : SourceCatalog) (definition : String) :
    name ∈ (c.registerGeneric definition).runtimeGenerics ↔
      name ∈ c.runtimeGenerics ∨ name = definition := by
  unfold registerGeneric
  split
  case isTrue old =>
    refine ⟨Or.inl, ?_⟩
    rintro (isIn | rfl)
    · exact isIn
    · exact List.contains_iff_mem.1 old
  case isFalse => simp only [List.mem_append, List.mem_singleton]

theorem mem_runtimeGenerics_serve {requests : List CatalogRequest} :
    name ∈ (c.serve requests).2.runtimeGenerics ↔
      name ∈ c.runtimeGenerics ∨ .registerGeneric name ∈ requests := by
  induction requests generalizing c with
  | nil => simp [serve]
  | cons request rest ih =>
    rw [serve_cons, ih]
    cases request with
    | registerGeneric definition =>
      simp only [answer, mem_runtimeGenerics_registerGeneric, List.mem_cons,
        CatalogRequest.registerGeneric.injEq, or_assoc]
    | insert t =>
      have same : (c.answer (.insert t)).2.runtimeGenerics = c.runtimeGenerics := by
        generalize c.answer (.insert t) = result, insertion_answer c t = insertion
        cases insertion with
        | known => rfl
        | repeated => rfl
        | added _ _ _ generics => exact generics
      simp only [same, List.mem_cons, reduceCtorEq, false_or]

/-! ### Look-up -/

theorem Distinct.lookup_index_eq_some_iff (h : c.Distinct) {position : Nat} :
    c.index.lookup name = some position ↔
      (c.types[position]?).map SourceType.canonical = some name := by
  rw [c.table.inStep, List.findIdx?_eq_some_iff_getElem]
  constructor
  · rintro ⟨within, same, -⟩
    rw [List.getElem?_eq_getElem within, Option.map_some, eq_of_beq same]
  · intro found
    obtain ⟨t, isThere, same⟩ := Option.map_eq_some_iff.1 found
    obtain ⟨within, rfl⟩ := List.getElem?_eq_some_iff.1 isThere
    refine ⟨within, beq_iff_eq.2 same, fun earlier before same' => ?_⟩
    have different := List.pairwise_iff_getElem.1 (List.pairwise_map.1 h.types) earlier position
      (Nat.lt_trans before within) within before
    exact different ((eq_of_beq same').trans same.symm)

theorem Distinct.getByName?_eq_some_iff (h : c.Distinct) :
    c.getByName? name = some t ↔ t ∈ c.types ∧ t.canonical = name := by
  rw [getByName?_eq_find?]
  constructor
  · intro found
    exact ⟨List.mem_of_find?_eq_some found, by simpa using List.find?_some found⟩
  · rintro ⟨isIn, rfl⟩
    exact FirstOccurrence.find?_key h.types isIn

/-- Whatever is asked of an empty catalog, it then holds the types that were inserted without an error, in
order. Their names are distinct, and so are those of the members of each. The index has the positions of
these names and nothing else, so that each type, and only it, is found under its name. One more insertion
fails exactly if the name of the type is known or it repeats the name of a member; then all is left as it
was. -/
theorem serve_keeps_index (requests : List CatalogRequest) :
    let served := empty.serve requests
    let c := served.2
    c.types = inserted requests served.1 ∧ c.names.Nodup ∧
      (∀ t ∈ c.types, (t.members.map Member.name).Nodup) ∧
      (∀ name position, c.index.lookup name = some position ↔
        (c.types[position]?).map SourceType.canonical = some name) ∧
      (∀ name t, c.getByName? name = some t ↔ t ∈ c.types ∧ t.canonical = name) ∧
      (∀ name, name ∈ c.runtimeGenerics ↔
        name ∈ standardGenerics ∨ .registerGeneric name ∈ requests) ∧
      ∀ t, Insertion c t (c.answer (.insert t)) ∧
        ((∃ fault, (c.answer (.insert t)).1 = .error (.configuration fault)) ↔
          t.canonical ∈ c.names ∨ ¬ (t.members.map Member.name).Nodup) ∧
        ∀ e c', c.answer (.insert t) = (.error e, c') → c' = c := by
  intro served c
  have distinct : c.Distinct := distinct_empty.serve requests
  refine ⟨types_serve empty requests, distinct.types, distinct.members,
    fun name position => distinct.lookup_index_eq_some_iff,
    fun name t => distinct.getByName?_eq_some_iff, fun name => mem_runtimeGenerics_serve,
    fun t => ⟨insertion_answer c t, insertion_fails_iff, fun e c' => eq_of_insertion_fails⟩⟩

/-- Two insertions that fail, one for each reason, between two that do not. -/
theorem serve_keeps_index_lines :
    let x : Member := { name := "X", type := .primitive .i32 }
    let y : Member := { name := "Y", type := .primitive .i32 }
    let point : SourceType := { name := ⟨"Acme", "Point"⟩, members := [x, y] }
    let start : Member := { name := "Start", type := .named point.name }
    let line : SourceType := { name := ⟨"Acme", "Line"⟩, members := [start] }
    let curve : SourceType := { name := ⟨"Acme", "Curve"⟩, members := [x, y, x] }
    let requests := [.insert point, .insert point, .insert curve, .registerGeneric "Acme.Bag",
      .insert line]
    let c := (empty.serve requests).2
    let fault : SynthesisError := .configuration (.memberDeclaredTwice "X" "Acme.Curve")
    let (answer, after) := c.answer (.insert curve)
    c.types = [point, line] ∧ point ∈ c.types ∧ (point.members.map Member.name).Nodup ∧
      c.index.lookup "Acme.Line" = some 1 ∧ c.getByName? "Acme.Line" = some line ∧
      answer = .error fault ∧ after = c := by
  intro x y point start line curve requests c fault
  have types : c.types = [point, line] := by decide +kernel
  have isIn : point ∈ c.types := by
    rw [types]
    exact List.mem_cons_self
  have isLast : line ∈ c.types := by
    rw [types]
    exact List.mem_cons_of_mem point List.mem_cons_self
  have named : line.canonical = "Acme.Line" := by decide +kernel
  have second : (c.types[1]?).map SourceType.canonical = some "Acme.Line" := by decide +kernel
  have failed : (c.answer (.insert curve)).1 = .error fault := by decide +kernel
  obtain ⟨-, -, members, positions, found, -, next⟩ := serve_keeps_index requests
  have unchanged : (c.answer (.insert curve)).2 = c := (next curve).2.2 fault _ (Prod.ext failed rfl)
  exact ⟨types, isIn, members point isIn, (positions "Acme.Line" 1).2 second,
    (found "Acme.Line" line).2 ⟨isLast, named⟩, failed, unchanged⟩

end SourceCatalog

end FluentWrappers
