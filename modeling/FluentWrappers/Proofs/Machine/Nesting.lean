import FluentWrappers.Proofs.Machine.Resolution
import Mathlib.Data.ENat.Lattice
import Mathlib.Data.List.Perm.Subperm
import Mathlib.Logic.Relation
import Mathlib.Order.CompletePartialOrder

/-!
# Fields along the bases and structs in fields

The fields of a type are its own and those of its bases; the first declaration of a name hides the
others. A field of a struct type holds an instance, whose fields can hold further ones, so that structs
nest. A struct that contains itself nests without end.
-/

namespace FluentWrappers.Machine

namespace Loaded

variable {m : Loaded} {t b s u : TypeDefinition} {f : Field} {fuel : Nat}

/-! ### Bases -/

/-- The second type is the base of the first. -/
def Extends (m : Loaded) (t b : TypeDefinition) : Prop := m.baseOf? t = some b

/-- No type is its own base, nor the base of one of its bases. -/
def AcyclicBases (m : Loaded) : Prop :=
  ∀ t ∈ m.artifact.types, ¬ Relation.TransGen m.Extends t t

theorem Extends.known (h : m.Extends t b) : b ∈ m.artifact.types := mem_of_baseOf? h

theorem reaches_of_mem_hierarchyWithin (isIn : b ∈ m.hierarchyWithin fuel t) :
    Relation.ReflTransGen m.Extends t b := by
  induction fuel generalizing t with
  | zero => rw [List.mem_singleton.1 isIn]
  | succ fuel ih =>
    cases base : m.baseOf? t with
    | none =>
      rw [hierarchyWithin_baseless base] at isIn
      rw [List.mem_singleton.1 isIn]
    | some c =>
      rw [hierarchyWithin_succ base] at isIn
      rcases List.mem_cons.1 isIn with rfl | above
      · exact Relation.ReflTransGen.refl
      · exact Relation.ReflTransGen.head base (ih above)

section

variable (acyclic : m.AcyclicBases)
include acyclic

theorem nodup_hierarchyWithin (known : t ∈ m.artifact.types) :
    (m.hierarchyWithin fuel t).Nodup := by
  induction fuel generalizing t with
  | zero => exact List.nodup_singleton t
  | succ fuel ih =>
    cases base : m.baseOf? t with
    | none =>
      rw [hierarchyWithin_baseless base]
      exact List.nodup_singleton t
    | some b =>
      rw [hierarchyWithin_succ base]
      refine List.nodup_cons.2 ⟨fun again => ?_, ih (Extends.known base)⟩
      exact acyclic t known (Relation.TransGen.head' base (reaches_of_mem_hierarchyWithin again))

theorem length_hierarchyWithin_le (known : t ∈ m.artifact.types) :
    (m.hierarchyWithin fuel t).length ≤ m.artifact.types.length :=
  (List.subperm_of_subset (nodup_hierarchyWithin acyclic known) fun _ =>
    hierarchyWithin_subset known).length_le

end

/-- Once the fuel exceeds the bases, more of it finds no others. -/
theorem hierarchyWithin_stable (short : (m.hierarchyWithin fuel t).length ≤ fuel) :
    m.hierarchyWithin (fuel + 1) t = m.hierarchyWithin fuel t := by
  induction fuel generalizing t with
  | zero => exact absurd short (by simp [hierarchyWithin])
  | succ fuel ih =>
    cases base : m.baseOf? t with
    | none => rw [hierarchyWithin_baseless base, hierarchyWithin_baseless base]
    | some b =>
      rw [hierarchyWithin_succ base] at short ⊢
      rw [hierarchyWithin_succ base, ih (Nat.le_of_succ_le_succ short)]

section

variable (acyclic : m.AcyclicBases)
include acyclic

theorem hierarchy_eq (known : t ∈ m.artifact.types) (base : m.Extends t b) :
    m.hierarchy t = t :: m.hierarchy b :=
  calc m.hierarchy t = m.hierarchyWithin (m.artifact.types.length + 1) t :=
        (hierarchyWithin_stable (length_hierarchyWithin_le acyclic known)).symm
    _ = t :: m.hierarchy b := hierarchyWithin_succ base

theorem mem_hierarchy_iff (known : t ∈ m.artifact.types) :
    b ∈ m.hierarchy t ↔ Relation.ReflTransGen m.Extends t b := by
  refine ⟨reaches_of_mem_hierarchyWithin, fun path => ?_⟩
  induction path using Relation.ReflTransGen.head_induction_on with
  | refl =>
    obtain ⟨bases, hierarchy⟩ := hierarchy_eq_cons m b
    rw [hierarchy]
    exact List.mem_cons_self
  | head base _ ih =>
    rw [hierarchy_eq acyclic known base]
    exact List.mem_cons_of_mem _ (ih base.known)

end

/-! ### First declarations -/

/-- The type itself declares the field first, or it declares none of that name and its base has the
field. -/
inductive FirstDeclared (m : Loaded) : TypeDefinition → Field → Prop where
  | own {t : TypeDefinition} {f : Field} (found : t.findField? f.name = some f) :
      m.FirstDeclared t f
  | inherited {t b : TypeDefinition} {f : Field} (missing : t.findField? f.name = none)
      (base : m.Extends t b) (above : m.FirstDeclared b f) : m.FirstDeclared t f

theorem firstDeclared_of_find? (found : ((m.hierarchyWithin fuel t).flatMap (·.fields)).find?
    (fun g => g.name == f.name) = some f) : m.FirstDeclared t f := by
  induction fuel generalizing t with
  | zero =>
    rw [hierarchyWithin, List.flatMap_singleton] at found
    exact .own found
  | succ fuel ih =>
    cases base : m.baseOf? t with
    | none =>
      rw [hierarchyWithin_baseless base, List.flatMap_singleton] at found
      exact .own found
    | some b =>
      rw [hierarchyWithin_succ base, List.flatMap_cons, List.find?_append] at found
      rcases Option.or_eq_some_iff.1 found with own | ⟨missing, above⟩
      · exact .own own
      · exact .inherited missing base (ih above)

theorem firstDeclared_iff (acyclic : m.AcyclicBases) (known : t ∈ m.artifact.types) :
    m.FirstDeclared t f ↔
      ((m.hierarchy t).flatMap (·.fields)).find? (fun g => g.name == f.name) = some f := by
  refine ⟨fun declared => ?_, firstDeclared_of_find?⟩
  induction declared with
  | own found =>
    rename_i t f
    obtain ⟨bases, hierarchy⟩ := hierarchy_eq_cons m t
    rw [hierarchy, List.flatMap_cons, List.find?_append]
    exact Option.or_eq_some_iff.2 (.inl found)
  | inherited missing base _ ih =>
    rw [hierarchy_eq acyclic known base, List.flatMap_cons, List.find?_append]
    exact Option.or_eq_some_iff.2 (.inr ⟨missing, ih base.known⟩)

/-- The fields whose names are not among those seen, the first of each name. -/
def firsts (seen : List String) : List Field → List Field
  | [] => []
  | f :: rest =>
    if f.name ∈ seen then firsts seen rest else f :: firsts (seen ++ [f.name]) rest

theorem mem_firsts {seen : List String} {all : List Field} :
    f ∈ firsts seen all ↔ f.name ∉ seen ∧ all.find? (fun g => g.name == f.name) = some f := by
  induction all generalizing seen with
  | nil => simp [firsts]
  | cons g rest ih =>
    unfold firsts
    by_cases same : g.name = f.name
    · rw [List.find?_cons_of_pos (by simpa using same)]
      split
      case isTrue old =>
        rw [ih]
        exact ⟨fun h => absurd (same ▸ old) h.1, fun h => absurd (same ▸ old) h.1⟩
      case isFalse new =>
        rw [List.mem_cons, ih]
        constructor
        · rintro (rfl | ⟨other, _⟩)
          · exact ⟨new, rfl⟩
          · exact absurd (by simp [same]) other
        · rintro ⟨_, here⟩
          exact Or.inl (Option.some.inj here).symm
    · rw [List.find?_cons_of_neg (by simpa using same)]
      split
      case isTrue old => exact ih
      case isFalse new =>
        have differs : f ≠ g := fun isFirst => same (by rw [isFirst])
        rw [List.mem_cons, ih, List.mem_append, List.mem_singleton, or_iff_right differs, not_or,
          and_iff_left (Ne.symm same)]

theorem nodup_firsts (seen : List String) (all : List Field) :
    ((firsts seen all).map (·.name)).Nodup := by
  induction all generalizing seen with
  | nil => exact List.nodup_nil
  | cons g rest ih =>
    unfold firsts
    split
    · exact ih seen
    · refine List.nodup_cons.2 ⟨fun again => ?_, ih _⟩
      obtain ⟨f, isIn, same⟩ := List.mem_map.1 again
      exact (mem_firsts.1 isIn).1 (by simp [same])

theorem name_mem_firsts {all : List Field} {name : String} :
    name ∈ (firsts [] all).map (·.name) ↔ name ∈ all.map (·.name) := by
  constructor
  · intro isIn
    obtain ⟨f, isFirst, rfl⟩ := List.mem_map.1 isIn
    exact List.mem_map_of_mem (List.mem_of_find?_eq_some (mem_firsts.1 isFirst).2)
  · intro isIn
    obtain ⟨f, declared, rfl⟩ := List.mem_map.1 isIn
    have some : (all.find? fun g => g.name == f.name).isSome = true :=
      List.find?_isSome.2 ⟨f, declared, beq_self_eq_true f.name⟩
    obtain ⟨g, found⟩ := Option.isSome_iff_exists.1 some
    have passes := List.find?_some found
    have same : g.name = f.name := eq_of_beq passes
    refine List.mem_map.2 ⟨g, mem_firsts.2 ⟨List.not_mem_nil, ?_⟩, same⟩
    rw [same]
    exact found

/-- The fields of a type, in the order in which they are first declared along the bases. -/
def fields (m : Loaded) (t : TypeDefinition) : List Field :=
  firsts [] ((m.hierarchy t).flatMap (·.fields))

theorem nodup_fields (m : Loaded) (t : TypeDefinition) : ((m.fields t).map (·.name)).Nodup :=
  nodup_firsts [] _

section

variable (acyclic : m.AcyclicBases) (known : t ∈ m.artifact.types)
include acyclic known

theorem mem_fields : f ∈ m.fields t ↔ m.FirstDeclared t f := by
  unfold fields
  rw [mem_firsts, firstDeclared_iff acyclic known, and_iff_right List.not_mem_nil]

theorem name_mem_fields {name : String} : name ∈ (m.fields t).map (·.name) ↔
    ∃ b, Relation.ReflTransGen m.Extends t b ∧ name ∈ b.fields.map (·.name) := by
  unfold fields
  rw [name_mem_firsts, List.map_flatMap, List.mem_flatMap]
  exact exists_congr fun b => and_congr_left fun _ => mem_hierarchy_iff acyclic known

end

/-! ### Structs in fields -/

/-- The struct that a field of the type holds an instance of. -/
def structOf? (m : Loaded) : Signature → Option TypeDefinition
  | .named name => (m.artifact.findType? name).filter (·.kind == .struct)
  | _ => none

theorem known_of_structOf? {signature : Signature} (isStruct : m.structOf? signature = some s) :
    s ∈ m.artifact.types := by
  unfold structOf? at isStruct
  split at isStruct
  · exact (Artifact.findType?_eq_some (Option.filter_eq_some_iff.1 isStruct).1).1
  · cases isStruct

/-- From a type, the fields of a path lead to an instance of the other type, each of them first declared
and of a struct type. -/
inductive Nested (m : Loaded) : TypeDefinition → List String → TypeDefinition → Prop where
  | here {t : TypeDefinition} : m.Nested t [] t
  | field {t s u : TypeDefinition} {f : Field} {path : List String}
      (declared : m.FirstDeclared t f) (isStruct : m.structOf? f.type = some s)
      (rest : m.Nested s path u) : m.Nested t (f.name :: path) u

theorem Nested.append {path rest : List String} (first : m.Nested t path u)
    (second : m.Nested u rest b) : m.Nested t (path ++ rest) b := by
  induction first with
  | here => exact second
  | field declared isStruct _ ih => exact .field declared isStruct (ih second)

/-- The length of the longest path through struct fields. -/
noncomputable def nesting (m : Loaded) (t : TypeDefinition) : ℕ∞ :=
  ⨆ (path : List String) (_ : ∃ u, m.Nested t path u), (path.length : ℕ∞)

/-- All paths through struct fields are shorter than the number of levels. -/
def NestsWithin (m : Loaded) (levels : Nat) (t : TypeDefinition) : Prop :=
  ∀ path u, m.Nested t path u → path.length < levels

theorem not_nestsWithin_zero : ¬ m.NestsWithin 0 t := fun fits => Nat.not_lt_zero _ (fits [] t .here)

theorem nestsWithin_succ_iff {levels : Nat} : m.NestsWithin (levels + 1) t ↔
    ∀ f, m.FirstDeclared t f → ∀ s, m.structOf? f.type = some s → m.NestsWithin levels s := by
  constructor
  · intro fits f declared s isStruct path u rest
    exact Nat.lt_of_succ_lt_succ (fits _ u (.field declared isStruct rest))
  · intro fits path u nested
    cases nested with
    | here => exact Nat.succ_pos levels
    | field declared isStruct rest =>
      exact Nat.succ_lt_succ (fits _ declared _ isStruct _ u rest)

theorem nestsWithin_iff_nesting_le {levels : Nat} :
    m.NestsWithin (levels + 1) t ↔ m.nesting t ≤ (levels : ℕ∞) := by
  unfold nesting NestsWithin
  rw [iSup₂_le_iff]
  constructor
  · rintro fits path ⟨u, nested⟩
    exact Nat.cast_le.2 (Nat.le_of_lt_succ (fits path u nested))
  · intro bounded path u nested
    exact Nat.lt_succ_of_le (Nat.cast_le.1 (bounded path ⟨u, nested⟩))

/-- The levels that are left below a depth suffice exactly if depth and nesting stay in the bound. -/
theorem nestsWithin_iff_add_nesting_le {depth bound : Nat} (shallow : depth ≤ bound) :
    m.NestsWithin (bound + 1 - depth) t ↔ (depth : ℕ∞) + m.nesting t ≤ (bound : ℕ∞) := by
  rw [Nat.succ_sub shallow, nestsWithin_iff_nesting_le]
  cases m.nesting t with
  | top => simp
  | coe length =>
    norm_cast
    omega

/-- Where a path returns to the type it started from, it can be gone along again and again. -/
theorem nesting_eq_top {cycle path : List String} (reached : m.Nested t path s)
    (returns : m.Nested s cycle s) (isLonger : cycle ≠ []) : m.nesting t = ⊤ := by
  have around (rounds : Nat) : ∃ path, m.Nested s path s ∧ rounds ≤ path.length := by
    induction rounds with
    | zero => exact ⟨[], .here, Nat.le_refl 0⟩
    | succ rounds ih =>
      obtain ⟨path, nested, long⟩ := ih
      refine ⟨cycle ++ path, returns.append nested, ?_⟩
      have := List.length_pos_iff.2 isLonger
      rw [List.length_append]
      omega
  refine ENat.eq_top_iff_forall_gt.2 fun bound => ?_
  obtain ⟨rounds, nested, long⟩ := around (bound + 1)
  have within : ¬ m.nesting t ≤ (bound : ℕ∞) := by
    rw [← nestsWithin_iff_nesting_le]
    intro fits
    have short := fits _ s (reached.append nested)
    rw [List.length_append] at short
    omega
  exact lt_of_not_ge within

end Loaded

end FluentWrappers.Machine
