import FluentWrappers.Proofs.Source.Flattening
import Mathlib.Logic.Relation

/-!
# References between source types

A source type refers to the types of its eligible members, to those in array elements and generic
arguments too. Only foreign types are looked into, that is all but those of the base runtime and
enumerations. A member is bad if its type cannot be made independent of the catalog.
-/

namespace FluentWrappers

namespace TypeRef

mutual
/-- The names of source types in a type. -/
def mentions : TypeRef → List TypeName
  | .named name => [name]
  | .array element => element.mentions
  | .generic _ args => mentionsOfAll args
  | _ => []

def mentionsOfAll : List TypeRef → List TypeName
  | [] => []
  | t :: rest => t.mentions ++ mentionsOfAll rest
end

mutual
/-- The names of generic definitions in a type. -/
def definitions : TypeRef → List TypeName
  | .array element => element.definitions
  | .generic definition args => definition :: definitionsOfAll args
  | _ => []

def definitionsOfAll : List TypeRef → List TypeName
  | [] => []
  | t :: rest => t.definitions ++ definitionsOfAll rest
end

end TypeRef

/-- The type is a class, an interface or a struct that does not come with the base runtime. -/
def SourceType.Foreign (t : SourceType) : Prop :=
  t.isRuntime = false ∧ ∀ underlying literals, t.kind ≠ .enumeration underlying literals

namespace SourceCatalog

/-- The type is the one that the catalog has under its name. -/
def Known (c : SourceCatalog) (t : SourceType) : Prop := c.get? t.name = some t

def EligibleMember (c : SourceCatalog) (t : SourceType) (m : Member) : Prop :=
  ∃ members, c.extract t = .ok members ∧ m ∈ members

/-- The type has no eligible members or a cyclic inheritance chain. -/
def Barren (c : SourceCatalog) (t : SourceType) : Prop :=
  (¬ ∃ m, c.EligibleMember t m) ∨ c.InheritsCyclically t

def Refers (c : SourceCatalog) (t u : SourceType) : Prop :=
  u.Foreign ∧ ∃ m, c.EligibleMember t m ∧ ∃ name ∈ m.type.mentions, c.get? name = some u

/-- The one type refers to the other directly or through further types. -/
def Reaches (c : SourceCatalog) : SourceType → SourceType → Prop := Relation.ReflTransGen c.Refers

/-- The name is absent from the catalog or that of a barren foreign type. -/
def NameResists (c : SourceCatalog) (name : TypeName) : Prop :=
  c.get? name = none ∨ ∃ u, c.get? name = some u ∧ u.Foreign ∧ c.Barren u

def ResistsAny (c : SourceCatalog) (names definitions : List TypeName) : Prop :=
  (∃ name ∈ names, c.NameResists name) ∨ ∃ d ∈ definitions, c.isRuntimeGeneric d = false

/-- The type mentions a name that resists or a generic definition that is not registered. -/
def Resists (c : SourceCatalog) (type : TypeRef) : Prop :=
  c.ResistsAny type.mentions type.definitions

def BadMember (c : SourceCatalog) (t : SourceType) (m : Member) : Prop :=
  c.EligibleMember t m ∧ c.Resists m.type

variable {c : SourceCatalog} {t u : SourceType} {m : Member}

/-! ### Known types -/

theorem canonical_of_get? {name : TypeName} (h : c.get? name = some u) :
    u.canonical = name.canonical := by
  rw [get?, getByName?_eq_find?] at h
  simpa using List.find?_some h

theorem known_of_get? {name : TypeName} (h : c.get? name = some u) : c.Known u := by
  unfold Known get?
  rw [show u.name.canonical = name.canonical from canonical_of_get? h]
  exact h

theorem require_eq_ok_iff {name : TypeName} : c.require name = .ok u ↔ c.get? name = some u := by
  unfold require
  split
  case h_1 found => rw [found, Except.ok.injEq, Option.some.injEq]
  case h_2 missing => simp [missing]

theorem Known.eq (known : c.Known t) (known' : c.Known u) (same : t.canonical = u.canonical) :
    t = u := by
  have first : c.getByName? t.canonical = some t := known
  have second : c.getByName? u.canonical = some u := known'
  rw [same, second] at first
  exact (Option.some.inj first).symm

theorem Known.mem (known : c.Known t) : t ∈ c.types :=
  List.mem_of_find?_eq_some ((c.getByName?_eq_find? _).symm.trans known)

/-! ### Extraction -/

theorem eligibleMember_iff {members : List Member} {m : Member} (h : c.extract t = .ok members) :
    c.EligibleMember t m ↔ m ∈ members := by
  constructor
  · rintro ⟨found, result, isIn⟩
    rw [h] at result
    cases result
    exact isIn
  · intro isIn
    exact ⟨members, h, isIn⟩

/-- A type has eligible members, or else none, or else its bases come again. -/
theorem extract_cases (c : SourceCatalog) (t : SourceType) :
    (∃ members, c.extract t = .ok members ∧ members ≠ []) ∨ c.extract t = .ok [] ∨
      ∃ name, c.extract t = .error (.configuration (.inheritanceCycle name)) := by
  cases h : c.extract t with
  | error e =>
    obtain ⟨name, rfl⟩ := eq_inheritanceCycle_of_extract h
    exact Or.inr (Or.inr ⟨name, rfl⟩)
  | ok members =>
    by_cases none : members = []
    · exact Or.inr (Or.inl (by rw [none]))
    · exact Or.inl ⟨members, rfl, none⟩

/-- An eligible member is declared by the type or by one of the catalog. -/
theorem exists_declaration (eligible : c.EligibleMember t m) :
    ∃ a, (a = t ∨ a ∈ c.types) ∧ m ∈ a.members := by
  obtain ⟨members, found, isIn⟩ := eligible
  obtain ⟨chain, whole, rfl⟩ := exists_chain_of_extract found
  have isLast := mem_foldl_addMember.1 (List.mem_filter.1 isIn).1
  obtain ⟨a, isInChain, declared⟩ := List.mem_flatMap.1 (mem_of_lastDeclared? isLast)
  refine ⟨a, ?_, declared⟩
  obtain ⟨n, isNth⟩ := List.mem_iff_getElem?.1 (List.mem_reverse.1 isInChain)
  rw [← (of_chainWithin whole).1 n] at isNth
  cases n with
  | zero => exact Or.inl (Option.some.inj isNth).symm
  | succ n => exact Or.inr (mem_types_of_ancestor isNth)

theorem exists_extract (h : ∃ m, c.EligibleMember t m) :
    ∃ members, c.extract t = .ok members ∧ members ≠ [] := by
  obtain ⟨m, members, found, isIn⟩ := h
  exact ⟨members, found, List.ne_nil_of_mem isIn⟩

theorem exists_eligibleMember {members : List Member} (found : c.extract t = .ok members)
    (some : members ≠ []) : ∃ m, c.EligibleMember t m := by
  obtain ⟨m, isIn⟩ := List.exists_mem_of_ne_nil members some
  exact ⟨m, members, found, isIn⟩

theorem barren_of_extract_nil (h : c.extract t = .ok []) : c.Barren t := by
  apply Or.inl
  rintro ⟨m, eligible⟩
  exact List.not_mem_nil ((eligibleMember_iff h).1 eligible)

theorem barren_of_extract_error {e : Synthesis.SynthesisError} (h : c.extract t = .error e) :
    c.Barren t := by
  apply Or.inl
  rintro ⟨m, members, found, -⟩
  rw [h] at found
  cases found

theorem not_barren_of_eligibleMember (h : ∃ m, c.EligibleMember t m) : ¬ c.Barren t := by
  rintro (none | cyclic)
  · exact none h
  · obtain ⟨members, found, -⟩ := exists_extract h
    exact exists_extract_iff.1 ⟨members, found⟩ cyclic

/-! ### Resistance -/

theorem ResistsAny.mono {names names' definitions definitions' : List TypeName}
    (h : c.ResistsAny names definitions) (more : names ⊆ names')
    (moreDefinitions : definitions ⊆ definitions') : c.ResistsAny names' definitions' := by
  rcases h with ⟨name, isIn, resists⟩ | ⟨d, isIn, unknown⟩
  · exact Or.inl ⟨name, more isIn, resists⟩
  · exact Or.inr ⟨d, moreDefinitions isIn, unknown⟩

theorem resistsAny_append {names names' definitions definitions' : List TypeName} :
    c.ResistsAny (names ++ names') (definitions ++ definitions') ↔
      c.ResistsAny names definitions ∨ c.ResistsAny names' definitions' := by
  constructor
  · rintro (⟨name, isIn, resists⟩ | ⟨d, isIn, unknown⟩)
    · exact (List.mem_append.1 isIn).imp (fun isIn => Or.inl ⟨name, isIn, resists⟩)
        fun isIn => Or.inl ⟨name, isIn, resists⟩
    · exact (List.mem_append.1 isIn).imp (fun isIn => Or.inr ⟨d, isIn, unknown⟩)
        fun isIn => Or.inr ⟨d, isIn, unknown⟩
  · rintro (first | second)
    · exact first.mono (List.subset_append_left _ _) (List.subset_append_left _ _)
    · exact second.mono (List.subset_append_right _ _) (List.subset_append_right _ _)

end SourceCatalog

end FluentWrappers
