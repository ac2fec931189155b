import FluentWrappers.Proofs.Synthesis.Orderly

/-!
# What stands for a type

Which type stands for a member's type is a matter of the catalog and the options alone: an enumeration
or struct gives way to its clone, another foreign type with eligible members to its interface, and
nothing stands for a type that mentions an unknown name, an unregistered definition or a type without
members. The names that are looked into on the way are those before the first that fails.
-/

namespace FluentWrappers

theorem SourceType.foreign_or (u : SourceType) :
    (∃ underlying literals, u.kind = .enumeration underlying literals) ∨
      ((∀ underlying literals, u.kind ≠ .enumeration underlying literals) ∧ u.isRuntime = true) ∨
        u.Foreign := by
  by_cases isEnum : ∃ underlying literals, u.kind = .enumeration underlying literals
  · exact Or.inl isEnum
  · have notEnum : ∀ underlying literals, u.kind ≠ .enumeration underlying literals :=
      fun underlying literals same => isEnum ⟨underlying, literals, same⟩
    cases runtime : u.isRuntime with
    | true => exact Or.inr (Or.inl ⟨notEnum, rfl⟩)
    | false => exact Or.inr (Or.inr ⟨runtime, notEnum⟩)

namespace Synthesis.Synthesizer

/-! ### The table -/

def hasMembers (s : Synthesizer) (u : SourceType) : Bool :=
  match s.catalog.extract u with
  | .ok members => !members.isEmpty
  | .error _ => false

/-- The name under which a foreign type is referred to. -/
def standIn (s : Synthesizer) (u : SourceType) : TypeName :=
  if u.kind = .struct then u.name else interfaceName s.options u.name

/-- What stands for a source type that is referred to by a name. -/
def sourceImage? (s : Synthesizer) (name : TypeName) (u : SourceType) : Option TypeRef :=
  match u.kind with
  | .enumeration _ _ => some (.synthesized u.name)
  | _ =>
    if u.isRuntime then some (.named name)
    else if s.hasMembers u then some (.synthesized (s.standIn u))
    else none

def namedImage? (s : Synthesizer) (name : TypeName) : Option TypeRef :=
  (s.catalog.get? name).bind (s.sourceImage? name)

mutual
/-- What stands for a type, if anything does. -/
def image? (s : Synthesizer) : TypeRef → Option TypeRef
  | .named name => s.namedImage? name
  | .array element => (s.image? element).map .array
  | .generic definition args =>
    if s.catalog.isRuntimeGeneric definition then (s.images? args).map (.generic definition)
    else none
  | .primitive p => some (.primitive p)
  | .string => some .string
  | .object => some .object
  | .synthesized name => some (.synthesized name)

def images? (s : Synthesizer) : List TypeRef → Option (List TypeRef)
  | [] => some []
  | t :: rest => (s.image? t).bind fun first => (s.images? rest).map (first :: ·)
end

mutual
/-- The names of source types that stand behind a type, up to the first for which nothing stands. -/
def needs (s : Synthesizer) : TypeRef → List TypeName
  | .named name => if (s.namedImage? name).isSome then [name] else []
  | .array element => s.needs element
  | .generic definition args =>
    if s.catalog.isRuntimeGeneric definition then s.needsOfAll args else []
  | _ => []

def needsOfAll (s : Synthesizer) : List TypeRef → List TypeName
  | [] => []
  | t :: rest => s.needs t ++ if (s.image? t).isSome then s.needsOfAll rest else []
end

/-! ### Members -/

/-- A member as wrappers show it: what stands for its type, or else the type itself. -/
def resolved (s : Synthesizer) (m : Member) : Member :=
  if s.options.dereference then m.withType ((s.image? m.type).getD m.type) else m

def resolvedMembers (s : Synthesizer) (u : SourceType) : List Member :=
  match s.catalog.extract u with
  | .ok members => members.map s.resolved
  | .error _ => []

/-- The names that stand behind the types of a source type's eligible members. -/
def memberNeeds (s : Synthesizer) (u : SourceType) : List TypeName :=
  match s.catalog.extract u with
  | .ok members => if s.options.dereference then members.flatMap fun m => s.needs m.type else []
  | .error _ => []

/-- Making the one source type's members independent looks into the other. -/
def Needs (s : Synthesizer) (u v : SourceType) : Prop :=
  ∃ name ∈ s.memberNeeds u, s.catalog.get? name = some v

/-- Failures end everything, and so a single bad member does. -/
def Strict (s : Synthesizer) : Prop :=
  s.options.dereference = true ∧ s.options.failFast = true

variable {s : Synthesizer} {u v : SourceType} {name : TypeName} {type : TypeRef}

theorem hasMembers_iff : s.hasMembers u = true ↔ ∃ m, s.catalog.EligibleMember u m := by
  unfold hasMembers
  constructor
  · intro h
    cases found : s.catalog.extract u with
    | error e =>
      rw [found] at h
      cases h
    | ok members =>
      rw [found] at h
      exact SourceCatalog.exists_eligibleMember found (by simpa using h)
  · intro eligible
    obtain ⟨members, found, some⟩ := SourceCatalog.exists_extract eligible
    rw [found]
    simpa using some

theorem hasMembers_of_extract {members : List Member} (found : s.catalog.extract u = .ok members)
    (some : members ≠ []) : s.hasMembers u = true := by
  rw [hasMembers_iff]
  exact SourceCatalog.exists_eligibleMember found some

theorem hasMembers_of_extract_nil (empty : s.catalog.extract u = .ok []) :
    s.hasMembers u = false := by
  unfold hasMembers
  rw [empty]
  rfl

theorem hasMembers_of_extract_error {e : SynthesisError} (cyclic : s.catalog.extract u = .error e) :
    s.hasMembers u = false := by
  unfold hasMembers
  rw [cyclic]

theorem barren_iff : s.catalog.Barren u ↔ s.hasMembers u = false := by
  rw [← Bool.not_eq_true, hasMembers_iff]
  constructor
  · intro barren eligible
    exact SourceCatalog.not_barren_of_eligibleMember eligible barren
  · exact Or.inl

theorem memberNeeds_eq {members : List Member} (found : s.catalog.extract u = .ok members)
    (dereferences : s.options.dereference = true) :
    s.memberNeeds u = members.flatMap fun m => s.needs m.type := by
  unfold memberNeeds
  rw [found]
  exact if_pos dereferences

theorem memberNeeds_of_no_dereference (off : s.options.dereference = false) :
    s.memberNeeds u = [] := by
  unfold memberNeeds
  cases s.catalog.extract u with
  | error e => rfl
  | ok members => simp [off]

theorem resolvedMembers_eq {members : List Member} (found : s.catalog.extract u = .ok members) :
    s.resolvedMembers u = members.map s.resolved := by
  unfold resolvedMembers
  rw [found]

theorem resolved_of_image {m : Member} {t : TypeRef} (dereferences : s.options.dereference = true)
    (image : s.image? m.type = some t) : s.resolved m = m.withType t := by
  unfold resolved
  rw [if_pos dereferences, image]
  rfl

theorem resolved_of_no_image {m : Member} (image : s.image? m.type = none) : s.resolved m = m := by
  unfold resolved
  rw [image]
  split <;> rfl

theorem resolved_of_no_dereference (off : s.options.dereference = false) (m : Member) :
    s.resolved m = m := by
  unfold resolved
  rw [off]
  rfl

/-! ### Source types -/

theorem sourceImage?_enum {underlying : Primitive} {literals : List Literal}
    (isEnum : u.kind = .enumeration underlying literals) :
    s.sourceImage? name u = some (.synthesized u.name) := by
  unfold sourceImage?
  rw [isEnum]

theorem sourceImage?_runtime (notEnum : ∀ underlying literals, u.kind ≠ .enumeration underlying literals)
    (runtime : u.isRuntime = true) : s.sourceImage? name u = some (.named name) := by
  unfold sourceImage?
  split
  case h_1 underlying literals isEnum => exact absurd isEnum (notEnum underlying literals)
  case h_2 => rw [if_pos runtime]

theorem sourceImage?_foreign (foreign : u.Foreign) : s.sourceImage? name u =
    if s.hasMembers u then some (.synthesized (s.standIn u)) else none := by
  unfold sourceImage?
  split
  case h_1 underlying literals isEnum => exact absurd isEnum (foreign.2 underlying literals)
  case h_2 => rw [foreign.1, if_neg Bool.false_ne_true]

theorem namedImage?_eq (found : s.catalog.get? name = some u) :
    s.namedImage? name = s.sourceImage? name u := by
  unfold namedImage?
  rw [found]
  rfl

theorem namedImage?_eq_none_iff : s.namedImage? name = none ↔ s.catalog.NameResists name := by
  unfold namedImage? SourceCatalog.NameResists
  cases found : s.catalog.get? name with
  | none => simp
  | some u =>
    rcases u.foreign_or with ⟨underlying, literals, isEnum⟩ | ⟨notEnum, runtime⟩ | foreign
    · have native : ¬ u.Foreign := fun foreign => foreign.2 underlying literals isEnum
      simp [sourceImage?_enum isEnum, native]
    · have native : ¬ u.Foreign := fun foreign => by simp [foreign.1] at runtime
      simp [sourceImage?_runtime notEnum runtime, native]
    · simp [sourceImage?_foreign foreign, foreign, barren_iff]

/-! ### Images and needs of types -/

mutual

theorem image?_eq_none_iff (type : TypeRef) :
    s.image? type = none ↔ s.catalog.Resists type := by
  cases type with
  | named name =>
    unfold image? SourceCatalog.Resists SourceCatalog.ResistsAny
    simp [TypeRef.mentions, TypeRef.definitions, namedImage?_eq_none_iff]
  | array element =>
    unfold image?
    rw [Option.map_eq_none_iff]
    exact image?_eq_none_iff element
  | generic definition args =>
    unfold image?
    by_cases registered : s.catalog.isRuntimeGeneric definition = true
    · rw [if_pos registered, Option.map_eq_none_iff, images?_eq_none_iff args]
      simp [SourceCatalog.Resists, SourceCatalog.ResistsAny, TypeRef.mentions,
        TypeRef.definitions, registered]
    · rw [if_neg registered]
      refine iff_of_true rfl (Or.inr ⟨definition, ?_, Bool.eq_false_of_not_eq_true registered⟩)
      exact List.mem_cons_self
  | primitive | string | object | synthesized =>
    simp [image?, SourceCatalog.Resists, SourceCatalog.ResistsAny, TypeRef.mentions,
      TypeRef.definitions]

theorem images?_eq_none_iff (types : List TypeRef) : s.images? types = none ↔
    s.catalog.ResistsAny (TypeRef.mentionsOfAll types) (TypeRef.definitionsOfAll types) := by
  cases types with
  | nil => simp [images?, SourceCatalog.ResistsAny, TypeRef.mentionsOfAll, TypeRef.definitionsOfAll]
  | cons type rest =>
    have first := image?_eq_none_iff type
    have others := images?_eq_none_iff rest
    unfold images?
    rw [Option.bind_eq_none_iff]
    simp only [Option.map_eq_none_iff, TypeRef.mentionsOfAll, TypeRef.definitionsOfAll]
    rw [SourceCatalog.resistsAny_append, ← others]
    cases image : s.image? type with
    | none => exact iff_of_true nofun (Or.inl (first.1 image))
    | some t =>
      have allowed : ¬ s.catalog.Resists type := mt first.2 (by simp [image])
      simp only [Option.some.injEq, forall_eq']
      exact (or_iff_right allowed).symm

end

mutual

theorem needs_subset (s : Synthesizer) (type : TypeRef) : s.needs type ⊆ type.mentions := by
  cases type with
  | named name =>
    unfold needs
    split
    · exact List.Subset.refl _
    · exact List.nil_subset _
  | array element =>
    unfold needs
    exact needs_subset s element
  | generic definition args =>
    unfold needs
    split
    · exact needsOfAll_subset s args
    · exact List.nil_subset _
  | primitive | string | object | synthesized => exact List.nil_subset _

theorem needsOfAll_subset (s : Synthesizer) (types : List TypeRef) :
    s.needsOfAll types ⊆ TypeRef.mentionsOfAll types := by
  cases types with
  | nil => exact List.nil_subset _
  | cons type rest =>
    have first := List.subset_append_of_subset_left (TypeRef.mentionsOfAll rest) (needs_subset s type)
    have others := List.subset_append_of_subset_right type.mentions (needsOfAll_subset s rest)
    unfold needsOfAll
    refine List.append_subset.2 ⟨first, ?_⟩
    split
    · exact others
    · exact List.nil_subset _

end

mutual

/-- If something stands for a type, then all names that it mentions stand behind it. -/
theorem needs_eq_mentions (type : TypeRef) (image : s.image? type ≠ none) :
    s.needs type = type.mentions := by
  cases type with
  | named name =>
    unfold image? at image
    unfold needs
    rw [if_pos (Option.isSome_iff_ne_none.2 image)]
    rfl
  | array element =>
    unfold image? at image
    unfold needs
    exact needs_eq_mentions element (mt Option.map_eq_none_iff.2 image)
  | generic definition args =>
    unfold image? at image
    unfold needs
    by_cases registered : s.catalog.isRuntimeGeneric definition = true
    · rw [if_pos registered] at image ⊢
      exact needsOfAll_eq_mentions args (mt Option.map_eq_none_iff.2 image)
    · exact absurd (if_neg registered) image
  | primitive | string | object | synthesized => rfl

theorem needsOfAll_eq_mentions (types : List TypeRef) (images : s.images? types ≠ none) :
    s.needsOfAll types = TypeRef.mentionsOfAll types := by
  cases types with
  | nil => rfl
  | cons type rest =>
    unfold images? at images
    cases image : s.image? type with
    | none =>
      rw [image] at images
      exact absurd rfl images
    | some t =>
      rw [image, Option.bind_some, Ne, Option.map_eq_none_iff] at images
      have first := needs_eq_mentions type (by simp [image])
      unfold needsOfAll
      rw [image, Option.isSome_some, if_pos rfl, first, needsOfAll_eq_mentions rest images]
      rfl

end

mutual

theorem namedImage?_of_needs (type : TypeRef) (isIn : name ∈ s.needs type) :
    s.namedImage? name ≠ none := by
  cases type with
  | named n =>
    unfold needs at isIn
    split at isIn
    case isTrue image =>
      rw [List.mem_singleton] at isIn
      exact isIn ▸ Option.isSome_iff_ne_none.1 image
    case isFalse => exact absurd isIn List.not_mem_nil
  | array element =>
    unfold needs at isIn
    exact namedImage?_of_needs element isIn
  | generic definition args =>
    unfold needs at isIn
    split at isIn
    case isTrue => exact namedImage?_of_needsOfAll args isIn
    case isFalse => exact absurd isIn List.not_mem_nil
  | primitive | string | object | synthesized => exact absurd isIn List.not_mem_nil

theorem namedImage?_of_needsOfAll (types : List TypeRef) (isIn : name ∈ s.needsOfAll types) :
    s.namedImage? name ≠ none := by
  cases types with
  | nil => exact absurd isIn List.not_mem_nil
  | cons type rest =>
    unfold needsOfAll at isIn
    rcases List.mem_append.1 isIn with isIn | isIn
    · exact namedImage?_of_needs type isIn
    · split at isIn
      case isTrue => exact namedImage?_of_needsOfAll rest isIn
      case isFalse => exact absurd isIn List.not_mem_nil

end

end Synthesis.Synthesizer

end FluentWrappers
