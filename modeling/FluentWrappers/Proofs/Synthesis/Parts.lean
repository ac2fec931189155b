import FluentWrappers.Proofs.Synthesis.Mentions
import FluentWrappers.Proofs.Synthesis.Requests

/-!
# Parts of what a synthesis made

The wrappers of a source type and what its members ask for, one after the other, mention nothing that
is not among them, besides the root object. A name that was handed out while its type was still being
made is that of a completed type in the end.
-/

namespace FluentWrappers

/-- Declared members mention no synthesized types. -/
def SourceCatalog.Unsynthesized (c : SourceCatalog) : Prop :=
  ∀ t ∈ c.types, ∀ m ∈ t.members, m.type.synthesizedNames = []

instance (c : SourceCatalog) : Decidable c.Unsynthesized :=
  inferInstanceAs (Decidable (∀ t ∈ c.types, ∀ m ∈ t.members, m.type.synthesizedNames = []))

namespace Synthesis

open Lowering (mentionsOfType)

/-- The synthesis of the root has come to its end. All that the root needs is good, and what is good
and served has been looked into. -/
structure Rooted (s : Synthesizer) (good : SourceType → Prop) (p : Progress) (root : SourceType) :
    Prop where
  known : s.catalog.Known root
  some : s.hasMembers root = true
  distinct : ¬ s.Clashes root
  bound : ∀ key, s.IsWrapperKey root key → p.Bound key
  supplied : Supplied s p root
  first : ∀ v, s.Needs root v → v.Foreign → good v
  heir : ∀ u v, good u → s.Needs u v → v.Foreign → good v
  served : ∀ v, good v → v.Foreign → Served s p v → Supplied s p v

/-- The type is a wrapper of the root or made for mentions of a good source type. -/
inductive Part (s : Synthesizer) (good : SourceType → Prop) (p : Progress) (root : SourceType)
    (t : SynthesizedType) : Prop where
  | wrapper (kind : ProductKind) (isKey : s.IsWrapperKey root (s.keyOf kind root))
      (made : s.product root kind = some t)
  | mentioned (u : SourceType) (kind : ProductKind) (served : Served s p u)
      (isGood : u.Foreign → good u) (isKey : s.keyOf kind u ∈ s.mentionKeys u)
      (made : s.product u kind = some t)

def IsPartName (s : Synthesizer) (good : SourceType → Prop) (p : Progress) (root : SourceType)
    (name : TypeName) : Prop :=
  ∃ t, Part s good p root t ∧ t.name = name

variable {s : Synthesizer} {old : CacheKey → Prop} {good : SourceType → Prop} {p : Progress}
  {root u : SourceType} {name : TypeName} {t : SynthesizedType} {kind : ProductKind} {m : Member}

/-! ### Members -/

theorem synthesizedNames_eq_nil (plain : s.catalog.Unsynthesized) (known : s.catalog.Known u)
    (eligible : s.catalog.EligibleMember u m) : m.type.synthesizedNames = [] := by
  obtain ⟨a, isKnown, declared⟩ := SourceCatalog.exists_declaration eligible
  rcases isKnown with rfl | isIn
  · exact plain a known.mem m declared
  · exact plain a isIn m declared

theorem exists_of_mem_resolvedMembers (isIn : m ∈ s.resolvedMembers u) :
    ∃ n, s.catalog.EligibleMember u n ∧ m = s.resolved n := by
  unfold Synthesizer.resolvedMembers at isIn
  cases found : s.catalog.extract u with
  | error e =>
    rw [found] at isIn
    exact absurd isIn List.not_mem_nil
  | ok members =>
    rw [found] at isIn
    obtain ⟨n, isMember, rfl⟩ := List.mem_map.1 isIn
    exact ⟨n, ⟨members, found, isMember⟩, rfl⟩

/-- A synthesized name in a member's type is that of what stands for a type that the member needs. -/
theorem exists_needs_of_mem_synthesizedNames (plain : s.catalog.Unsynthesized)
    (known : s.catalog.Known u) (isMember : m ∈ s.resolvedMembers u)
    (isIn : name ∈ m.type.synthesizedNames) : ∃ v, s.Needs u v ∧ s.StandsAs v name := by
  obtain ⟨n, ⟨members, found, isDeclared⟩, rfl⟩ := exists_of_mem_resolvedMembers isMember
  have none := synthesizedNames_eq_nil plain known ⟨members, found, isDeclared⟩
  have asDeclared : s.resolved n ≠ n := fun same => by
    rw [same, none] at isIn
    exact absurd isIn List.not_mem_nil
  cases on : s.options.dereference with
  | false => exact absurd (Synthesizer.resolved_of_no_dereference on n) asDeclared
  | true =>
    cases image : s.image? n.type with
    | none => exact absurd (Synthesizer.resolved_of_no_image image) asDeclared
    | some type =>
      rw [Synthesizer.resolved_of_image on image] at isIn
      have aliased := (Synthesizer.mem_synthesizedNames_image? n.type image isIn).resolve_left
        (by simp [none])
      obtain ⟨mention, isNeeded, v, isName, stands⟩ := aliased
      refine ⟨v, ⟨mention, ?_, isName⟩, stands⟩
      rw [Synthesizer.memberNeeds_eq found on]
      exact List.mem_flatMap.2 ⟨n, isDeclared, isNeeded⟩

/-! ### Parts -/

theorem exists_part_of_standsAs (served : Served s p u) (isGood : u.Foreign → good u)
    (stands : s.StandsAs u name) : IsPartName s good p root name := by
  obtain ⟨kind, t, isKey, made, isNamed⟩ := Synthesizer.exists_product_of_standsAs stands
  exact ⟨t, Part.mentioned u kind served isGood isKey made, isNamed⟩

theorem Rooted.part_of_mem_wrappers (rooted : Rooted s good p root) :
    ∀ t ∈ [s.madeInterface root, s.madeProxy root, s.madeFluent root], Part s good p root t := by
  simp only [List.forall_mem_cons, List.not_mem_nil, false_implies, implies_true, and_true]
  refine ⟨?_, ?_, ?_⟩
  · exact Part.wrapper .interface (Or.inl rfl) (Synthesizer.product_interface rooted.some)
  · exact Part.wrapper .proxy (Or.inr (Or.inl rfl)) (Synthesizer.product_proxy rooted.some)
  · exact Part.wrapper .fluent (Or.inr (Or.inr rfl))
      (Synthesizer.product_fluent rooted.some rooted.distinct)

theorem Rooted.exists_wrapper (rooted : Rooted s good p root)
    (isKey : s.IsWrapperKey root (s.keyOf kind root)) :
    IsPartName s good p root (s.productName root kind) := by
  have other : kind ≠ .enumClone := by
    rintro rfl
    rcases isKey with same | same | same <;> cases congrArg CacheKey.kind same
  obtain ⟨t, made⟩ := Synthesizer.product_eq_some rooted.some other fun _ => rooted.distinct
  exact ⟨t, Part.wrapper kind isKey made, (Synthesizer.product_facts made).2.1⟩

theorem exists_part_of_key (served : Served s p u) (isGood : u.Foreign → good u)
    (foreign : u.Foreign) (isKey : s.keyOf kind u ∈ s.mentionKeys u) (isKind : kind.OfMembers) :
    IsPartName s good p root (s.productName u kind) := by
  obtain ⟨t, made⟩ := Synthesizer.product_eq_some (served.members foreign) isKind.ne_enumClone
    fun same => absurd same isKind.ne_fluent
  exact ⟨t, Part.mentioned u kind served isGood isKey made, (Synthesizer.product_facts made).2.1⟩

theorem Part.companion (rooted : Rooted s good p root) (part : Part s good p root t) :
    ∃ u kind, s.catalog.Known u ∧ s.product u kind = some t ∧
      (kind ≠ .enumClone → Supplied s p u ∧ ∀ v, s.Needs u v → v.Foreign → good v) ∧
      ∀ name ∈ s.companions u kind, IsPartName s good p root name := by
  cases part with
  | wrapper kind isKey made =>
    have interface : IsPartName s good p root (s.productName root .interface) :=
      rooted.exists_wrapper (Or.inl rfl)
    have proxy : IsPartName s good p root (s.productName root .proxy) :=
      rooted.exists_wrapper (Or.inr (Or.inl rfl))
    have fluent : IsPartName s good p root (s.productName root .fluent) :=
      rooted.exists_wrapper (Or.inr (Or.inr rfl))
    refine ⟨root, kind, rooted.known, made, fun _ => ⟨rooted.supplied, rooted.first⟩, ?_⟩
    rcases isKey with same | same | same <;> obtain rfl := congrArg CacheKey.kind same
    · exact fun _ isIn => absurd isIn List.not_mem_nil
    · simp only [Synthesizer.keyOf, Synthesizer.companions, List.forall_mem_cons]
      exact ⟨interface, proxy, nofun⟩
    · simp only [Synthesizer.keyOf, Synthesizer.companions, List.forall_mem_cons]
      exact ⟨interface, proxy, fluent, nofun⟩
  | mentioned u kind served isGood isKey made =>
    rcases Synthesizer.of_mem_mentionKeys isKey with ⟨same, -⟩ | ⟨foreign, isMemberKey⟩
    · obtain rfl : kind = .enumClone := congrArg CacheKey.kind same
      exact ⟨u, .enumClone, served.known, made, fun other => absurd rfl other,
        fun _ isIn => absurd isIn List.not_mem_nil⟩
    · refine ⟨u, kind, served.known, made, fun _ =>
        ⟨rooted.served u (isGood foreign) foreign served,
          fun v => rooted.heir u v (isGood foreign)⟩, ?_⟩
      have interface : IsPartName s good p root (s.productName u .interface) :=
        exists_part_of_key served isGood foreign (s.interfaceKey_mem_mentionKeys foreign)
          (Or.inl rfl)
      have proxy : IsPartName s good p root (s.productName u .proxy) :=
        exists_part_of_key served isGood foreign (s.proxyKey_mem_mentionKeys foreign)
          (Or.inr (Or.inl rfl))
      obtain ⟨kind', isKind, same⟩ := mem_memberKeys_iff.1 isMemberKey
      obtain rfl : kind = kind' := congrArg CacheKey.kind same
      rcases isKind with rfl | rfl | rfl
      · exact fun _ isIn => absurd isIn List.not_mem_nil
      · simp only [Synthesizer.companions, List.forall_mem_cons]
        exact ⟨interface, proxy, nofun⟩
      · simp only [Synthesizer.companions, List.forall_mem_singleton]
        exact ⟨t, Part.mentioned u .structClone served isGood isKey made,
          (Synthesizer.product_facts made).2.1⟩

theorem Part.mem_types (part : Part s good p root t) (rooted : Rooted s good p root)
    (lawful : Lawful s old p) (apart : s.Apart) (idle : p.scope = []) : t ∈ p.cache.types := by
  rw [lawful.listed]
  cases part with
  | wrapper kind isKey made =>
    exact ⟨_, lawful.has_of_bound apart idle rooted.known made (rooted.bound _ isKey)⟩
  | mentioned u kind served isGood isKey made =>
    exact ⟨_, lawful.has_of_bound apart idle served.known made (served.bound _ isKey)⟩

section

variable (part : Part s good p root t) (rooted : Rooted s good p root)

include part rooted

theorem Part.exists_member (isMember : m ∈ t.members) :
    ∃ u n, s.catalog.Known u ∧ m ∈ s.resolvedMembers u ∧ s.catalog.EligibleMember u n ∧
      m = s.resolved n ∧ Supplied s p u ∧ ∀ v, s.Needs u v → v.Foreign → good v := by
  obtain ⟨u, kind, known, made, source, -⟩ := part.companion rooted
  have other : kind ≠ .enumClone := by
    rintro rfl
    rcases Synthesizer.of_product made with ⟨_, _, _, _, rfl⟩ | ⟨_, impossible⟩
    · exact absurd isMember List.not_mem_nil
    · simp at impossible
  rw [Synthesizer.members_of_product made other] at isMember
  obtain ⟨n, eligible, shows⟩ := exists_of_mem_resolvedMembers isMember
  obtain ⟨supplied, isGood⟩ := source other
  exact ⟨u, n, known, isMember, eligible, shows, supplied, isGood⟩

theorem Part.of_member (plain : s.catalog.Unsynthesized) (isMember : m ∈ t.members)
    (isIn : name ∈ m.type.synthesizedNames) : IsPartName s good p root name := by
  obtain ⟨u, n, known, isResolved, -, -, supplied, isGood⟩ := part.exists_member rooted isMember
  obtain ⟨v, needs, stands⟩ := exists_needs_of_mem_synthesizedNames plain known isResolved isIn
  exact exists_part_of_standsAs (supplied.served needs) (isGood v needs) stands

/-- All names that a part mentions are those of parts, but for the root object's. -/
theorem Part.of_mentioned (plain : s.catalog.Unsynthesized) (isIn : name ∈ t.mentionedNames) :
    name = MethodTarget.rootConstructor.owner ∨ IsPartName s good p root name := by
  obtain ⟨u, kind, -, made, -, companions⟩ := part.companion rooted
  rcases (Synthesizer.keeps_product made).mentioned isIn with ⟨m, isMember, isIn⟩ | isIn
  · exact Or.inr (part.of_member rooted plain isMember isIn)
  · exact (List.mem_cons.1 isIn).imp_right (companions name)

/-- What a part mentions in its interfaces and types is a part or comes with the base runtime. -/
theorem Part.of_mention (plain : s.catalog.Unsynthesized) (strict : s.Strict)
    {mention : Lowering.Mention} (isIn : mention ∈ mentionsOfType t) :
    s.IsBase mention ∨ ∃ name ∈ t.mentionedNames, mention = .made name.canonical ∧
      IsPartName s good p root name := by
  obtain ⟨u, kind, -, made, -, companions⟩ := part.companion rooted
  have keeps := Synthesizer.keeps_product made
  rcases List.mem_append.1 isIn with isIn | isIn
  · obtain ⟨name, isInterface, rfl⟩ := List.mem_map.1 isIn
    have isMentioned : name ∈ t.mentionedNames := by
      unfold SynthesizedType.mentionedNames
      simp [isInterface]
    exact Or.inr ⟨name, isMentioned, rfl, companions name (keeps.interfaces name isInterface)⟩
  · obtain ⟨type, isType, isIn⟩ := List.mem_flatMap.1 isIn
    rcases keeps.isPart isType with ⟨m, isMember, rfl⟩ | ⟨name, isCompanion, rfl⟩
    · obtain ⟨_, n, -, -, eligible, rfl, supplied, -⟩ := part.exists_member rooted isMember
      obtain ⟨image, isImage⟩ := Option.ne_none_iff_exists'.1 (supplied.1 strict n eligible)
      have shown : (s.resolved n).type = image := by
        rw [Synthesizer.resolved_of_image strict.1 isImage]
        rfl
      rw [shown] at isIn isType
      rcases Synthesizer.provides_image? n.type isImage mention isIn with ⟨name, isName, rfl⟩ | isBase
      · exact Or.inr ⟨name, mem_mentionedNames_of_memberTypes isType isName, rfl,
          part.of_member rooted plain isMember (shown ▸ isName)⟩
      · exact Or.inl isBase
    · obtain rfl := List.mem_singleton.1 isIn
      have isMentioned := mem_mentionedNames_of_memberTypes isType (List.mem_singleton_self name)
      exact Or.inr ⟨name, isMentioned, rfl, companions name isCompanion⟩

end

end Synthesis

end FluentWrappers
