import FluentWrappers.Proofs.Lowering.Definitions
import FluentWrappers.Proofs.Synthesis.Closure
import FluentWrappers.Proofs.Synthesis.Independence
import FluentWrappers.Proofs.Synthesis.Parts

/-!
# Forward references are fulfilled

A synthesis that succeeds in a fresh session completes the wrappers of its source type and the types
for all that is mentioned by members of source types it reaches: these, each once, and no others. All
of them mention only each other, so that an artifact of them is standalone.
-/

namespace FluentWrappers

namespace SourceCatalog

open Synthesis (ProductKind)

/-- A member of a source type that the root reaches mentions the type. -/
def Mentioned (c : SourceCatalog) (root u : SourceType) : Prop :=
  ∃ t m, c.Reaches root t ∧ c.EligibleMember t m ∧ ∃ name ∈ m.type.mentions, c.get? name = some u

/-- A mention of the source type asks for a type of the kind. -/
def StandsFor (u : SourceType) (kind : ProductKind) : Prop :=
  u.Foreign ∧ (kind = .interface ∨ kind = .proxy ∨ kind = .structClone ∧ u.kind = .struct) ∨
    kind = .enumClone ∧ ∃ underlying literals, u.kind = .enumeration underlying literals

/-- The synthesis of the root makes a type of the kind from the source type. -/
def Wants (c : SourceCatalog) (root : SourceType) (kind : ProductKind) (u : SourceType) : Prop :=
  u = root ∧ (kind = .interface ∨ kind = .proxy ∨ kind = .fluent) ∨
    c.Mentioned root u ∧ StandsFor u kind

end SourceCatalog

namespace Synthesis

open SourceCatalog (StandsFor)
open Synthesizer (run cloneKey apart_of_dotless)

variable {s : Synthesizer} {good : SourceType → Prop} {p : Progress} {root u v : SourceType}
  {t : SynthesizedType} {kind : ProductKind} {session session' : Session} {old : CacheKey → Prop}
  {w : Wrappers}

/-! ### Keys and kinds -/

theorem isWrapperKey_iff (apart : s.Apart) (known : s.catalog.Known root)
    (known' : s.catalog.Known u) : s.IsWrapperKey root (s.keyOf kind u) ↔
      u = root ∧ (kind = .interface ∨ kind = .proxy ∨ kind = .fluent) := by
  constructor
  · rintro (same | same | same) <;> obtain ⟨rfl, rfl⟩ := keyOf_inj apart known' known same <;> simp
  · rintro ⟨rfl, rfl | rfl | rfl⟩
    · exact Or.inl rfl
    · exact Or.inr (Or.inl rfl)
    · exact Or.inr (Or.inr rfl)

theorem keyOf_eq_iff {kind' : ProductKind} : s.keyOf kind u = s.keyOf kind' u ↔ kind = kind' :=
  ⟨congrArg CacheKey.kind, fun same => same ▸ rfl⟩

theorem keyOf_mem_mentionKeys_iff :
    s.keyOf kind u ∈ s.mentionKeys u ↔ StandsFor u kind := by
  have interface : s.interfaceKey u = s.keyOf .interface u := rfl
  have proxy : s.proxyKey u = s.keyOf .proxy u := rfl
  have clone : cloneKey u = s.keyOf .structClone u := rfl
  unfold StandsFor
  rcases u.foreign_or with ⟨underlying, literals, isEnum⟩ | ⟨notEnum, runtime⟩ | foreign
  · have native : ¬ u.Foreign := fun foreign => foreign.2 underlying literals isEnum
    simp [Synthesizer.mentionKeys_enum isEnum, keyOf_eq_iff, native, isEnum]
  · have native : ¬ u.Foreign := fun foreign => by simp [foreign.1] at runtime
    simp [Synthesizer.mentionKeys_runtime notEnum runtime, native, notEnum]
  · rw [Synthesizer.mentionKeys_foreign foreign]
    by_cases isStruct : u.kind = .struct
    · simp [isStruct, foreign, Synthesizer.memberKeys, interface, proxy, clone, keyOf_eq_iff]
    · simp [isStruct, foreign, foreign.2, interface, proxy, keyOf_eq_iff]

/-- A key for a mention is the key of no other source type. -/
theorem eq_of_mem_mentionKeys (apart : s.Apart) (known : s.catalog.Known u)
    (known' : s.catalog.Known v) (isKey : s.keyOf kind u ∈ s.mentionKeys v) : u = v := by
  rcases Synthesizer.of_mem_mentionKeys isKey with ⟨same, -⟩ | ⟨-, isKey⟩
  · exact (keyOf_inj apart known known' same).2
  · obtain ⟨kind', -, same⟩ := mem_memberKeys_iff.1 isKey
    exact (keyOf_inj apart known known' same).2

/-! ### What is reached -/

theorem exists_needs_of_looks (needs : s.Needs root u)
    (path : Relation.ReflTransGen s.Looks u v) :
    ∃ t, s.catalog.Reaches root t ∧ s.Needs t v := by
  induction path with
  | refl => exact ⟨root, Relation.ReflTransGen.refl, needs⟩
  | tail _ looks ih =>
    obtain ⟨foreign, next⟩ := looks
    obtain ⟨t, reached, needs⟩ := ih
    exact ⟨_, reached.tail (needs.refers foreign), next⟩

theorem mentioned_of_needs (reached : s.catalog.Reaches root u) (needs : s.Needs u v) :
    s.catalog.Mentioned root v := by
  obtain ⟨name, isNeeded, found⟩ := needs
  obtain ⟨-, m, eligible, isIn⟩ := Synthesizer.exists_member_of_memberNeeds isNeeded
  exact ⟨u, m, reached, eligible, name, s.needs_subset m.type isIn, found⟩

/-! ### Parts are completed -/

/-- After a synthesis that made wrappers in a whole session all source types count as good. -/
theorem rooted_of_synthesize (apart : s.Apart) (known : s.catalog.Known root)
    (lawful : Lawful s noKey ⟨session, []⟩) (whole : Whole s noKey ⟨session, []⟩)
    (ran : run session (s.synthesize root) = (.ok (some w), session')) :
    w = s.wrappersOf root ∧ Lawful s noKey ⟨session', []⟩ ∧ Whole s noKey ⟨session', []⟩ ∧
      Rooted s (fun _ => True) ⟨session', []⟩ root := by
  obtain ⟨-, results, -⟩ := Synthesizer.run_synthesize apart known lawful ran
  obtain ⟨lawful', whole', -, found⟩ :=
    Synthesizer.ready_of_synthesize apart lawful whole known ran
  obtain ⟨-, ⟨isNone, -⟩ | ⟨isSome, hasMembers, distinct, bound⟩⟩ := results _ rfl
  · cases isNone
  · obtain ⟨-, made, supplied⟩ := found hasMembers
    refine ⟨Option.some.inj isSome, lawful', whole', ?_⟩
    exact {
      known, some := hasMembers, distinct, bound
      supplied := supplied fun h => h.1
      first := fun _ _ _ => trivial
      heir := fun _ _ _ _ _ => trivial
      served := fun v _ foreign served => whole'.supplied lawful' apart rfl served foreign }

section

variable (apart : s.Apart) (lawful : Lawful s noKey p) (whole : Whole s noKey p)
  (idle : p.scope = []) (rooted : Rooted s (fun _ => True) p root)

include apart lawful whole idle rooted

theorem served_of_mentioned (strict : s.Strict) (mentioned : s.catalog.Mentioned root u) :
    Served s p u := by
  obtain ⟨t, m, reached, eligible, name, isMention, found⟩ := mentioned
  have path : Relation.ReflTransGen (s.RefersAnew noKey) root t :=
    Relation.ReflTransGen.mono (fun _ _ refers => refersAnew_noKey.2 refers) _ _ reached
  have supplied := whole.supplied_of_path lawful apart idle strict rooted.supplied path
  exact supplied.served
    (needs_of_mention strict.1 (supplied.1 strict) eligible isMention found)

/-- All that the synthesis wants is completed. -/
theorem exists_of_wants (strict : s.Strict) (wants : s.catalog.Wants root kind u) :
    ∃ t ∈ p.cache.types, s.product u kind = some t := by
  rcases wants with ⟨rfl, isKind⟩ | ⟨mentioned, stands⟩
  · have isKey := (isWrapperKey_iff apart rooted.known rooted.known).2 ⟨rfl, isKind⟩
    have other : kind ≠ .enumClone := by rcases isKind with rfl | rfl | rfl <;> exact nofun
    obtain ⟨t, made⟩ := Synthesizer.product_eq_some rooted.some other fun _ => rooted.distinct
    exact ⟨t, (Part.wrapper kind isKey made).mem_types rooted lawful apart idle, made⟩
  · have served := served_of_mentioned apart lawful whole idle rooted strict mentioned
    obtain ⟨t, has⟩ := lawful.made_of_served apart idle served (keyOf_mem_mentionKeys_iff.2 stands)
    exact ⟨t, (lawful.listed t).2 ⟨_, has⟩, lawful.has_product apart served.known has⟩

/-- What the synthesis makes is wanted, and is a part. -/
theorem part_of_makes (known : s.catalog.Known u) (made : s.product u kind = some t)
    (makes : s.Makes root (s.keyOf kind u)) :
    Part s (fun _ => True) p root t ∧ s.catalog.Wants root kind u := by
  rcases makes.2 with isKey | ⟨name, isIn, v, found, w, path, isKey⟩
  · obtain ⟨rfl, isKind⟩ := (isWrapperKey_iff apart rooted.known known).1 isKey
    exact ⟨Part.wrapper kind isKey made, Or.inl ⟨rfl, isKind⟩⟩
  · have needs : s.Needs root v := ⟨name, isIn, found⟩
    have served := whole.served_of_looks lawful apart idle (rooted.supplied.served needs) path
    obtain rfl := eq_of_mem_mentionKeys apart known served.known isKey
    obtain ⟨t', reached, needs⟩ := exists_needs_of_looks needs path
    exact ⟨Part.mentioned u kind served (fun _ => trivial) isKey made,
      Or.inr ⟨mentioned_of_needs reached needs, keyOf_mem_mentionKeys_iff.1 isKey⟩⟩

end

/-! ### Artifacts of parts -/

/-- A closure of parts whose types have names of their own is closed. -/
theorem isClosed_of_parts {roots : List TypeName} (plain : s.catalog.Unsynthesized)
    (strict : s.Strict) (rooted : Rooted s good p root)
    (parts : ∀ t ∈ session.closure roots, Part s good p root t)
    (completed : ∀ t, Part s good p root t → t ∈ session.types)
    (distinct : ((session.closure roots).map (·.canonical)).Nodup)
    (unlike : ∀ t ∈ session.types, t.canonical ≠ rootObject) :
    Lowering.isClosed (Lowering.runtimeNames s.catalog) (session.closure roots) = true := by
  have names : ((session.closure roots).map (·.name)).Nodup := nodup_names distinct
  unfold Lowering.isClosed
  rw [List.all_eq_true]
  intro mention isIn
  obtain ⟨t, isType, isIn⟩ := List.mem_flatMap.1 isIn
  rcases (parts t isType).of_mention rooted plain strict isIn with
    isBase | ⟨name, isMentioned, rfl, other, part, isNamed⟩
  · exact isBase _
  · -- the mention is of the type itself or a dependency, which the closure follows
    have isListed := completed other part
    have isClosure : other.canonical ∈ (session.closure roots).map (·.canonical) := by
      by_cases self : name = t.name
      · have same : other.canonical = t.canonical :=
          congrArg TypeName.canonical (isNamed.trans self)
        exact same ▸ List.mem_map_of_mem isType
      · have isDependency : name ∈ t.dependencies := by
          have notRoot : name.canonical ≠ rootObject := isNamed ▸ unlike other isListed
          exact mem_dependencies.2 ⟨isMentioned, self, notRoot⟩
        exact List.mem_map_of_mem
          (Session.mem_closure_of_dependency names isType isDependency isListed isNamed)
    exact List.contains_iff_mem.2 (isNamed ▸ isClosure)

/-! ### The whole synthesis -/

theorem not_made_start {timeout : UInt64} {key : CacheKey} :
    ¬ Progress.Made ⟨Session.start timeout, []⟩ key := by
  rintro ⟨type, serial, state⟩
  cases state

/-- A session completes one type of a kind for a source. -/
theorem nodup_kind_source (lawful : Lawful s old ⟨session, []⟩) :
    (session.types.map fun t => (t.kind, t.source)).Nodup := by
  refine List.Nodup.map_on ?_ (List.Nodup.of_map _ lawful.once)
  intro t isIn t' isIn' same
  obtain ⟨u, known, made⟩ := Synthesizer.exists_product_of_mem lawful isIn
  obtain ⟨v, known', made'⟩ := Synthesizer.exists_product_of_mem lawful isIn'
  obtain rfl :=
    Synthesizer.eq_source_of_product known known' made made' (congrArg Prod.snd same)
  have sameKind : t.kind = t'.kind := congrArg Prod.fst same
  exact Option.some.inj (made.symm.trans (sameKind ▸ made'))

/-- A synthesis that succeeds in a fresh session completes what it wants, each type once, and fulfils
all references between them; an artifact of their closure is standalone. -/
theorem synthesize_fulfilled (s : Synthesizer) (root : SourceType) (timeout : UInt64)
    (dereferences : s.options.dereference = true) (failFast : s.options.failFast = true)
    (dotless : ∀ t ∈ s.catalog.types, t.name.Dotless) (plain : s.catalog.Unsynthesized)
    (known : s.catalog.Known root) (w : Wrappers)
    (succeeds : (run (Session.start timeout) (s.synthesize root)).1 = .ok (some w)) :
    let session := (run (Session.start timeout) (s.synthesize root)).2
    (∀ t ∈ session.types, ∃ u, s.catalog.Known u ∧ t.source = u.name ∧
      t.name = s.productName u t.kind ∧ s.catalog.Wants root t.kind u) ∧
    (∀ kind u, s.catalog.Known u → s.catalog.Wants root kind u →
      ∃ t ∈ session.types, t.kind = kind ∧ t.source = u.name ∧ t.name = s.productName u kind) ∧
    (session.types.map fun t => (t.kind, t.source)).Nodup ∧
    [w.interface, w.proxy, w.fluent] ⊆ session.types ∧
    (∀ t ∈ session.types, ∀ name ∈ t.mentionedNames,
      name = MethodTarget.rootConstructor.owner ∨ ∃ t' ∈ session.types, t'.name = name) ∧
    ((∀ t ∈ session.types, t.canonical ≠ rootObject) → ∀ metadata artifact,
      Lowering.lower (Lowering.runtimeNames s.catalog) metadata
        (session.closure [w.interface.name, w.proxy.name, w.fluent.name]) = .ok artifact →
      artifact.flags = ArtifactFlag.standalone) := by
  intro session
  have apart := apart_of_dotless dotless
  have strict : s.Strict := ⟨dereferences, failFast⟩
  have ran : run (Session.start timeout) (s.synthesize root) = (.ok (some w), session) :=
    Prod.ext succeeds rfl
  have before := lawful_start s timeout
  obtain ⟨rfl, lawful, whole, rooted⟩ :=
    rooted_of_synthesize apart known before (whole_start s timeout) ran
  have step := (Synthesizer.run_synthesize apart known before ran).1
  have completed (t : SynthesizedType) (isIn : t ∈ session.types) : ∃ u, s.catalog.Known u ∧
      s.product u t.kind = some t ∧ Part s (fun _ => True) ⟨session, []⟩ root t ∧
        s.catalog.Wants root t.kind u := by
    obtain ⟨key, has⟩ := (lawful.listed t).1 isIn
    obtain ⟨kind, u, isKnown, rfl, made, -⟩ := lawful.exists_product has
    have makes : s.Makes root (s.keyOf kind u) :=
      (step.made_or ⟨t, has⟩).resolve_left not_made_start
    obtain ⟨part, wants⟩ := part_of_makes apart lawful whole rfl rooted isKnown made makes
    obtain rfl := (Synthesizer.product_facts made).1
    exact ⟨u, isKnown, made, part, wants⟩
  have isListed (t : SynthesizedType) (part : Part s (fun _ => True) ⟨session, []⟩ root t) :
      t ∈ session.types := part.mem_types rooted lawful apart rfl
  refine ⟨?onlyWanted, ?allWanted, ?once, ?wrappers, ?mentions, ?standalone⟩
  case onlyWanted =>
    intro t isIn
    obtain ⟨u, isKnown, made, -, wants⟩ := completed t isIn
    obtain ⟨-, isNamed, isSource⟩ := Synthesizer.product_facts made
    exact ⟨u, isKnown, isSource, isNamed, wants⟩
  case allWanted =>
    intro kind u _ wants
    obtain ⟨t, isIn, made⟩ := exists_of_wants apart lawful whole rfl rooted strict wants
    obtain ⟨isKind, isNamed, isSource⟩ := Synthesizer.product_facts made
    exact ⟨t, isIn, isKind, isSource, isNamed⟩
  case once => exact nodup_kind_source lawful
  case wrappers => exact fun t isIn => isListed t (rooted.part_of_mem_wrappers t isIn)
  case mentions =>
    intro t isIn name isMention
    obtain ⟨u, -, -, part, -⟩ := completed t isIn
    refine (part.of_mentioned rooted plain isMention).imp_right ?_
    rintro ⟨t', part', isNamed⟩
    exact ⟨t', isListed t' part', isNamed⟩
  case standalone =>
    intro unlike metadata artifact lowered
    obtain ⟨definitions, types, rfl, -⟩ := Lowering.of_lower lowered
    have distinct := (Lowering.nodup_of_lowerTypes types).1
    refine if_pos (isClosed_of_parts plain strict rooted ?_ isListed distinct unlike)
    intro t isIn
    obtain ⟨-, -, -, part, -⟩ := completed t (Session.mem_closure.1 isIn).1
    exact part

def parcel : SourceType where
  name := ⟨"Post", "Parcel"⟩
  members := [{ name := "Size", type := .named ⟨"Post", "Size"⟩ }]

def parcelSize : SourceType where
  name := ⟨"Post", "Size"⟩
  kind := .struct
  members := [
    { name := "Parcel", type := .named ⟨"Post", "Parcel"⟩ },
    { name := "Unit", type := .named ⟨"Post", "Unit"⟩ }]

def lengthUnit : SourceType where
  name := ⟨"Post", "Unit"⟩
  kind := .enumeration .i32 []

/-- A parcel has a size, which has a unit and goes back to the parcel. -/
def post : Synthesizer where
  catalog := ⟨[parcel, parcelSize, lengthUnit], []⟩
  options := {}

/-- The session that has synthesized the parcel. -/
def posted : Session := (run (Session.start 1) (post.synthesize parcel)).2

def parcelNames : List TypeName :=
  [⟨"Post", "IParcel"⟩, ⟨"Post", "ParcelProxy"⟩, ⟨"Post", "FluentParcel"⟩]

theorem reachWithin?_posted : reachWithin? posted.types 20 parcelNames [] = some
    (⟨"Post", "FluentParcel"⟩ :: ⟨"Post", "ParcelProxy"⟩ :: ⟨"Post", "Unit"⟩ ::
      ⟨"Post", "Size"⟩ :: [⟨"Post", "IParcel"⟩]) := by
  decide +kernel

theorem synthesize_fulfilled_post :
    (∀ t ∈ post.catalog.types, t.name.Dotless) ∧ post.catalog.Unsynthesized ∧
      post.catalog.Known parcel ∧
      (run (Session.start 1) (post.synthesize parcel)).1 = .ok (some (post.wrappersOf parcel)) ∧
      (∃ t ∈ posted.types, t.kind = .structClone ∧ t.name = ⟨"Post", "Size"⟩) ∧
      (∃ t ∈ posted.types, t.kind = .enumClone ∧ t.name = ⟨"Post", "Unit"⟩) ∧
      ∃ artifact, Lowering.lower (Lowering.runtimeNames post.catalog) {}
          (posted.closure parcelNames) = .ok artifact ∧
        artifact.flags = ArtifactFlag.standalone := by
  have dotless : ∀ t ∈ post.catalog.types, t.name.Dotless := by decide +kernel
  have plain : post.catalog.Unsynthesized := by decide +kernel
  have known : post.catalog.Known parcel := by unfold SourceCatalog.Known; decide +kernel
  have succeeds : (run (Session.start 1) (post.synthesize parcel)).1 =
      .ok (some (post.wrappersOf parcel)) := by decide +kernel
  obtain ⟨-, wanted, -, -, -, standalone⟩ :=
    synthesize_fulfilled post parcel 1 rfl rfl dotless plain known _ succeeds
  have lowers : (Lowering.lower (Lowering.runtimeNames post.catalog) {}
      (posted.closure parcelNames)).isOk = true := by
    rw [Session.closure_of_reachWithin? reachWithin?_posted]
    decide +kernel
  have size : post.catalog.get? ⟨"Post", "Size"⟩ = some parcelSize := by decide +kernel
  have unit : post.catalog.get? ⟨"Post", "Unit"⟩ = some lengthUnit := by decide +kernel
  have ofParcel : post.catalog.extract parcel = .ok parcel.members := by decide +kernel
  have ofSize : post.catalog.extract parcelSize = .ok parcelSize.members := by decide +kernel
  have hasSize : post.catalog.EligibleMember parcel parcel.members[0] :=
    ⟨_, ofParcel, List.getElem_mem _⟩
  have hasUnit : post.catalog.EligibleMember parcelSize parcelSize.members[1] :=
    ⟨_, ofSize, List.getElem_mem _⟩
  have refers : post.catalog.Refers parcel parcelSize :=
    ⟨⟨rfl, nofun⟩, parcel.members[0], hasSize, _, List.mem_cons_self, size⟩
  have wantsSize : post.catalog.Wants parcel .structClone parcelSize :=
    Or.inr ⟨⟨parcel, _, Relation.ReflTransGen.refl, hasSize, _, List.mem_cons_self, size⟩,
      Or.inl ⟨⟨rfl, nofun⟩, Or.inr (Or.inr ⟨rfl, rfl⟩)⟩⟩
  have wantsUnit : post.catalog.Wants parcel .enumClone lengthUnit :=
    Or.inr ⟨⟨parcelSize, _, Relation.ReflTransGen.single refers, hasUnit, _, List.mem_cons_self,
      unit⟩, Or.inr ⟨rfl, _, _, rfl⟩⟩
  obtain ⟨clone, isIn, isClone, -, isNamed⟩ := wanted .structClone parcelSize size wantsSize
  obtain ⟨enum, isIn', isEnum, -, isNamed'⟩ := wanted .enumClone lengthUnit unit wantsUnit
  refine ⟨dotless, plain, known, succeeds, ⟨clone, isIn, isClone, isNamed⟩,
    ⟨enum, isIn', isEnum, isNamed'⟩, ?_⟩
  cases lowered : Lowering.lower (Lowering.runtimeNames post.catalog) {}
      (posted.closure parcelNames) with
  | error e =>
    rw [lowered] at lowers
    cases lowers
  | ok artifact =>
    have unlike : ∀ t ∈ posted.types, t.canonical ≠ rootObject := by decide +kernel
    exact ⟨artifact, rfl, standalone unlike {} artifact lowered⟩

end Synthesis

end FluentWrappers
