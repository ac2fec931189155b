import FluentWrappers.Proofs.Synthesis.Product

/-!
# Lawful progress

Whatever a session was asked for before, with success or without, the keys in progress are those in
the scope, and every other bound key is complete with the product of its source type. If a type was
made of the members of a stable source type, all keys for what its members mention are bound. A source
type is stable if no production from its members can fail, so these keys are never given free again.

Some of the completed keys may be set aside as old. Of what stands behind them nothing is said.
-/

namespace FluentWrappers.Synthesis

open Fallible

/-! ### Stable source types -/

namespace Synthesizer

/-- Not all keys for a mention of the source type are old. -/
def Open (s : Synthesizer) (old : CacheKey → Prop) (u : SourceType) : Prop :=
  ∃ key ∈ s.mentionKeys u, ¬ old key

def RefersAnew (s : Synthesizer) (old : CacheKey → Prop) (t u : SourceType) : Prop :=
  s.catalog.Refers t u ∧ s.Open old u

/-- No bad member is reached through types that are open. -/
def Clean (s : Synthesizer) (old : CacheKey → Prop) (u : SourceType) : Prop :=
  ∀ t m, Relation.ReflTransGen (s.RefersAnew old) u t → ¬ s.catalog.BadMember t m

/-- The type has eligible members and, where failures end everything, is clean. -/
def Stable (s : Synthesizer) (old : CacheKey → Prop) (u : SourceType) : Prop :=
  s.hasMembers u = true ∧ (s.Strict → s.Clean old u)

/-- A production from the members of the type may fail. -/
def Blocked (s : Synthesizer) (old : CacheKey → Prop) (u : SourceType) : Prop :=
  s.catalog.extract u ≠ .ok [] ∧ ¬ s.Stable old u

variable {s : Synthesizer} {old : CacheKey → Prop} {u v : SourceType}

theorem Clean.step (clean : s.Clean old u) (refers : s.RefersAnew old u v) : s.Clean old v :=
  fun t m path => clean t m (path.head refers)

theorem Needs.known (needs : s.Needs u v) : s.catalog.Known v := by
  obtain ⟨name, -, found⟩ := needs
  exact SourceCatalog.known_of_get? found

theorem exists_member_of_memberNeeds {name : TypeName} (isIn : name ∈ s.memberNeeds u) :
    s.options.dereference = true ∧
      ∃ m, s.catalog.EligibleMember u m ∧ name ∈ s.needs m.type := by
  cases on : s.options.dereference with
  | false =>
    rw [memberNeeds_of_no_dereference on] at isIn
    exact absurd isIn List.not_mem_nil
  | true =>
    cases found : s.catalog.extract u with
    | error e =>
      unfold memberNeeds at isIn
      rw [found] at isIn
      exact absurd isIn List.not_mem_nil
    | ok members =>
      rw [memberNeeds_eq found on, List.mem_flatMap] at isIn
      obtain ⟨m, isMember, isIn⟩ := isIn
      exact ⟨rfl, m, ⟨members, found, isMember⟩, isIn⟩

theorem Needs.refers (needs : s.Needs u v) (foreign : v.Foreign) : s.catalog.Refers u v := by
  obtain ⟨name, isIn, found⟩ := needs
  obtain ⟨-, m, eligible, isIn⟩ := exists_member_of_memberNeeds isIn
  exact ⟨foreign, m, eligible, name, s.needs_subset m.type isIn, found⟩

theorem Needs.hasMembers (needs : s.Needs u v) (foreign : v.Foreign) : s.hasMembers v = true := by
  obtain ⟨name, isIn, found⟩ := needs
  obtain ⟨-, m, -, isIn⟩ := exists_member_of_memberNeeds isIn
  have image := namedImage?_of_needs m.type isIn
  rw [namedImage?_eq found, sourceImage?_foreign foreign] at image
  simpa using image

theorem Stable.needs (stable : s.Stable old u) (needs : s.Needs u v) (foreign : v.Foreign)
    (isOpen : s.Open old v) : s.Stable old v :=
  ⟨needs.hasMembers foreign, fun strict =>
    (stable.2 strict).step ⟨needs.refers foreign, isOpen⟩⟩

end Synthesizer

variable {s : Synthesizer} {old within within' : CacheKey → Prop} {p q r : Progress}
  {key other : CacheKey} {kind : ProductKind} {t u v : SourceType}

/-! ### Completed keys -/

/-- The key is complete with the type. -/
def Progress.Has (p : Progress) (key : CacheKey) (type : SynthesizedType) : Prop :=
  ∃ serial, p.cache.stateOf? key = some (.complete (some ⟨serial, type⟩))

def Progress.Made (p : Progress) (key : CacheKey) : Prop := ∃ type, p.Has key type

theorem Progress.Made.bound (made : p.Made key) : p.Bound key := by
  obtain ⟨type, serial, state⟩ := made
  exact bound_of_state state

/-- A production of the kind from the source type may end with the result. -/
structure IsProduct (s : Synthesizer) (kind : ProductKind) (u : SourceType)
    (result : Option SynthesizedType) : Prop where
  eq_product : result = s.product u kind
  empty : result = none → s.catalog.extract u = .ok []
  images : s.Strict → result ≠ none → kind ≠ .enumClone →
    ∀ m, s.catalog.EligibleMember u m → s.image? m.type ≠ none

/-- All eligible members have been looked into: the keys for what they mention are bound, and where
failures end everything, something stands for each of their types. -/
def Supplied (s : Synthesizer) (p : Progress) (u : SourceType) : Prop :=
  (s.Strict → ∀ m, s.catalog.EligibleMember u m → s.image? m.type ≠ none) ∧
    ∀ v, s.Needs u v → ∀ key ∈ s.mentionKeys v, p.Bound key

theorem Supplied.mono (bound : ∀ key, p.Bound key → q.Bound key) (h : Supplied s p u) :
    Supplied s q u :=
  ⟨h.1, fun v needs key isKey => bound key (h.2 v needs key isKey)⟩

/-! ### Lawful progress -/

structure Lawful (s : Synthesizer) (old : CacheKey → Prop) (p : Progress) : Prop where
  running : p.cache.cancelled = false
  tidy : p.cache.Tidy
  distinct : p.scope.Nodup
  pending : ∀ key ∈ p.scope, p.cache.stateOf? key = some (.inProgress 0)
  settled : ∀ key state, p.cache.stateOf? key = some state → key ∉ p.scope →
    ∃ kind u result, s.catalog.Known u ∧ key = s.keyOf kind u ∧ state = .complete result ∧
      IsProduct s kind u (result.map (·.type))
  listed : ∀ type, type ∈ p.cache.types ↔ ∃ key, p.Has key type
  once : (p.cache.types.map SynthesizedType.key).Nodup
  aside : ∀ key, old key → p.Made key
  supplied : ∀ u key, s.catalog.Known u → key ∈ s.memberKeys u → p.Made key → ¬ old key →
    s.Stable old u → Supplied s p u

/-- Whatever was made of the members of a source type, unless it is old, the type is supplied. -/
def Whole (s : Synthesizer) (old : CacheKey → Prop) (p : Progress) : Prop :=
  ∀ u key, s.catalog.Known u → key ∈ s.memberKeys u → p.Made key → ¬ old key → Supplied s p u

/-- No keys are old. -/
abbrev noKey (_ : CacheKey) : Prop := False

theorem lawful_start (s : Synthesizer) (timeout : UInt64) :
    Lawful s noKey ⟨Session.start timeout, []⟩ where
  running := rfl
  tidy := Cache.tidy_empty timeout
  distinct := List.nodup_nil
  pending _ isIn := absurd isIn List.not_mem_nil
  settled _ _ state := nomatch state
  listed type := by
    refine iff_of_false List.not_mem_nil ?_
    rintro ⟨key, serial, state⟩
    cases state
  once := List.nodup_nil
  aside _ isOld := isOld.elim
  supplied _ _ _ _ made := by
    obtain ⟨type, serial, state⟩ := made
    cases state

theorem whole_start (s : Synthesizer) (timeout : UInt64) :
    Whole s noKey ⟨Session.start timeout, []⟩ := by
  rintro u key - - ⟨type, serial, state⟩
  cases state

theorem Lawful.bound_of_scope (lawful : Lawful s old p) (isIn : key ∈ p.scope) : p.Bound key :=
  bound_of_state (lawful.pending key isIn)

theorem Lawful.not_made_of_scope (lawful : Lawful s old p) (isIn : key ∈ p.scope) :
    ¬ p.Made key := by
  rintro ⟨type, serial, state⟩
  rw [lawful.pending key isIn] at state
  cases state

theorem Lawful.not_old_of_free (lawful : Lawful s old p) (free : p.cache.slotOf? key = none) :
    ¬ old key :=
  fun isOld => (lawful.aside key isOld).bound.ne free rfl

theorem keyOf_inj (apart : s.Apart) {kind' : ProductKind} (known : s.catalog.Known u)
    (known' : s.catalog.Known v) (same : s.keyOf kind u = s.keyOf kind' v) :
    kind = kind' ∧ u = v := by
  obtain rfl : kind = kind' := congrArg CacheKey.kind same
  exact ⟨rfl, apart kind u v known known' same⟩

/-- A key that is bound and not in progress is complete with the product of its source type. -/
theorem Lawful.complete (lawful : Lawful s old p) (apart : s.Apart) (known : s.catalog.Known u)
    (bound : p.Bound (s.keyOf kind u)) (idle : s.keyOf kind u ∉ p.scope) :
    ∃ result, p.cache.stateOf? (s.keyOf kind u) = some (.complete result) ∧
      IsProduct s kind u (result.map (·.type)) := by
  obtain ⟨slot, bound⟩ := bound
  obtain ⟨state, -, isState⟩ := lawful.tidy.exists_state bound
  obtain ⟨kind', u', result, known', same, rfl, product⟩ := lawful.settled _ state isState idle
  obtain ⟨rfl, rfl⟩ := keyOf_inj apart known known' same
  exact ⟨result, isState, product⟩

theorem Lawful.has_product (lawful : Lawful s old p) (apart : s.Apart) {type : SynthesizedType}
    (known : s.catalog.Known u) (has : p.Has (s.keyOf kind u) type) :
    s.product u kind = some type := by
  obtain ⟨serial, state⟩ := has
  have idle : s.keyOf kind u ∉ p.scope := fun isIn =>
    lawful.not_made_of_scope isIn ⟨type, serial, state⟩
  obtain ⟨result, complete, product⟩ :=
    lawful.complete apart known (bound_of_state state) idle
  rw [complete] at state
  cases state
  exact product.eq_product.symm

theorem Lawful.exists_product (lawful : Lawful s old p) {type : SynthesizedType}
    (has : p.Has key type) : ∃ kind u, s.catalog.Known u ∧ key = s.keyOf kind u ∧
      s.product u kind = some type ∧ type.key = key := by
  obtain ⟨serial, state⟩ := has
  have idle : key ∉ p.scope := fun isIn => lawful.not_made_of_scope isIn ⟨type, serial, state⟩
  obtain ⟨kind, u, result, known, rfl, complete, product⟩ := lawful.settled key _ state idle
  cases complete
  have made : s.product u kind = some type := product.eq_product.symm
  exact ⟨kind, u, known, rfl, made, Synthesizer.key_of_product made⟩

/-- Types of the kind are made of the members of their source type at once. -/
def ProductKind.OfMembers (kind : ProductKind) : Prop :=
  kind = .interface ∨ kind = .proxy ∨ kind = .structClone

theorem ProductKind.OfMembers.ne_enumClone (h : kind.OfMembers) : kind ≠ .enumClone := by
  rcases h with rfl | rfl | rfl <;> exact nofun

theorem ProductKind.OfMembers.ne_fluent (h : kind.OfMembers) : kind ≠ .fluent := by
  rcases h with rfl | rfl | rfl <;> exact nofun

theorem mem_memberKeys_iff : key ∈ s.memberKeys u ↔
    ∃ kind : ProductKind, kind.OfMembers ∧ key = s.keyOf kind u := by
  rw [Synthesizer.mem_memberKeys]
  constructor
  · rintro (rfl | rfl | rfl)
    · exact ⟨.interface, Or.inl rfl, rfl⟩
    · exact ⟨.proxy, Or.inr (Or.inl rfl), rfl⟩
    · exact ⟨.structClone, Or.inr (Or.inr rfl), rfl⟩
  · rintro ⟨kind, rfl | rfl | rfl, rfl⟩
    · exact Or.inl rfl
    · exact Or.inr (Or.inl rfl)
    · exact Or.inr (Or.inr rfl)

theorem Lawful.hasMembers_of_made (lawful : Lawful s old p) (apart : s.Apart)
    (known : s.catalog.Known u) (isKey : key ∈ s.memberKeys u) (made : p.Made key) :
    s.hasMembers u = true := by
  obtain ⟨kind, isKind, rfl⟩ := mem_memberKeys_iff.1 isKey
  obtain ⟨type, has⟩ := made
  have product := lawful.has_product apart known has
  exact Synthesizer.hasMembers_of_product product isKind.ne_enumClone

/-- Where failures do not end everything, lawful progress is whole. -/
theorem Lawful.whole (lawful : Lawful s old p) (apart : s.Apart) (lenient : ¬ s.Strict) :
    Whole s old p := by
  intro u key known isKey made fresh
  have some := lawful.hasMembers_of_made apart known isKey made
  exact lawful.supplied u key known isKey made fresh ⟨some, fun strict => absurd strict lenient⟩

/-! ### Beginning a production -/

theorem stateOf?_enter_of_ne (tidy : p.cache.Tidy) (free : p.cache.slotOf? key = none)
    (ne : other ≠ key) : (p.enter key).cache.stateOf? other = p.cache.stateOf? other :=
  Cache.stateOf?_claim_of_ne tidy.toSound free ne

theorem stateOf?_enter_self (free : p.cache.slotOf? key = none) :
    (p.enter key).cache.stateOf? key = some (.inProgress 0) :=
  Cache.stateOf?_claim_self free

theorem has_enter_iff (tidy : p.cache.Tidy) (free : p.cache.slotOf? key = none)
    {type : SynthesizedType} : (p.enter key).Has other type ↔ p.Has other type := by
  unfold Progress.Has
  by_cases same : other = key
  · subst same
    rw [stateOf?_enter_self free, Cache.stateOf?_eq_none free]
    simp
  · rw [stateOf?_enter_of_ne tidy free same]

theorem made_enter_iff (tidy : p.cache.Tidy) (free : p.cache.slotOf? key = none) :
    (p.enter key).Made other ↔ p.Made other :=
  exists_congr fun _ => has_enter_iff tidy free

theorem Lawful.enter (lawful : Lawful s old p) (free : p.cache.slotOf? key = none) :
    Lawful s old (p.enter key) := by
  have kept {other : CacheKey} (different : other ≠ key) :=
    stateOf?_enter_of_ne lawful.tidy free different
  constructor
  case running =>
    show (p.cache.claim 0 key).1.cancelled = false
    rw [Cache.claim_free free]
    exact lawful.running
  case tidy => exact lawful.tidy.claim free
  case distinct =>
    show (key :: p.scope).Nodup
    have idle : key ∉ p.scope := fun isIn => (lawful.bound_of_scope isIn).ne free rfl
    exact List.nodup_cons.2 ⟨idle, lawful.distinct⟩
  case pending =>
    intro other isIn
    rcases List.mem_cons.1 isIn with rfl | isIn
    · exact stateOf?_enter_self free
    · rw [kept ((lawful.bound_of_scope isIn).ne free)]
      exact lawful.pending other isIn
  case settled =>
    intro other state isState idle
    obtain ⟨different, idle⟩ := not_or.1 (mt List.mem_cons.2 idle)
    rw [kept different] at isState
    exact lawful.settled other state isState idle
  case listed =>
    intro type
    have types : (p.enter key).cache.types = p.cache.types := by
      show (p.cache.claim 0 key).1.types = _
      rw [Cache.claim_free free]
    rw [types, lawful.listed]
    exact exists_congr fun _ => (has_enter_iff lawful.tidy free).symm
  case once =>
    show ((p.cache.claim 0 key).1.types.map SynthesizedType.key).Nodup
    rw [Cache.claim_free free]
    exact lawful.once
  case aside => exact fun other isOld => (made_enter_iff lawful.tidy free).2 (lawful.aside other isOld)
  case supplied =>
    intro u other known isKey made fresh stable
    have before := (made_enter_iff lawful.tidy free).1 made
    exact (lawful.supplied u other known isKey before fresh stable).mono fun _ => bound_enter free

theorem Whole.enter (whole : Whole s old p) (tidy : p.cache.Tidy)
    (free : p.cache.slotOf? key = none) : Whole s old (p.enter key) := by
  intro u other known isKey made fresh
  have before := (made_enter_iff tidy free).1 made
  exact (whole u other known isKey before fresh).mono fun _ => bound_enter free

/-! ### Closing a production -/

/-- The key of the latest production is no longer in the scope, and all others are as they were. -/
structure Closes (q r : Progress) (key : CacheKey) : Prop where
  scope : q.scope = key :: r.scope
  kept : ∀ other, other ≠ key → r.cache.stateOf? other = q.cache.stateOf? other

section

variable (lawful : Lawful s old q) (closes : Closes q r key)

include lawful closes

theorem Closes.pending : key ∈ q.scope ∧ r.scope.Nodup ∧
    ∀ other ∈ r.scope, r.cache.stateOf? other = some (.inProgress 0) := by
  have distinct := lawful.distinct
  rw [closes.scope, List.nodup_cons] at distinct
  refine ⟨closes.scope ▸ List.mem_cons_self, distinct.2, fun other isIn => ?_⟩
  have different : other ≠ key := by
    rintro rfl
    exact distinct.1 isIn
  rw [closes.kept other different]
  exact lawful.pending other (closes.scope ▸ List.mem_cons_of_mem key isIn)

theorem Closes.settled {state : SlotState} (different : other ≠ key)
    (isState : r.cache.stateOf? other = some state) (idle : other ∉ r.scope) :
    ∃ kind u result, s.catalog.Known u ∧ other = s.keyOf kind u ∧ state = .complete result ∧
      IsProduct s kind u (result.map (·.type)) := by
  rw [closes.kept other different] at isState
  refine lawful.settled other state isState ?_
  rw [closes.scope]
  exact List.not_mem_cons_of_ne_of_not_mem different idle

theorem Closes.has {type : SynthesizedType} (before : q.Has other type) : r.Has other type := by
  -- nothing is made under the key of a production before it ends
  have different : other ≠ key := by
    rintro rfl
    exact lawful.not_made_of_scope (closes.pending lawful).1 ⟨type, before⟩
  obtain ⟨serial, isState⟩ := before
  exact ⟨serial, (closes.kept other different).trans isState⟩

theorem Closes.aside (isOld : old other) : r.Made other := by
  obtain ⟨type, before⟩ := lawful.aside other isOld
  exact ⟨type, closes.has lawful before⟩

end

/-! ### Ending a production -/

section

variable {rest : List CacheKey} {slot : Nat} {made : Option SynthesizedType} {e : SynthesisError}

theorem stateOf?_leave_of_ne (tidy : q.cache.Tidy) (bound : q.cache.slotOf? key = some slot)
    (ne : other ≠ key) : (q.leave slot made).cache.stateOf? other = q.cache.stateOf? other :=
  Cache.stateOf?_publish_of_ne tidy.toSound bound ne

theorem stateOf?_leave_self (tidy : q.cache.Tidy) (bound : q.cache.slotOf? key = some slot) :
    (q.leave slot made).cache.stateOf? key =
      some (.complete (made.map fun type => ⟨q.cache.types.length, type⟩)) :=
  Cache.stateOf?_publish_self tidy.toSound bound made

theorem has_leave_iff (tidy : q.cache.Tidy) (bound : q.cache.slotOf? key = some slot)
    {type : SynthesizedType} : (q.leave slot made).Has other type ↔
      other = key ∧ made = some type ∨ other ≠ key ∧ q.Has other type := by
  unfold Progress.Has
  by_cases same : other = key
  · subst same
    rw [stateOf?_leave_self tidy bound]
    cases made <;> simp [eq_comm]
  · rw [stateOf?_leave_of_ne tidy bound same]
    simp [same]

theorem closes_leave (tidy : q.cache.Tidy) (latest : q.scope = key :: rest)
    (bound : q.cache.slotOf? key = some slot) : Closes q (q.leave slot made) key where
  scope := by
    show q.scope = key :: q.scope.tail
    rw [latest]
    rfl
  kept _ different := stateOf?_leave_of_ne tidy bound different

theorem Lawful.once_leave (lawful : Lawful s old q) (pending : key ∈ q.scope)
    (isKey : key = s.keyOf kind u) (product : IsProduct s kind u made) :
    ((q.cache.types ++ made.toList).map SynthesizedType.key).Nodup := by
  cases isMade : made with
  | none => simpa using lawful.once
  | some type =>
    have isNew : type.key ∉ q.cache.types.map SynthesizedType.key := by
      intro isIn
      obtain ⟨twin, isListed, sameKey⟩ := List.mem_map.1 isIn
      obtain ⟨other, has⟩ := (lawful.listed twin).1 isListed
      obtain ⟨-, -, -, -, -, isKey'⟩ := lawful.exists_product has
      have ofType : type.key = s.keyOf kind u :=
        Synthesizer.key_of_product (product.eq_product.symm.trans isMade)
      have same : other = key := by rw [← isKey', sameKey, ofType, isKey]
      exact lawful.not_made_of_scope pending ⟨twin, same ▸ has⟩
    show ((q.cache.types ++ [type]).map SynthesizedType.key).Nodup
    rw [List.map_append, List.map_singleton, ← List.concat_eq_append]
    exact lawful.once.concat isNew

theorem Lawful.leave (lawful : Lawful s old q) (apart : s.Apart) (latest : q.scope = key :: rest)
    (bound : q.cache.slotOf? key = some slot) (known : s.catalog.Known u)
    (isKey : key = s.keyOf kind u) (product : IsProduct s kind u made)
    (supplied : key ∈ s.memberKeys u → made ≠ none → Supplied s q u) :
    Lawful s old (q.leave slot made) := by
  have closes : Closes q (q.leave slot made) key := closes_leave lawful.tidy latest bound
  obtain ⟨isPending, distinct, pending⟩ := closes.pending lawful
  constructor
  case running => exact lawful.running
  case tidy => exact lawful.tidy.publish
  case distinct => exact distinct
  case pending => exact pending
  case settled =>
    intro other state isState idle
    by_cases same : other = key
    · subst same
      rw [stateOf?_leave_self lawful.tidy bound] at isState
      obtain rfl := Option.some.inj isState
      refine ⟨kind, u, _, known, isKey, rfl, ?_⟩
      cases made <;> exact product
    · exact closes.settled lawful same isState idle
  case listed =>
    intro type
    show type ∈ q.cache.types ++ made.toList ↔ _
    rw [List.mem_append, lawful.listed, Option.mem_toList]
    constructor
    · rintro (⟨other, has⟩ | rfl)
      · exact ⟨other, closes.has lawful has⟩
      · exact ⟨key, (has_leave_iff lawful.tidy bound).2 (Or.inl ⟨rfl, rfl⟩)⟩
    · rintro ⟨other, has⟩
      rcases (has_leave_iff lawful.tidy bound).1 has with ⟨-, isMade⟩ | ⟨-, before⟩
      · exact Or.inr isMade
      · exact Or.inl ⟨other, before⟩
  case once => exact lawful.once_leave isPending isKey product
  case aside => exact fun other isOld => closes.aside lawful isOld
  case supplied =>
    rintro v other known' isMemberKey ⟨type, has⟩ fresh stable
    rcases (has_leave_iff lawful.tidy bound).1 has with ⟨rfl, isMade⟩ | ⟨-, before⟩
    · obtain ⟨kind', -, same⟩ := mem_memberKeys_iff.1 isMemberKey
      obtain ⟨rfl, rfl⟩ := keyOf_inj apart known known' (isKey.symm.trans same)
      exact (supplied isMemberKey (isMade ▸ Option.some_ne_none type)).mono fun _ => id
    · exact (lawful.supplied v other known' isMemberKey ⟨type, before⟩ fresh stable).mono
        fun _ => id

theorem Whole.leave (whole : Whole s old q) (tidy : q.cache.Tidy) (apart : s.Apart)
    (bound : q.cache.slotOf? key = some slot) (known : s.catalog.Known u)
    (isKey : key = s.keyOf kind u)
    (supplied : key ∈ s.memberKeys u → made ≠ none → Supplied s q u) :
    Whole s old (q.leave slot made) := by
  rintro v other known' isMemberKey ⟨type, has⟩ fresh
  rcases (has_leave_iff tidy bound).1 has with ⟨rfl, isMade⟩ | ⟨-, before⟩
  · obtain ⟨kind', -, same⟩ := mem_memberKeys_iff.1 isMemberKey
    obtain ⟨rfl, rfl⟩ := keyOf_inj apart known known' (isKey.symm.trans same)
    exact (supplied isMemberKey (isMade ▸ Option.some_ne_none type)).mono fun _ => id
  · exact (whole v other known' isMemberKey ⟨type, before⟩ fresh).mono fun _ => id

/-! ### Giving up a production -/

/-- No stable type has members that mention a source type with this key. -/
def Loose (s : Synthesizer) (old : CacheKey → Prop) (key : CacheKey) : Prop :=
  ∀ u v, s.Stable old u → s.Needs u v → key ∉ s.mentionKeys v

/-- A type that is not stable is not looked into for a stable one. -/
theorem loose_of_not_stable (apart : s.Apart) (known : s.catalog.Known u)
    (isKey : key ∈ s.memberKeys u) (fresh : ¬ old key) (unstable : ¬ s.Stable old u) :
    Loose s old key := by
  intro t v stable needs isIn
  rcases Synthesizer.of_mem_mentionKeys isIn with ⟨rfl, -⟩ | ⟨foreign, isKey'⟩
  · obtain ⟨kind, isKind, same⟩ := mem_memberKeys_iff.1 isKey
    exact absurd (congrArg CacheKey.kind same).symm isKind.ne_enumClone
  · obtain rfl := apart.of_memberKeys known needs.known isKey isKey'
    exact unstable (stable.needs needs foreign ⟨key, isIn, fresh⟩)

theorem loose_of_fluent (isFluent : key.kind = .fluent) : Loose s old key := by
  intro t v _ _ isIn
  rcases Synthesizer.of_mem_mentionKeys isIn with ⟨rfl, -⟩ | ⟨-, isKey⟩
  · cases isFluent
  · obtain ⟨kind, isKind, rfl⟩ := mem_memberKeys_iff.1 isKey
    exact absurd isFluent isKind.ne_fluent

theorem slotOf?_abandon_of_ne (tidy : q.cache.Tidy) (bound : q.cache.slotOf? key = some slot)
    (ne : other ≠ key) :
    (q.abandon key slot e).cache.slotOf? other = q.cache.slotOf? other := by
  show (q.cache.release key slot e.message).slotOf? other = _
  rw [tidy.slotOf?_release bound, if_neg ne]

theorem stateOf?_abandon_of_ne (tidy : q.cache.Tidy) (bound : q.cache.slotOf? key = some slot)
    (ne : other ≠ key) :
    (q.abandon key slot e).cache.stateOf? other = q.cache.stateOf? other :=
  tidy.stateOf?_release_of_ne bound ne

theorem has_abandon_iff (tidy : q.cache.Tidy) (bound : q.cache.slotOf? key = some slot)
    {type : SynthesizedType} : (q.abandon key slot e).Has other type ↔
      other ≠ key ∧ q.Has other type := by
  unfold Progress.Has
  by_cases same : other = key
  · subst same
    have free : (q.abandon other slot e).cache.stateOf? other = none :=
      tidy.stateOf?_release_self bound
    rw [free]
    simp
  · rw [stateOf?_abandon_of_ne tidy bound same]
    simp [same]

theorem closes_abandon (tidy : q.cache.Tidy) (latest : q.scope = key :: rest)
    (bound : q.cache.slotOf? key = some slot) : Closes q (q.abandon key slot e) key where
  scope := by
    show q.scope = key :: q.scope.tail
    rw [latest]
    rfl
  kept _ different := stateOf?_abandon_of_ne tidy bound different

theorem Lawful.abandon (lawful : Lawful s old q) (latest : q.scope = key :: rest)
    (bound : q.cache.slotOf? key = some slot) (loose : Loose s old key) :
    Lawful s old (q.abandon key slot e) := by
  have closes : Closes q (q.abandon key slot e) key := closes_abandon lawful.tidy latest bound
  obtain ⟨-, distinct, pending⟩ := closes.pending lawful
  constructor
  case running => exact lawful.running
  case tidy => exact lawful.tidy.release bound
  case distinct => exact distinct
  case pending => exact pending
  case settled =>
    intro other state isState idle
    have different : other ≠ key := by
      rintro rfl
      rw [Progress.abandon, Progress.cache, lawful.tidy.stateOf?_release_self bound] at isState
      cases isState
    exact closes.settled lawful different isState idle
  case listed =>
    intro type
    show type ∈ q.cache.types ↔ _
    rw [lawful.listed]
    constructor
    · rintro ⟨other, before⟩
      exact ⟨other, closes.has lawful before⟩
    · rintro ⟨other, after⟩
      exact ⟨other, ((has_abandon_iff lawful.tidy bound).1 after).2⟩
  case once => exact lawful.once
  case aside => exact fun other isOld => closes.aside lawful isOld
  case supplied =>
    rintro v other known isKey ⟨type, after⟩ fresh stable
    have before := ((has_abandon_iff lawful.tidy bound).1 after).2
    obtain ⟨images, keys⟩ := lawful.supplied v other known isKey ⟨type, before⟩ fresh stable
    refine ⟨images, fun w needs another isIn => ?_⟩
    have different : another ≠ key := by
      rintro rfl
      exact loose v w stable needs isIn
    obtain ⟨anotherSlot, anotherBound⟩ := keys w needs another isIn
    exact ⟨anotherSlot, (slotOf?_abandon_of_ne lawful.tidy bound different).trans anotherBound⟩

end

/-! ### Steps -/

/-- From one progress to a lawful one: the scope is the same, what was bound keeps its slot and its
state, and all that is new lies within the given keys. -/
structure Step (s : Synthesizer) (old within : CacheKey → Prop) (p q : Progress) : Prop where
  lawful : Lawful s old q
  scope : q.scope = p.scope
  slots : ∀ key slot, p.cache.slotOf? key = some slot → q.cache.slotOf? key = some slot
  kept : ∀ key, p.Bound key → q.cache.stateOf? key = p.cache.stateOf? key
  fresh : ∀ key, q.Made key → p.Bound key ∨ within key

theorem Step.refl (lawful : Lawful s old p) : Step s old within p p where
  lawful := lawful
  scope := rfl
  slots _ _ bound := bound
  kept _ _ := rfl
  fresh _ made := Or.inl made.bound

theorem Step.mono (step : Step s old within p q) (more : ∀ key, q.Made key → within key → within' key) :
    Step s old within' p q :=
  { step with fresh := fun key made => (step.fresh key made).imp id (more key made) }

theorem Step.weaken (step : Step s old within p q) (more : ∀ key, within key → within' key) :
    Step s old within' p q :=
  step.mono fun key _ => more key

theorem Step.grows (step : Step s old within p q) : Grows p q := ⟨step.scope, step.slots⟩

theorem Step.bound (step : Step s old within p q) (bound : p.Bound key) : q.Bound key :=
  step.grows.bound bound

theorem Step.trans (first : Step s old within p q) (second : Step s old within q r) :
    Step s old within p r where
  lawful := second.lawful
  scope := second.scope.trans first.scope
  slots key slot bound := second.slots key slot (first.slots key slot bound)
  kept key bound := (second.kept key (first.bound bound)).trans (first.kept key bound)
  fresh key made := by
    rcases second.fresh key made with bound | isNew
    · obtain ⟨type, serial, state⟩ := made
      rw [second.kept key bound] at state
      exact first.fresh key ⟨type, serial, state⟩
    · exact Or.inr isNew

theorem Step.room {fuel : Nat} (step : Step s old within p q) (room : Room s fuel p) :
    Room s fuel q := room.grows step.grows

theorem Step.made (step : Step s old within p q) (made : p.Made key) : q.Made key := by
  have bound := made.bound
  obtain ⟨type, serial, state⟩ := made
  exact ⟨type, serial, (step.kept key bound).trans state⟩

theorem Step.made_or (step : Step s old within p q) (made : q.Made key) :
    p.Made key ∨ within key := by
  rcases step.fresh key made with bound | isNew
  · obtain ⟨type, serial, state⟩ := made
    rw [step.kept key bound] at state
    exact Or.inl ⟨type, serial, state⟩
  · exact Or.inr isNew

section

variable {made : Option SynthesizedType} {e : SynthesisError}

theorem Step.leave (step : Step s old within (p.enter key) q) (free : p.cache.slotOf? key = none)
    (lawful : Lawful s old p) (after : Lawful s old (q.leave p.cache.slots.length made)) :
    Step s old (fun other => other = key ∨ within other) p (q.leave p.cache.slots.length made) := by
  have bound := step.slots key _ (slotOf?_enter_self free)
  have tidy := step.lawful.tidy
  have grows : Grows p (q.leave p.cache.slots.length made) := step.grows.leave free
  constructor
  case lawful => exact after
  case scope => exact grows.scope
  case slots => exact grows.slots
  case kept =>
    intro other before
    have ne := before.ne free
    rw [stateOf?_leave_of_ne tidy bound ne, step.kept other (bound_enter free before),
      stateOf?_enter_of_ne lawful.tidy free ne]
  case fresh =>
    rintro other ⟨type, has⟩
    rcases (has_leave_iff tidy bound).1 has with ⟨rfl, -⟩ | ⟨ne, before⟩
    · exact Or.inr (Or.inl rfl)
    · rcases step.fresh other ⟨type, before⟩ with ⟨slot, entered⟩ | isNew
      · exact Or.inl ⟨slot, (slotOf?_enter_of_ne free ne).symm.trans entered⟩
      · exact Or.inr (Or.inr isNew)

theorem Step.abandon (step : Step s old within (p.enter key) q)
    (free : p.cache.slotOf? key = none) (lawful : Lawful s old p) (loose : Loose s old key) :
    Step s old within p (q.abandon key p.cache.slots.length e) := by
  have bound := step.slots key _ (slotOf?_enter_self free)
  have tidy := step.lawful.tidy
  have grows : Grows p (q.abandon key p.cache.slots.length e) := step.grows.abandon free tidy
  constructor
  case lawful => exact step.lawful.abandon step.scope bound loose
  case scope => exact grows.scope
  case slots => exact grows.slots
  case kept =>
    intro other before
    have ne := before.ne free
    rw [stateOf?_abandon_of_ne tidy bound ne, step.kept other (bound_enter free before),
      stateOf?_enter_of_ne lawful.tidy free ne]
  case fresh =>
    rintro other ⟨type, has⟩
    obtain ⟨ne, before⟩ := (has_abandon_iff tidy bound).1 has
    rcases step.fresh other ⟨type, before⟩ with ⟨slot, entered⟩ | isNew
    · exact Or.inl ⟨slot, (slotOf?_enter_of_ne free ne).symm.trans entered⟩
    · exact Or.inr isNew

/-- A production under a key that is not in the scope gives the product of the key, be it made now or
before. If it fails, then for the reason that its run gives, and no stable type needs the key. -/
theorem Lawful.ends_memoize {produce : Synth (Option SynthesizedType)}
    (within : CacheKey → Prop) (blame : Prop) (lawful : Lawful s old p) (apart : s.Apart)
    (known : s.catalog.Known u) (isKey : key = s.keyOf kind u) (idle : key ∉ p.scope)
    (loose : ¬ old key → blame → Loose s old key)
    (run : p.cache.slotOf? key = none → Lawful s old (p.enter key) →
      Ends produce (p.enter key)
        (fun made q => Step s old within (p.enter key) q ∧
          (Whole s old (p.enter key) → Whole s old q) ∧ IsProduct s kind u made ∧
          (key ∈ s.memberKeys u → made ≠ none → Supplied s q u))
        (fun e q => Step s old within (p.enter key) q ∧ e ≠ .cancelled ∧ blame)) :
    Ends (memoize key produce) p
      (fun made q => Step s old (fun other => other = key ∨ within other) p q ∧
        (Whole s old p → Whole s old q) ∧ IsProduct s kind u made ∧ q.Bound key)
      (fun e q => Step s old within p q ∧ e ≠ .cancelled ∧ blame ∧ ¬ old key) := by
  cases free : p.cache.slotOf? key with
  | some slot =>
    -- bound but not in the scope: an earlier production completed it
    have bound : p.Bound key := ⟨slot, free⟩
    subst isKey
    obtain ⟨result, complete, product⟩ := lawful.complete apart known bound idle
    exact ends_of_ok (memoize_complete lawful.running complete)
      ⟨Step.refl lawful, id, product, bound⟩
  | none =>
    refine Synthesis.ends_memoize lawful.running free ((run free (lawful.enter free)).mono ?_ ?_)
    · rintro made q ⟨step, whole, product, supplied⟩
      have bound := step.slots key _ (slotOf?_enter_self free)
      have after := step.lawful.leave apart step.scope bound known isKey product supplied
      refine ⟨step.leave free lawful after, fun before => ?_, product, ⟨_, bound⟩⟩
      exact (whole (before.enter lawful.tidy free)).leave step.lawful.tidy apart bound known isKey
        supplied
    · rintro e q ⟨step, live, blamed⟩
      have fresh := lawful.not_old_of_free free
      exact ⟨step.abandon free lawful (loose fresh blamed), live, blamed, fresh⟩

end

end FluentWrappers.Synthesis
