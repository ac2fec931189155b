import FluentWrappers.Proofs.Source.References
import FluentWrappers.Proofs.Synthesis.Memoize
import FluentWrappers.Proofs.Synthesis.Naming
import FluentWrappers.Synthesis.Synthesizer
import Mathlib.Data.List.Perm.Subperm

/-!
# Orderly progress

As long as nothing fails, the keys in progress are those in the scope, and every other bound key has
a type. The proxy of a source type is complete only when all that its members mention is supported:
each foreign type has a proxy that is complete or under way. Nothing that was bound gets lost.
-/

namespace FluentWrappers.Synthesis

open Fallible

/-! ### Keys -/

namespace Synthesizer

def interfaceKey (s : Synthesizer) (u : SourceType) : CacheKey :=
  ⟨.interface, (interfaceName s.options u.name).canonical⟩

def proxyKey (s : Synthesizer) (u : SourceType) : CacheKey :=
  ⟨.proxy, (proxyName s.options u.name).canonical⟩

def cloneKey (u : SourceType) : CacheKey := ⟨.structClone, u.canonical⟩

/-- The keys under which types are made of the members of a source type. -/
def memberKeys (s : Synthesizer) (u : SourceType) : List CacheKey :=
  [s.interfaceKey u, s.proxyKey u, cloneKey u]

/-- The key is one of a source type that has eligible members. -/
def Owned (s : Synthesizer) (key : CacheKey) : Prop :=
  ∃ u, s.catalog.Known u ∧ (∃ m, s.catalog.EligibleMember u m) ∧ key ∈ s.memberKeys u

theorem mem_memberKeys {s : Synthesizer} {u : SourceType} {key : CacheKey} :
    key ∈ s.memberKeys u ↔ key = s.interfaceKey u ∨ key = s.proxyKey u ∨ key = cloneKey u := by
  simp [memberKeys]

end Synthesizer

variable {s : Synthesizer} {p q r : Progress} {key other : CacheKey} {t u : SourceType}

theorem eq_of_proxyKey (known : s.catalog.Known t) (known' : s.catalog.Known u)
    (h : s.proxyKey t = s.proxyKey u) : t = u :=
  known.eq known' (canonical_eq_of_proxyName (congrArg CacheKey.name h))

theorem interfaceKey_of_mem (h : s.interfaceKey t ∈ s.memberKeys u) :
    s.interfaceKey t = s.interfaceKey u := by
  rcases Synthesizer.mem_memberKeys.1 h with same | same | same
  · exact same
  · cases congrArg CacheKey.kind same
  · cases congrArg CacheKey.kind same

theorem proxyKey_of_mem (h : s.proxyKey t ∈ s.memberKeys u) : s.proxyKey t = s.proxyKey u := by
  rcases Synthesizer.mem_memberKeys.1 h with same | same | same
  · cases congrArg CacheKey.kind same
  · exact same
  · cases congrArg CacheKey.kind same

theorem Synthesizer.Owned.kind (h : s.Owned key) :
    key.kind = .interface ∨ key.kind = .proxy ∨ key.kind = .structClone := by
  obtain ⟨u, -, -, isKey⟩ := h
  rcases Synthesizer.mem_memberKeys.1 isKey with rfl | rfl | rfl
  · exact Or.inl rfl
  · exact Or.inr (Or.inl rfl)
  · exact Or.inr (Or.inr rfl)

/-! ### Bound keys -/

def Progress.Bound (p : Progress) (key : CacheKey) : Prop := ∃ slot, p.cache.slotOf? key = some slot

theorem Progress.Bound.ne (bound : p.Bound other) (free : p.cache.slotOf? key = none) :
    other ≠ key := by
  rintro rfl
  obtain ⟨slot, bound⟩ := bound
  rw [free] at bound
  cases bound

theorem slotOf?_enter_self (free : p.cache.slotOf? key = none) :
    (p.enter key).cache.slotOf? key = some p.cache.slots.length := by
  rw [Progress.enter, Progress.cache, Cache.slotOf?_claim free, if_pos rfl]

theorem slotOf?_enter_of_ne (free : p.cache.slotOf? key = none) (ne : other ≠ key) :
    (p.enter key).cache.slotOf? other = p.cache.slotOf? other := by
  rw [Progress.enter, Progress.cache, Cache.slotOf?_claim free, if_neg ne]

theorem bound_enter (free : p.cache.slotOf? key = none) (bound : p.Bound other) :
    (p.enter key).Bound other := by
  have kept := slotOf?_enter_of_ne free (bound.ne free)
  obtain ⟨slot, bound⟩ := bound
  exact ⟨slot, kept.trans bound⟩

/-- The scope is the same and all bound keys have kept their slots. -/
structure Grows (p q : Progress) : Prop where
  scope : q.scope = p.scope
  slots : ∀ key slot, p.cache.slotOf? key = some slot → q.cache.slotOf? key = some slot

theorem Grows.refl (p : Progress) : Grows p p := ⟨rfl, fun _ _ bound => bound⟩

theorem Grows.trans (first : Grows p q) (second : Grows q r) : Grows p r where
  scope := second.scope.trans first.scope
  slots key slot bound := second.slots key slot (first.slots key slot bound)

theorem Grows.bound (grows : Grows p q) (bound : p.Bound key) : q.Bound key := by
  obtain ⟨slot, bound⟩ := bound
  exact ⟨slot, grows.slots key slot bound⟩

section

variable (grows : Grows (p.enter key) q) (free : p.cache.slotOf? key = none)

include grows free

theorem Grows.slots_of_enter {slot : Nat} (old : p.cache.slotOf? other = some slot) :
    other ≠ key ∧ q.cache.slotOf? other = some slot := by
  have ne : other ≠ key := Progress.Bound.ne ⟨slot, old⟩ free
  exact ⟨ne, grows.slots other slot ((slotOf?_enter_of_ne free ne).trans old)⟩

theorem Grows.leave {slot : Nat} {made : Option SynthesizedType} : Grows p (q.leave slot made) where
  scope := by
    show q.scope.tail = p.scope
    rw [grows.scope]
    rfl
  slots other slot old := (grows.slots_of_enter free old).2

theorem Grows.abandon (tidy : q.cache.Tidy) {e : SynthesisError} :
    Grows p (q.abandon key p.cache.slots.length e) where
  scope := by
    show q.scope.tail = p.scope
    rw [grows.scope]
    rfl
  slots other slot old := by
    have bound := grows.slots key _ (slotOf?_enter_self free)
    obtain ⟨ne, kept⟩ := grows.slots_of_enter free old
    show (q.cache.release key p.cache.slots.length e.message).slotOf? other = some slot
    rw [tidy.slotOf?_release bound, if_neg ne]
    exact kept

end

/-! ### Supported types -/

/-- The name is known and, if its type is foreign, the proxy is made or being made. -/
def SupportsName (s : Synthesizer) (p : Progress) (name : TypeName) : Prop :=
  ∃ u, s.catalog.get? name = some u ∧ (u.Foreign → p.Bound (s.proxyKey u))

def SupportsAll (s : Synthesizer) (p : Progress) (names definitions : List TypeName) : Prop :=
  (∀ name ∈ names, SupportsName s p name) ∧
    ∀ d ∈ definitions, s.catalog.isRuntimeGeneric d = true

def Supports (s : Synthesizer) (p : Progress) (type : TypeRef) : Prop :=
  SupportsAll s p type.mentions type.definitions

/-- If the key is that of a source type's proxy, the type is one, and it supports all members. -/
def Covers (s : Synthesizer) (p : Progress) (key : CacheKey) (type : SynthesizedType) : Prop :=
  ∀ u, s.catalog.Known u → key = s.proxyKey u → type.name = proxyName s.options u.name ∧
    type.members ≠ [] ∧ ∀ m, s.catalog.EligibleMember u m → Supports s p m.type

theorem SupportsName.mono {name : TypeName} (bound : ∀ key, p.Bound key → q.Bound key)
    (h : SupportsName s p name) : SupportsName s q name := by
  obtain ⟨u, found, proxy⟩ := h
  exact ⟨u, found, fun isForeign => bound _ (proxy isForeign)⟩

theorem SupportsAll.mono {names definitions : List TypeName}
    (bound : ∀ key, p.Bound key → q.Bound key) (h : SupportsAll s p names definitions) :
    SupportsAll s q names definitions :=
  ⟨fun name isIn => (h.1 name isIn).mono bound, h.2⟩

theorem supportsAll_nil : SupportsAll s p [] [] :=
  ⟨fun _ isIn => absurd isIn List.not_mem_nil, fun _ isIn => absurd isIn List.not_mem_nil⟩

theorem SupportsAll.append {names names' definitions definitions' : List TypeName}
    (first : SupportsAll s p names definitions) (second : SupportsAll s p names' definitions') :
    SupportsAll s p (names ++ names') (definitions ++ definitions') := by
  constructor
  · intro name isIn
    exact (List.mem_append.1 isIn).elim (first.1 name) (second.1 name)
  · intro d isIn
    exact (List.mem_append.1 isIn).elim (first.2 d) (second.2 d)

theorem Covers.mono {type : SynthesizedType} (bound : ∀ key, p.Bound key → q.Bound key)
    (h : Covers s p key type) : Covers s q key type := by
  intro u known isProxy
  obtain ⟨name, members, supported⟩ := h u known isProxy
  exact ⟨name, members, fun m eligible => (supported m eligible).mono bound⟩

/-! ### Orderly progress -/

structure Orderly (s : Synthesizer) (p : Progress) : Prop where
  running : p.cache.cancelled = false
  sound : p.cache.Sound
  distinct : p.scope.Nodup
  pending : ∀ key ∈ p.scope, p.cache.stateOf? key = some (.inProgress 0)
  settled : ∀ key state, p.cache.stateOf? key = some state → key ∉ p.scope →
    ∃ c, state = .complete (some c) ∧ Covers s p key c.type
  owned : ∀ key, p.Bound key → s.Owned key ∨ key.kind = .enumClone

theorem orderly_start (s : Synthesizer) (timeout : UInt64) :
    Orderly s ⟨Session.start timeout, []⟩ where
  running := rfl
  sound := Cache.sound_empty timeout
  distinct := List.nodup_nil
  pending _ isIn := absurd isIn List.not_mem_nil
  settled _ _ state := nomatch state
  owned _ bound := nomatch bound

theorem bound_of_state {state : SlotState} (h : p.cache.stateOf? key = some state) :
    p.Bound key := by
  obtain ⟨slot, bound, -⟩ := Cache.exists_slot h
  exact ⟨slot, bound⟩

theorem Orderly.bound_of_scope (orderly : Orderly s p) (isIn : key ∈ p.scope) : p.Bound key :=
  bound_of_state (orderly.pending key isIn)

theorem Orderly.complete (orderly : Orderly s p) (bound : p.Bound key) (idle : key ∉ p.scope) :
    ∃ c, p.cache.stateOf? key = some (.complete (some c)) ∧ Covers s p key c.type := by
  obtain ⟨slot, bound⟩ := bound
  obtain ⟨state, -, isState⟩ := orderly.sound.exists_state bound
  obtain ⟨c, rfl, covers⟩ := orderly.settled key state isState idle
  exact ⟨c, isState, covers⟩

/-- A production may begin under a key that is free. -/
theorem Orderly.enter (orderly : Orderly s p) (free : p.cache.slotOf? key = none)
    (isOwned : s.Owned key ∨ key.kind = .enumClone) : Orderly s (p.enter key) := by
  have old {other : CacheKey} (different : other ≠ key) :
      (p.enter key).cache.stateOf? other = p.cache.stateOf? other :=
    Cache.stateOf?_claim_of_ne orderly.sound free different
  constructor
  case running =>
    show (p.cache.claim 0 key).1.cancelled = false
    rw [Cache.claim_free free]
    exact orderly.running
  case sound => exact orderly.sound.claim free
  case distinct =>
    show (key :: p.scope).Nodup
    have idle : key ∉ p.scope := fun isIn => (orderly.bound_of_scope isIn).ne free rfl
    exact List.nodup_cons.2 ⟨idle, orderly.distinct⟩
  case pending =>
    intro other isIn
    rcases List.mem_cons.1 isIn with rfl | isIn
    · exact Cache.stateOf?_claim_self free
    · rw [old ((orderly.bound_of_scope isIn).ne free)]
      exact orderly.pending other isIn
  case settled =>
    intro other state isState idle
    obtain ⟨different, idle⟩ := not_or.1 (mt List.mem_cons.2 idle)
    rw [old different] at isState
    obtain ⟨c, complete, covers⟩ := orderly.settled other state isState idle
    exact ⟨c, complete, covers.mono fun _ => bound_enter free⟩
  case owned =>
    intro other bound
    by_cases same : other = key
    · exact same ▸ isOwned
    · obtain ⟨slot, bound⟩ := bound
      exact orderly.owned other ⟨slot, (slotOf?_enter_of_ne free same).symm.trans bound⟩

/-- A production may end with a type that supports the members it is made of. -/
theorem Orderly.leave (orderly : Orderly s q) {rest : List CacheKey} {slot : Nat}
    {type : SynthesizedType} (latest : q.scope = key :: rest)
    (bound : q.cache.slotOf? key = some slot) (covers : Covers s q key type) :
    Orderly s (q.leave slot (some type)) := by
  have scope : (q.leave slot (some type)).scope = rest := by
    show q.scope.tail = rest
    rw [latest]
    rfl
  have distinct := orderly.distinct
  rw [latest, List.nodup_cons] at distinct
  have old {other : CacheKey} (different : other ≠ key) :
      (q.leave slot (some type)).cache.stateOf? other = q.cache.stateOf? other :=
    Cache.stateOf?_publish_of_ne orderly.sound bound different
  constructor
  case running => exact orderly.running
  case sound => exact orderly.sound.publish
  case distinct =>
    rw [scope]
    exact distinct.2
  case pending =>
    intro other isIn
    rw [scope] at isIn
    have different : other ≠ key := by
      rintro rfl
      exact distinct.1 isIn
    rw [old different]
    exact orderly.pending other (latest ▸ List.mem_cons_of_mem key isIn)
  case settled =>
    intro other state isState idle
    by_cases same : other = key
    · subst same
      have complete := Cache.stateOf?_publish_self orderly.sound bound (some type)
      obtain rfl := Option.some.inj (complete.symm.trans isState)
      exact ⟨_, rfl, covers⟩
    · rw [old same] at isState
      rw [scope] at idle
      refine orderly.settled other state isState ?_
      rw [latest]
      exact List.not_mem_cons_of_ne_of_not_mem same idle
  case owned => exact orderly.owned

/-- A production whose key is not in the scope gives a type, be it made now or before. -/
theorem Orderly.leads_memoize {produce : Synth (Option SynthesizedType)}
    {failed : SynthesisError → Prop} (orderly : Orderly s p) (idle : key ∉ p.scope)
    (isOwned : s.Owned key ∨ key.kind = .enumClone)
    (run : Orderly s (p.enter key) → Leads produce (p.enter key) (fun type q =>
      Orderly s q ∧ Grows (p.enter key) q ∧ ∃ t, type = some t ∧ Covers s q key t) failed) :
    Leads (memoize key produce) p (fun type q => Orderly s q ∧ Grows p q ∧ q.Bound key ∧
      ∃ t, type = some t ∧ Covers s q key t) failed := by
  cases free : p.cache.slotOf? key with
  | some slot =>
    -- bound but not in the scope: an earlier production completed it
    have bound : p.Bound key := ⟨slot, free⟩
    obtain ⟨c, complete, covers⟩ := orderly.complete bound idle
    exact leads_of_ok (memoize_complete orderly.running complete)
      ⟨orderly, Grows.refl p, bound, c.type, rfl, covers⟩
  | none =>
    have entered := run (orderly.enter free isOwned)
    refine Synthesis.leads_memoize orderly.running free (entered.mono ?_ fun _ fault => fault)
    rintro _ q ⟨after, grows, t, rfl, covers⟩
    have scope : q.scope = key :: p.scope := grows.scope
    have bound := grows.slots key _ (slotOf?_enter_self free)
    exact ⟨after.leave scope bound covers, grows.leave free, ⟨_, bound⟩, t, rfl, covers⟩

/-! ### Room for nested productions -/

/-- With so much fuel left, all keys of source types can still be entered. -/
structure Room (s : Synthesizer) (fuel : Nat) (p : Progress) : Prop where
  owned : ∀ key ∈ p.scope, s.Owned key
  enough : 3 * s.catalog.types.length < fuel + p.scope.length

theorem Room.grows {fuel : Nat} (room : Room s fuel p) (grows : Grows p q) : Room s fuel q where
  owned := grows.scope ▸ room.owned
  enough := grows.scope ▸ room.enough

theorem Room.enter {fuel : Nat} (room : Room s (fuel + 1) p) (isOwned : s.Owned key) :
    Room s fuel (p.enter key) where
  owned other isIn := by
    rcases List.mem_cons.1 isIn with rfl | isIn
    · exact isOwned
    · exact room.owned other isIn
  enough := by
    have enough := room.enough
    show _ < fuel + (p.scope.length + 1)
    omega

/-- Distinct keys of source types are no more than the keys that there are. -/
theorem length_le_of_memberKeys {sources : List SourceType} {scope : List CacheKey}
    (distinct : scope.Nodup) (owned : ∀ key ∈ scope, ∃ u ∈ sources, key ∈ s.memberKeys u) :
    scope.length ≤ 3 * sources.length := by
  have among : scope ⊆ sources.flatMap s.memberKeys := fun key isIn =>
    List.mem_flatMap.2 (owned key isIn)
  have few := (List.subperm_of_subset distinct among).length_le
  have each : sources.map (fun u => (s.memberKeys u).length) = List.replicate sources.length 3 :=
    List.map_eq_replicate_iff.2 fun _ _ => rfl
  rw [List.length_flatMap, each, List.sum_replicate_nat] at few
  omega

/-- No more productions are under way than there are keys of source types. -/
theorem not_room_zero (distinct : p.scope.Nodup) : ¬ Room s 0 p := by
  intro room
  have few : p.scope.length ≤ 3 * s.catalog.types.length := by
    refine length_le_of_memberKeys (s := s) distinct fun key isIn => ?_
    obtain ⟨u, known, -, isKey⟩ := room.owned key isIn
    exact ⟨u, known.mem, isKey⟩
  have enough := room.enough
  omega

end FluentWrappers.Synthesis
