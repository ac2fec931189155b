import FluentWrappers.Proofs.Synthesis.Compositional
import FluentWrappers.Proofs.Synthesis.FailFast
import FluentWrappers.Proofs.Synthesis.First

/-!
# What calls leave behind

However a call ends, be it with types, without any, or with an error from far down in nested
productions, it leaves the scope as it was, nothing in progress that was not so before, and all that
was complete unchanged; the list of completed types goes on with what the call has completed.
-/

namespace FluentWrappers.Synthesis

open Fallible

/-- A call that comes from one progress to another has cleaned up. -/
structure CleanedUp (p q : Progress) : Prop extends Grows p q where
  /-- Every key that was bound, complete or in progress, is as it was. -/
  kept : ∀ key, p.Bound key → q.cache.stateOf? key = p.cache.stateOf? key
  /-- No key is in progress that was not so before. -/
  ended : ∀ key owner, q.cache.stateOf? key = some (.inProgress owner) →
    p.cache.stateOf? key = some (.inProgress owner)
  /-- The list of completed types goes on, -/
  types : p.cache.types <+: q.cache.types
  /-- each new type in it is that of a key completed since, -/
  fresh : ∀ (serial : Nat) type, p.cache.types.length ≤ serial →
    q.cache.types[serial]? = some type →
    ∃ key, p.cache.slotOf? key = none ∧
      q.cache.stateOf? key = some (.complete (some ⟨serial, type⟩))
  /-- and each type completed since is a new one in it. -/
  listed : ∀ key done, p.cache.slotOf? key = none →
    q.cache.stateOf? key = some (.complete (some done)) →
    p.cache.types.length ≤ done.serial ∧ q.cache.types[done.serial]? = some done.type

variable {p q r : Progress} {key other : CacheKey} {made : Option SynthesizedType}
  {e : SynthesisError}

/-- Only the cancellation of the session is of no account. -/
theorem CleanedUp.of_eq (scope : q.scope = p.scope) (slots : q.cache.slots = p.cache.slots)
    (bindings : q.cache.bindings = p.cache.bindings) (types : q.cache.types = p.cache.types) :
    CleanedUp p q := by
  have slotOf (key : CacheKey) : q.cache.slotOf? key = p.cache.slotOf? key := by
    unfold Cache.slotOf?
    rw [bindings]
  have stateOf (key : CacheKey) : q.cache.stateOf? key = p.cache.stateOf? key := by
    unfold Cache.stateOf?
    rw [slotOf, slots]
  refine ⟨⟨scope, ?_⟩, fun key _ => stateOf key, ?_, ?_, ?_, ?_⟩
  · intro key slot bound
    rw [slotOf]
    exact bound
  · intro key owner state
    rw [← stateOf]
    exact state
  · rw [types]
  · intro serial type beyond isThere
    rw [types] at isThere
    exact absurd (List.getElem?_eq_some_iff.1 isThere).1 (Nat.not_lt.2 beyond)
  · intro key done free complete
    rw [stateOf, Cache.stateOf?_eq_none free] at complete
    cases complete

theorem CleanedUp.refl (p : Progress) : CleanedUp p p := .of_eq rfl rfl rfl rfl

theorem CleanedUp.getElem?_types (cleaned : CleanedUp p q) {serial : Nat} {type : SynthesizedType}
    (isThere : p.cache.types[serial]? = some type) : q.cache.types[serial]? = some type := by
  obtain ⟨new, grown⟩ := cleaned.types
  rw [← grown]
  exact (List.getElem?_append_left (List.getElem?_eq_some_iff.1 isThere).1).trans isThere

theorem Grows.free (grows : Grows p q) (free : q.cache.slotOf? key = none) :
    p.cache.slotOf? key = none := by
  cases bound : p.cache.slotOf? key with
  | none => rfl
  | some slot => cases free.symm.trans (grows.slots key slot bound)

theorem CleanedUp.trans (first : CleanedUp p q) (second : CleanedUp q r) : CleanedUp p r where
  toGrows := first.toGrows.trans second.toGrows
  kept key bound := (second.kept key (first.bound bound)).trans (first.kept key bound)
  ended key owner state := first.ended key owner (second.ended key owner state)
  types := first.types.trans second.types
  fresh serial type beyond isThere := by
    rcases Nat.lt_or_ge serial q.cache.types.length with old | new
    · have before := List.getElem?_eq_getElem old
      cases isThere.symm.trans (second.getElem?_types before)
      obtain ⟨key, free, complete⟩ := first.fresh serial _ beyond before
      exact ⟨key, free, (second.kept key (bound_of_state complete)).trans complete⟩
    · obtain ⟨key, free, complete⟩ := second.fresh serial type new isThere
      exact ⟨key, first.toGrows.free free, complete⟩
  listed key done free complete := by
    cases between : q.cache.slotOf? key with
    | none =>
      obtain ⟨new, isThere⟩ := second.listed key done between complete
      exact ⟨first.types.length_le.trans new, isThere⟩
    | some slot =>
      rw [second.kept key ⟨slot, between⟩] at complete
      obtain ⟨new, isThere⟩ := first.listed key done free complete
      exact ⟨new, second.getElem?_types isThere⟩

/-! ### Ends of productions -/

section

variable (cleaned : CleanedUp (p.enter key) q) (tidy : p.cache.Tidy) (tidy' : q.cache.Tidy)
  (free : p.cache.slotOf? key = none)

include cleaned free

theorem CleanedUp.bound_of_enter : q.cache.slotOf? key = some p.cache.slots.length :=
  cleaned.slots key _ (slotOf?_enter_self free)

theorem CleanedUp.types_of_enter : p.cache.types <+: q.cache.types :=
  types_enter free ▸ cleaned.types

include tidy

/-- What was bound before a production is as it was at the end of its run. -/
theorem CleanedUp.kept_of_enter (bound : p.Bound other) :
    other ≠ key ∧ q.cache.stateOf? other = p.cache.stateOf? other := by
  have distinct := bound.ne free
  refine ⟨distinct, (cleaned.kept other (bound_enter free bound)).trans ?_⟩
  exact stateOf?_enter_of_ne tidy free distinct

theorem CleanedUp.ended_of_enter {owner : Nat} (distinct : other ≠ key)
    (state : q.cache.stateOf? other = some (.inProgress owner)) :
    p.cache.stateOf? other = some (.inProgress owner) :=
  (stateOf?_enter_of_ne tidy free distinct).symm.trans (cleaned.ended other owner state)

omit tidy in
theorem CleanedUp.fresh_of_enter {serial : Nat} {type : SynthesizedType}
    (beyond : p.cache.types.length ≤ serial) (isThere : q.cache.types[serial]? = some type) :
    ∃ other, other ≠ key ∧ p.cache.slotOf? other = none ∧
      q.cache.stateOf? other = some (.complete (some ⟨serial, type⟩)) := by
  obtain ⟨other, free', complete⟩ := cleaned.fresh serial type (types_enter free ▸ beyond) isThere
  have distinct : other ≠ key := by
    rintro rfl
    cases free'.symm.trans (slotOf?_enter_self free)
  exact ⟨other, distinct, (slotOf?_enter_of_ne free distinct).symm.trans free', complete⟩

omit tidy in
theorem CleanedUp.listed_of_enter {done : Completed} (distinct : other ≠ key)
    (free' : p.cache.slotOf? other = none)
    (complete : q.cache.stateOf? other = some (.complete (some done))) :
    p.cache.types.length ≤ done.serial ∧ q.cache.types[done.serial]? = some done.type := by
  have between := (slotOf?_enter_of_ne free distinct).trans free'
  have listed := cleaned.listed other done between complete
  rw [types_enter free] at listed
  exact listed

include tidy'

theorem CleanedUp.leave : CleanedUp p (q.leave p.cache.slots.length made) where
  toGrows := cleaned.toGrows.leave free
  kept other bound := by
    obtain ⟨distinct, kept⟩ := cleaned.kept_of_enter tidy free bound
    rw [stateOf?_leave_of_ne tidy' (cleaned.bound_of_enter free) distinct, kept]
  ended other owner state := by
    have bound := cleaned.bound_of_enter free
    by_cases same : other = key
    · subst same
      rw [stateOf?_leave_self tidy' bound] at state
      cases state
    · rw [stateOf?_leave_of_ne tidy' bound same] at state
      exact cleaned.ended_of_enter tidy free same state
  types := (cleaned.types_of_enter free).trans (List.prefix_append ..)
  fresh serial type beyond isThere := by
    have bound := cleaned.bound_of_enter free
    have isThere : (q.cache.types ++ made.toList)[serial]? = some type := isThere
    rw [List.getElem?_append] at isThere
    split at isThere
    case isTrue =>
      obtain ⟨other, distinct, free', complete⟩ := cleaned.fresh_of_enter free beyond isThere
      exact ⟨other, free', (stateOf?_leave_of_ne tidy' bound distinct).trans complete⟩
    case isFalse past =>
      -- the only type past the end of the run is the one just made
      have isMade : type ∈ made.toList := List.mem_of_getElem? isThere
      have last : serial = q.cache.types.length := by
        have within := (List.getElem?_eq_some_iff.1 isThere).1
        have few : made.toList.length ≤ 1 := by cases made <;> simp
        omega
      refine ⟨key, free, ?_⟩
      rw [stateOf?_leave_self tidy' bound, last, Option.mem_toList.1 isMade]
      rfl
  listed other done free' complete := by
    have bound := cleaned.bound_of_enter free
    by_cases same : other = key
    · subst same
      rw [stateOf?_leave_self tidy' bound] at complete
      have isMade := SlotState.complete.inj (Option.some.inj complete)
      obtain ⟨type, rfl, rfl⟩ := Option.map_eq_some_iff.1 isMade
      exact ⟨(cleaned.types_of_enter free).length_le, List.getElem?_concat_length⟩
    · rw [stateOf?_leave_of_ne tidy' bound same] at complete
      obtain ⟨new, isThere⟩ := cleaned.listed_of_enter free same free' complete
      have within := (List.getElem?_eq_some_iff.1 isThere).1
      exact ⟨new, (List.getElem?_append_left within).trans isThere⟩

theorem CleanedUp.abandon : CleanedUp p (q.abandon key p.cache.slots.length e) where
  toGrows := cleaned.toGrows.abandon free tidy'
  kept other bound := by
    obtain ⟨distinct, kept⟩ := cleaned.kept_of_enter tidy free bound
    rw [stateOf?_abandon_of_ne tidy' (cleaned.bound_of_enter free) distinct, kept]
  ended other owner state := by
    have bound := cleaned.bound_of_enter free
    have distinct : other ≠ key := by
      rintro rfl
      cases (tidy'.stateOf?_release_self bound).symm.trans state
    rw [stateOf?_abandon_of_ne tidy' bound distinct] at state
    exact cleaned.ended_of_enter tidy free distinct state
  types := cleaned.types_of_enter free
  fresh serial type beyond isThere := by
    obtain ⟨other, distinct, free', complete⟩ := cleaned.fresh_of_enter free beyond isThere
    have bound := cleaned.bound_of_enter free
    exact ⟨other, free', (stateOf?_abandon_of_ne tidy' bound distinct).trans complete⟩
  listed other done free' complete := by
    have bound := cleaned.bound_of_enter free
    have distinct : other ≠ key := by
      rintro rfl
      cases (tidy'.stateOf?_release_self bound).symm.trans complete
    rw [stateOf?_abandon_of_ne tidy' bound distinct] at complete
    exact cleaned.listed_of_enter free distinct free' complete

end

/-! ### Relations that calls respect -/

/-- The relation leads from before a computation to after it, if it does so for each production. -/
structure Respected (R : Progress → Progress → Prop) : Prop where
  refl : ∀ p, R p p
  trans : ∀ {p q r}, R p q → R q r → R p r
  grows : ∀ {p q}, R p q → Grows p q
  leave : ∀ {p q key made}, p.cache.Tidy → q.cache.Tidy → p.cache.slotOf? key = none →
    R (p.enter key) q → R p (q.leave p.cache.slots.length made)
  abandon : ∀ {p q key e}, p.cache.Tidy → q.cache.Tidy → p.cache.slotOf? key = none →
    R (p.enter key) q → R p (q.abandon key p.cache.slots.length e)

/-- A tidy progress that the relation leads to. -/
def Progress.LeadsTo (R : Progress → Progress → Prop) (p q : Progress) : Prop :=
  q.cache.Tidy ∧ R p q

/-- However the computation ends, it comes to a tidy progress that the relation leads to. -/
def Respects (R : Progress → Progress → Prop) {α : Type} (x : Synth α) : Prop :=
  ∀ p : Progress, p.cache.Tidy → p.LeadsTo R (x p).2

namespace Respected

variable {R : Progress → Progress → Prop} (respected : Respected R)

include respected

theorem of_unchanged {α : Type} {x : Synth α} (unchanged : ∀ p, (x p).2 = p) : Respects R x := by
  intro p tidy
  rw [unchanged p]
  exact ⟨tidy, respected.refl p⟩

theorem bind {α β : Type} {x : Synth α} {f : α → Synth β} (first : Respects R x)
    (next : ∀ a, Respects R (f a)) : Respects R (x >>= f) := by
  intro p tidy
  obtain ⟨tidy', related⟩ := first p tidy
  rcases run : x p with ⟨error | a, q⟩
  · rw [run] at tidy' related
    rw [bind_error run]
    exact ⟨tidy', related⟩
  · rw [run] at tidy' related
    rw [bind_ok run]
    obtain ⟨tidy'', related'⟩ := next a q tidy'
    exact ⟨tidy'', respected.trans related related'⟩

theorem compositional : Compositional (Respects R) where
  pure _ := respected.of_unchanged fun _ => rfl
  throw _ := respected.of_unchanged fun _ => rfl
  bind := respected.bind
  attempt respects := respects
  inScope _ := respected.of_unchanged fun _ => rfl

/-- A production is begun under a free key only, and the key is complete or free again after it. -/
theorem carries : Memo.Carries memoize (Respects R) := by
  intro key produce run p tidy
  refine ends_iff.1 ?_
  cases free : p.cache.slotOf? key with
  | some slot =>
    refine (ends_memoize_bound ⟨slot, free⟩).mono ?_ ?_
    · rintro made q ⟨rfl, -⟩
      exact ⟨tidy, respected.refl q⟩
    · rintro error q rfl
      exact ⟨tidy, respected.refl q⟩
  | none =>
    cases stopped : p.cache.cancelled with
    | true => exact ends_of_error (memoize_cancelled stopped) ⟨tidy, respected.refl p⟩
    | false =>
      have entered := ends_iff.2 (run (p.enter key) (tidy.claim free))
      refine ends_memoize stopped free (entered.mono ?_ ?_)
      · rintro made q ⟨tidy', related⟩
        exact ⟨tidy'.publish, respected.leave tidy tidy' free related⟩
      · rintro error q ⟨tidy', related⟩
        have bound := (respected.grows related).slots key _ (slotOf?_enter_self free)
        exact ⟨tidy'.release bound, respected.abandon tidy tidy' free related⟩

theorem afterVia {memo : Memo} (carries : memo.Carries (Respects R)) (s : Synthesizer)
    (tidy : p.cache.Tidy) (call : Call) : p.LeadsTo R (call.afterVia memo s p) :=
  Call.afterVia_of_compositional (J := fun p q => p.cache.Tidy → p.LeadsTo R q)
    respected.compositional carries s p call tidy

end Respected

theorem respected_cleanedUp : Respected CleanedUp where
  refl := CleanedUp.refl
  trans := CleanedUp.trans
  grows cleaned := cleaned.toGrows
  leave tidy tidy' free cleaned := cleaned.leave tidy tidy' free
  abandon tidy tidy' free cleaned := cleaned.abandon tidy tidy' free

/-- A cancellation that comes before changes nothing but the session's flag. -/
theorem cleansUp_memoizeAmid (interruption : Interruption) :
    (memoizeAmid interruption).Carries (Respects CleanedUp) := by
  intro key produce run
  refine respected_cleanedUp.bind ?_ fun _ => respected_cleanedUp.carries key produce run
  intro p tidy
  let cancelled : Progress := { p with session := p.session.cancel }
  show p.LeadsTo CleanedUp (if interruption key p then cancelled else p)
  split
  · exact ⟨⟨⟨tidy.within, tidy.apart⟩, tidy.once⟩, CleanedUp.of_eq rfl rfl rfl rfl⟩
  · exact ⟨tidy, CleanedUp.refl p⟩

/-! ### Sessions -/

/-- The sessions that calls lead to, of whichever synthesizer and from whichever scope, with
cancellations during calls and between them, and with productions that have begun and not ended. -/
inductive Session.Reached : Session → Prop
  | start (waitTimeoutMs : UInt64) : Reached (Session.start waitTimeoutMs)
  | cancel {session : Session} (reached : Reached session) : Reached session.cancel
  | call {session : Session} (reached : Reached session) (s : Synthesizer) (call : Call)
      (scope : List CacheKey) (interruption : Interruption) :
      Reached (call.afterVia (memoizeAmid interruption) s ⟨session, scope⟩).session
  | production {session : Session} (reached : Reached session) (scope : List CacheKey)
      (key : CacheKey) (free : session.cache.slotOf? key = none) :
      Reached (Progress.enter ⟨session, scope⟩ key).session

theorem Session.Reached.tidy {session : Session} (reached : session.Reached) :
    session.cache.Tidy := by
  induction reached with
  | start waitTimeoutMs => exact Cache.tidy_empty waitTimeoutMs
  | cancel reached ih => exact ⟨⟨ih.within, ih.apart⟩, ih.once⟩
  | @call session reached s call scope interruption ih =>
    have carries := cleansUp_memoizeAmid interruption
    have tidy : (⟨session, scope⟩ : Progress).cache.Tidy := ih
    exact (respected_cleanedUp.afterVia carries s tidy call).1
  | production reached scope key free ih => exact ih.claim free

/-- Every call cleans up, and every call that is cancelled on its way does, also one that a production
makes of its own. -/
theorem cleanedUp_of_reached (reached : p.session.Reached) (s : Synthesizer) (call : Call) :
    CleanedUp p (call.after s p) ∧
      ∀ interruption, CleanedUp p (call.afterVia (memoizeAmid interruption) s p) := by
  have tidy : p.cache.Tidy := reached.tidy
  refine ⟨?_, fun interruption => ?_⟩
  · exact (respected_cleanedUp.afterVia respected_cleanedUp.carries s tidy call).2
  · exact (respected_cleanedUp.afterVia (cleansUp_memoizeAmid interruption) s tidy call).2

/-- The synthesis of the order fails two productions deep and leaves nothing behind, nor does the
interface of the item that it asks for from the first one. -/
theorem cleanedUp_of_reached_shop :
    let p : Progress := ⟨Session.start 1, []⟩
    let q : Progress := p.enter (shop.interfaceKey order)
    p.session.Reached ∧ q.session.Reached ∧
      (shop.synthesize order p).1.isOk = false ∧ (shop.interface item q).1.isOk = false ∧
      CleanedUp p ((Call.synthesize order).after shop p) ∧
      CleanedUp q ((Call.interface item).after shop q) := by
  intro p q
  have started : p.session.Reached := .start 1
  have begun : q.session.Reached := started.production [] (shop.interfaceKey order) rfl
  refine ⟨started, begun, by decide +kernel, by decide +kernel, ?_, ?_⟩
  · exact (cleanedUp_of_reached started shop (.synthesize order)).1
  · exact (cleanedUp_of_reached begun shop (.interface item)).1

end FluentWrappers.Synthesis
