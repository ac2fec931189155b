import FluentWrappers.Proofs.Fallible
import FluentWrappers.Proofs.Synthesis.Cache
import FluentWrappers.Synthesis.Interleaving

/-!
# What one step of a thread does

A slot in progress is set by the thread that claimed it alone, and only that thread takes the binding
of the slot's key away. Each lemma on what a step adds goes through the steps once; what holds of all
that is there follows from these lemmas and from what the step spares.
-/

namespace FluentWrappers.Synthesis

namespace Cache

variable {c c' : Cache} {t : Nat} {key : CacheKey} {slot : Nat}

/-- What a step of a thread leaves to the others: each slot that it does not own keeps its state and
its binding. -/
structure Spares (t : Nat) (c c' : Cache) : Prop where
  state : ∀ (slot : Nat) (state : SlotState), c.slots[slot]? = some state → state ≠ .inProgress t →
    c'.slots[slot]? = some state
  binding : ∀ key (slot : Nat) (state : SlotState), c.slotOf? key = some slot →
    c.slots[slot]? = some state → state ≠ .inProgress t → c'.slotOf? key = some slot

theorem Spares.of_eq (slots : c'.slots = c.slots) (bindings : c'.bindings = c.bindings) :
    Spares t c c' := by
  refine ⟨fun slot state at_ _ => slots ▸ at_, fun key slot state bound _ _ => ?_⟩
  unfold slotOf? at bound ⊢
  rw [bindings]
  exact bound

theorem claim_new {cache : Cache} (new : c.claim t key = (cache, slot, true)) :
    c.slotOf? key = none ∧ cache = (c.claim t key).1 ∧ slot = c.slots.length := by
  cases bound : c.slotOf? key with
  | some slot =>
    rw [claim_bound bound] at new
    cases new
  | none =>
    rw [claim_free bound] at new ⊢
    cases new
    exact ⟨rfl, rfl, rfl⟩

theorem claim_old {cache : Cache} (old : c.claim t key = (cache, slot, false)) :
    c.slotOf? key = some slot ∧ cache = c := by
  cases bound : c.slotOf? key with
  | some slot =>
    rw [claim_bound bound] at old
    cases old
    exact ⟨rfl, rfl⟩
  | none =>
    rw [claim_free bound] at old
    cases old

theorem getElem?_claim {state : SlotState} (free : c.slotOf? key = none)
    (old : c.slots[slot]? = some state) : (c.claim t key).1.slots[slot]? = some state := by
  rw [slots_claim free]
  exact (List.getElem?_append_left (List.getElem?_eq_some_iff.1 old).1).trans old

theorem slotOf?_claim_old {other : CacheKey} (free : c.slotOf? key = none)
    (bound : c.slotOf? other = some slot) : (c.claim t key).1.slotOf? other = some slot := by
  have distinct : other ≠ key := by
    rintro rfl
    cases free.symm.trans bound
  rw [slotOf?_claim free, if_neg distinct]
  exact bound

theorem spares_claim (free : c.slotOf? key = none) : Spares t c (c.claim t key).1 :=
  ⟨fun _ _ old _ => getElem?_claim free old, fun _ _ _ bound _ _ => slotOf?_claim_old free bound⟩

/-- Whoever owns a slot may set it. -/
theorem spares_set {state : SlotState} (own : c.slots[slot]? = some (.inProgress t)) :
    Spares t c { c with slots := c.slots.set slot state } := by
  refine ⟨?_, fun _ _ _ bound _ _ => bound⟩
  intro other old isThere foreign
  have distinct : slot ≠ other := by
    rintro rfl
    exact foreign (Option.some.inj (isThere.symm.trans own))
  exact (List.getElem?_set_ne distinct).trans isThere

theorem Tidy.slotOf?_unbind (tidy : c.Tidy) {other : CacheKey} (bound : c.slotOf? key = some slot) :
    (c.unbind key slot).slotOf? other = if other = key then none else c.slotOf? other :=
  @Tidy.slotOf?_release c key other slot "" tidy bound

theorem Tidy.spares_unbind (tidy : c.Tidy) (bound : c.slotOf? key = some slot)
    (own : c.slots[slot]? = some (.inProgress t)) : Spares t c (c.unbind key slot) := by
  refine ⟨fun _ _ isThere _ => isThere, ?_⟩
  intro other otherSlot state otherBound isThere foreign
  have distinct : other ≠ key := by
    rintro rfl
    cases bound.symm.trans otherBound
    exact foreign (Option.some.inj (isThere.symm.trans own))
  rw [tidy.slotOf?_unbind bound, if_neg distinct]
  exact otherBound

theorem Tidy.setSlots (tidy : c.Tidy) {slots : List SlotState}
    (same : slots.length = c.slots.length) : { c with slots := slots }.Tidy :=
  ⟨⟨fun key slot bound => same ▸ tidy.within key slot bound, tidy.apart⟩, tidy.once⟩

theorem Tidy.unbind (tidy : c.Tidy) (bound : c.slotOf? key = some slot) :
    (c.unbind key slot).Tidy :=
  (@Tidy.release c key slot "" tidy bound).setSlots List.length_set.symm

end Cache

/-! ### What a thread holds -/

namespace Thread

/-- The attempts whose keys are bound to their slots: their producers run or have ended well. -/
def claimed (thread : Thread) : List Attempt :=
  match thread.activity with
  | .completing attempt _ => attempt :: thread.productions
  | _ => thread.productions

/-- The attempts whose slots the thread has yet to set. -/
def held (thread : Thread) : List Attempt :=
  match thread.activity with
  | .completing attempt _ => attempt :: thread.productions
  | .failing attempt _ => attempt :: thread.productions
  | _ => thread.productions

structure Holds (c : Cache) (t : Nat) (thread : Thread) : Prop where
  progress : ∀ a ∈ thread.held, c.slots[a.slot]? = some (.inProgress t)
  apart : (thread.held.map Attempt.slot).Nodup
  bound : ∀ a ∈ thread.claimed, c.slotOf? a.key = some a.slot
  own : ∀ w, thread.activity = .waiting w → ∀ a ∈ thread.productions, a.key = w.key →
    a.slot = w.slot

variable {c c' : Cache} {t u : Nat} {thread : Thread} {attempt : Attempt}
  {productions : List Attempt}

theorem claimed_subset (thread : Thread) : thread.claimed ⊆ thread.held := by
  obtain ⟨productions, activity⟩ := thread
  cases activity with
  | failing attempt failure => exact List.subset_cons_self _ _
  | _ => exact List.Subset.refl _

theorem productions_subset (thread : Thread) : thread.productions ⊆ thread.claimed := by
  obtain ⟨productions, activity⟩ := thread
  cases activity with
  | completing attempt result => exact List.subset_cons_self _ _
  | _ => exact List.Subset.refl _

theorem productions_sublist (thread : Thread) : thread.productions.Sublist thread.held := by
  obtain ⟨productions, activity⟩ := thread
  cases activity with
  | completing attempt result => exact List.sublist_cons_self ..
  | failing attempt failure => exact List.sublist_cons_self ..
  | _ => exact List.Sublist.refl _

/-- The steps of the other threads take nothing from a thread. -/
theorem Holds.spared (holds : thread.Holds c u) (spares : c.Spares t c') (other : u ≠ t) :
    thread.Holds c' u := by
  have foreign : SlotState.inProgress u ≠ .inProgress t := by
    rintro ⟨⟩
    exact other rfl
  refine ⟨?_, holds.apart, ?_, holds.own⟩
  · intro a isHeld
    exact spares.state _ _ (holds.progress a isHeld) foreign
  · intro a isClaimed
    have progress := holds.progress a (claimed_subset thread isClaimed)
    exact spares.binding _ _ _ (holds.bound a isClaimed) progress foreign

theorem Holds.distinct (holds : Holds c t ⟨attempt :: productions, .running⟩) {a : Attempt}
    (isIn : a ∈ productions) : attempt.slot ≠ a.slot := by
  have fresh := (List.nodup_cons.1 holds.apart).1
  intro same
  exact fresh (List.mem_map.2 ⟨a, isIn, same.symm⟩)

/-- The thread runs on after it has set the slot of its latest attempt. -/
theorem Holds.set {activity : Activity} {state : SlotState}
    (holds : Holds c t ⟨productions, activity⟩)
    (held : held ⟨productions, activity⟩ = attempt :: productions) :
    Holds { c with slots := c.slots.set attempt.slot state } t ⟨productions, .running⟩ := by
  obtain ⟨progress, apart, bound, -⟩ := holds
  rw [held] at progress apart
  obtain ⟨fresh, apart⟩ := List.nodup_cons.1 apart
  refine ⟨?_, apart, ?_, fun w waits => nomatch waits⟩
  · intro a isIn
    have distinct : attempt.slot ≠ a.slot := by
      intro same
      exact fresh (List.mem_map.2 ⟨a, isIn, same.symm⟩)
    exact (List.getElem?_set_ne distinct).trans (progress a (List.mem_cons_of_mem _ isIn))
  · intro a isIn
    exact bound a (productions_subset ⟨productions, activity⟩ isIn)

theorem Holds.claim {key : CacheKey} (holds : Holds c t ⟨productions, .running⟩)
    (free : c.slotOf? key = none) :
    Holds (c.claim t key).1 t ⟨⟨key, c.slots.length⟩ :: productions, .running⟩ := by
  refine ⟨?_, ?_, ?_, fun w waits => nomatch waits⟩
  · intro a isHeld
    rcases List.mem_cons.1 isHeld with rfl | isHeld
    · rw [Cache.slots_claim free]
      exact List.getElem?_concat_length
    · exact Cache.getElem?_claim free (holds.progress a isHeld)
  · refine List.nodup_cons.2 ⟨?_, holds.apart⟩
    intro isIn
    obtain ⟨a, isHeld, same⟩ := List.mem_map.1 isIn
    have within := (List.getElem?_eq_some_iff.1 (holds.progress a isHeld)).1
    exact Nat.ne_of_lt within same
  · intro a isClaimed
    rcases List.mem_cons.1 isClaimed with rfl | isClaimed
    · rw [Cache.slotOf?_claim free, if_pos rfl]
    · exact Cache.slotOf?_claim_old free (holds.bound a isClaimed)

theorem Holds.unbind (tidy : c.Tidy) (holds : Holds c t ⟨attempt :: productions, .running⟩)
    (failure : Failure) :
    Holds (c.unbind attempt.key attempt.slot) t ⟨productions, .failing attempt failure⟩ := by
  have bound := holds.bound attempt List.mem_cons_self
  refine ⟨holds.progress, holds.apart, ?_, fun w waits => nomatch waits⟩
  intro a isIn
  have otherBound := holds.bound a (List.mem_cons_of_mem _ isIn)
  have distinct : a.key ≠ attempt.key := by
    intro same
    rw [same] at otherBound
    exact holds.distinct isIn (Option.some.inj (bound.symm.trans otherBound))
  rw [tidy.slotOf?_unbind bound, if_neg distinct]
  exact otherBound

end Thread

/-! ### The threads and the cache -/

namespace World

variable {s s' : World} {t u : Nat}

theorem threads_goTo {thread other : Thread} (place : (s.goTo t thread).threads u = other) :
    u = t ∧ other = thread ∨ u ≠ t ∧ s.threads u = other := by
  unfold goTo at place
  by_cases same : u = t
  · subst same
    exact Or.inl ⟨rfl, place.symm.trans (Function.update_self ..)⟩
  · exact Or.inr ⟨same, (Function.update_of_ne same ..).symm.trans place⟩

theorem others_goTo {thread : Thread} (other : u ≠ t) :
    (s.goTo t thread).threads u = s.threads u :=
  Function.update_of_ne other ..

theorem self_goTo (s : World) (t : Nat) (thread : Thread) : (s.goTo t thread).threads t = thread :=
  Function.update_self ..

structure Consistent (s : World) : Prop where
  tidy : s.cache.Tidy
  holds : ∀ t, (s.threads t).Holds s.cache t

theorem Consistent.at (consistent : s.Consistent) {thread : Thread} (place : s.threads t = thread) :
    thread.Holds s.cache t :=
  place ▸ consistent.holds t

end World

open World

variable {s s' later : World} {t u : Nat}

theorem Turn.others (step : Turn t s s') (other : u ≠ t) : s'.threads u = s.threads u := by
  cases step with
  | cancel => rfl
  | _ => exact others_goTo other

theorem Turn.spares (step : Turn t s s') (consistent : s.Consistent) : s.cache.Spares t s'.cache := by
  cases step with
  | claim key place new =>
    obtain ⟨free, rfl, rfl⟩ := Cache.claim_new new
    exact Cache.spares_claim free
  | join key place old =>
    obtain ⟨-, rfl⟩ := Cache.claim_old old
    exact Cache.Spares.of_eq rfl rfl
  | complete place =>
    exact Cache.spares_set ((consistent.at place).progress _ List.mem_cons_self)
  | unbind failure place =>
    have holds := consistent.at place
    exact consistent.tidy.spares_unbind (holds.bound _ List.mem_cons_self)
      (holds.progress _ List.mem_cons_self)
  | fail place =>
    exact Cache.spares_set ((consistent.at place).progress _ List.mem_cons_self)
  | _ => exact Cache.Spares.of_eq rfl rfl

theorem Turn.tidy (step : Turn t s s') (consistent : s.Consistent) : s'.cache.Tidy := by
  have tidy := consistent.tidy
  cases step with
  | claim key place new =>
    obtain ⟨free, rfl, rfl⟩ := Cache.claim_new new
    exact tidy.claim free
  | join key place old =>
    obtain ⟨-, rfl⟩ := Cache.claim_old old
    exact tidy
  | complete place => exact tidy.setSlots List.length_set
  | unbind failure place =>
    exact tidy.unbind ((consistent.at place).bound _ List.mem_cons_self)
  | fail place => exact tidy.setSlots List.length_set
  | record type place => exact ⟨⟨tidy.within, tidy.apart⟩, tidy.once⟩
  | cancel => exact ⟨⟨tidy.within, tidy.apart⟩, tidy.once⟩
  | look place seen => exact tidy
  | timeout place seen => exact tidy

theorem Turn.holds (step : Turn t s s') (consistent : s.Consistent) :
    (s'.threads t).Holds s'.cache t := by
  cases step with
  | claim key place new =>
    obtain ⟨free, rfl, rfl⟩ := Cache.claim_new new
    rw [self_goTo]
    exact (consistent.at place).claim free
  | @join productions key _ slot place old =>
    obtain ⟨bound, rfl⟩ := Cache.claim_old old
    obtain ⟨progress, apart, claimed, -⟩ := consistent.at place
    rw [self_goTo]
    refine ⟨progress, apart, claimed, ?_⟩
    rintro _ ⟨⟩ a isIn same
    exact Option.some.inj ((claimed a isIn).symm.trans (same ▸ bound))
  | record type place =>
    obtain ⟨progress, apart, claimed, -⟩ := consistent.at place
    rw [self_goTo]
    exact ⟨progress, apart, claimed, fun w waits => nomatch waits⟩
  | complete place =>
    rw [give, self_goTo]
    exact (consistent.at place).set rfl
  | unbind failure place =>
    rw [self_goTo]
    exact (consistent.at place).unbind consistent.tidy failure
  | fail place =>
    rw [give, self_goTo]
    exact (consistent.at place).set rfl
  | look place seen =>
    obtain ⟨progress, apart, claimed, -⟩ := consistent.at place
    rw [give, self_goTo]
    exact ⟨progress, apart, claimed, fun w waits => nomatch waits⟩
  | timeout place seen =>
    obtain ⟨progress, apart, claimed, -⟩ := consistent.at place
    rw [give, self_goTo]
    exact ⟨progress, apart, claimed, fun w waits => nomatch waits⟩
  | cancel =>
    obtain ⟨progress, apart, claimed, own⟩ := consistent.holds t
    exact ⟨progress, apart, claimed, own⟩

theorem Turn.consistent (step : Turn t s s') (consistent : s.Consistent) : s'.Consistent := by
  refine ⟨step.tidy consistent, ?_⟩
  intro u
  by_cases other : u = t
  · subst other
    exact step.holds consistent
  · rw [step.others other]
    exact (consistent.holds u).spared (step.spares consistent) other

/-! ### What a step adds -/

section

variable {productions : List Attempt} {attempt : Attempt} {key : CacheKey} {slot : Nat}
  {result : Option Completed} {done : Completed}

theorem Turn.claims (step : Turn t s s') : s.claims <+: s'.claims := by
  cases step with
  | claim key place new => exact List.prefix_append ..
  | _ => exact List.prefix_rfl

theorem Turn.claimed (step : Turn t s s') (claimed : s.claims[slot]? = some key) :
    s'.claims[slot]? = some key := by
  obtain ⟨new, grown⟩ := step.claims
  rw [← grown]
  exact (List.getElem?_append_left (List.getElem?_eq_some_iff.1 claimed).1).trans claimed

theorem Turn.length (step : Turn t s s') (same : s.claims.length = s.cache.slots.length) :
    s'.claims.length = s'.cache.slots.length := by
  cases step with
  | claim key place new =>
    obtain ⟨free, rfl, rfl⟩ := Cache.claim_new new
    rw [Cache.slots_claim free, List.length_append, List.length_append, same]
    rfl
  | join key place old =>
    obtain ⟨-, rfl⟩ := Cache.claim_old old
    exact same
  | complete place => exact same.trans List.length_set.symm
  | fail place => exact same.trans List.length_set.symm
  | _ => exact same

theorem Turn.binding (step : Turn t s s') (consistent : s.Consistent)
    (same : s.claims.length = s.cache.slots.length) (bound : s'.cache.slotOf? key = some slot) :
    s.cache.slotOf? key = some slot ∨ slot = s.claims.length ∧ s'.claims[slot]? = some key := by
  cases step with
  | @claim productions claimed _ _ place new =>
    obtain ⟨free, rfl, rfl⟩ := Cache.claim_new new
    rw [Cache.slotOf?_claim free] at bound
    split at bound
    case isTrue isNew =>
      cases bound
      refine Or.inr ⟨same.symm, ?_⟩
      rw [isNew, ← same]
      exact List.getElem?_concat_length
    case isFalse => exact Or.inl bound
  | join key place old =>
    obtain ⟨-, rfl⟩ := Cache.claim_old old
    exact Or.inl bound
  | unbind failure place =>
    rw [consistent.tidy.slotOf?_unbind ((consistent.at place).bound _ List.mem_cons_self)] at bound
    split at bound
    · cases bound
    · exact Or.inl bound
  | _ => exact Or.inl bound

theorem Turn.completion (step : Turn t s s') (consistent : s.Consistent)
    (complete : s'.cache.slots[slot]? = some (.complete result)) :
    s.cache.slots[slot]? = some (.complete result) ∨
      ∃ productions attempt, s.threads t = ⟨productions, .completing attempt result⟩ ∧
        attempt.slot = slot ∧ s'.cache.slotOf? attempt.key = some slot := by
  cases step with
  | claim key place new =>
    obtain ⟨free, rfl, rfl⟩ := Cache.claim_new new
    rw [Cache.slots_claim free, List.getElem?_append] at complete
    split at complete
    · exact Or.inl complete
    · cases List.mem_singleton.1 (List.mem_of_getElem? complete)
  | join key place old =>
    obtain ⟨-, rfl⟩ := Cache.claim_old old
    exact Or.inl complete
  | @complete attempt productions ended place =>
    have holds := consistent.at place
    have bound := holds.bound attempt List.mem_cons_self
    by_cases here : attempt.slot = slot
    · subst here
      have within := consistent.tidy.within _ _ bound
      cases (List.getElem?_set_self within).symm.trans complete
      exact Or.inr ⟨productions, attempt, place, rfl, bound⟩
    · exact Or.inl ((List.getElem?_set_ne here).symm.trans complete)
  | @fail attempt productions failure place =>
    have progress := (consistent.at place).progress attempt List.mem_cons_self
    by_cases here : attempt.slot = slot
    · subst here
      have within := (List.getElem?_eq_some_iff.1 progress).1
      cases (List.getElem?_set_self within).symm.trans complete
    · exact Or.inl ((List.getElem?_set_ne here).symm.trans complete)
  | _ => exact Or.inl complete

theorem Turn.release (step : Turn t s s') (consistent : s.Consistent)
    (released : attempt ∈ s'.released) :
    attempt ∈ s.released ∨
      s.cache.slotOf? attempt.key = some attempt.slot ∧ s'.cache.slotOf? attempt.key = none := by
  cases step with
  | unbind failure place =>
    have bound := (consistent.at place).bound _ List.mem_cons_self
    rcases List.mem_append.1 released with old | new
    · exact Or.inl old
    · cases List.mem_singleton.1 new
      refine Or.inr ⟨bound, ?_⟩
      rw [consistent.tidy.slotOf?_unbind bound, if_pos rfl]
  | _ => exact Or.inl released

theorem Turn.wait (step : Turn t s s') (place : s'.threads u = ⟨productions, .waiting attempt⟩) :
    s.threads u = ⟨productions, .waiting attempt⟩ ∨
      s.cache.slotOf? attempt.key = some attempt.slot := by
  cases step with
  | join key before old =>
    rcases threads_goTo place with ⟨-, same⟩ | ⟨-, earlier⟩
    · cases same
      exact Or.inr (Cache.claim_old old).1
    · exact Or.inl earlier
  | cancel => exact Or.inl place
  | _ =>
    rcases threads_goTo place with ⟨-, same⟩ | ⟨-, earlier⟩
    · cases same
    · exact Or.inl earlier

end

/-! ### The attempts and the keys they were made for -/

/-- Every slot was claimed for one key, and it stays bound to that key once it is complete. -/
structure World.Genuine (s : World) : Prop where
  length : s.claims.length = s.cache.slots.length
  bound : ∀ key slot, s.cache.slotOf? key = some slot → s.claims[slot]? = some key
  complete : ∀ key (slot : Nat) (result : Option Completed), s.claims[slot]? = some key →
    s.cache.slots[slot]? = some (.complete result) → s.cache.slotOf? key = some slot
  waiting : ∀ t productions attempt, s.threads t = ⟨productions, .waiting attempt⟩ →
    s.claims[attempt.slot]? = some attempt.key
  released : ∀ attempt ∈ s.released, s.claims[attempt.slot]? = some attempt.key ∧
    ∀ slot, s.cache.slotOf? attempt.key = some slot → attempt.slot < slot

theorem Turn.genuine (step : Turn t s s') (consistent : s.Consistent) (genuine : s.Genuine) :
    s'.Genuine := by
  have bound' (key : CacheKey) (slot : Nat) (bound : s'.cache.slotOf? key = some slot) :
      s'.claims[slot]? = some key := by
    rcases step.binding consistent genuine.length bound with bound | ⟨-, new⟩
    · exact step.claimed (genuine.bound key slot bound)
    · exact new
  refine ⟨step.length genuine.length, bound', ?_, ?_, ?_⟩
  · intro key slot result claimed complete
    rcases step.completion consistent complete with before | ⟨productions, attempt, -, rfl, new⟩
    · have within := genuine.length ▸ (List.getElem?_eq_some_iff.1 before).1
      have claimed' := step.claimed (List.getElem?_eq_getElem within)
      have claimed := (List.getElem?_eq_getElem within).trans (claimed'.symm.trans claimed)
      have bound := genuine.complete key slot result claimed before
      exact (step.spares consistent).binding _ _ _ bound before nofun
    · cases claimed.symm.trans (bound' _ _ new)
      exact new
  · intro u productions attempt place
    rcases step.wait place with waits | bound
    · exact step.claimed (genuine.waiting u productions attempt waits)
    · exact step.claimed (genuine.bound _ _ bound)
  · intro attempt released
    rcases step.release consistent released with before | ⟨bound, free⟩
    · obtain ⟨claimed, later⟩ := genuine.released attempt before
      refine ⟨step.claimed claimed, ?_⟩
      intro slot bound
      rcases step.binding consistent genuine.length bound with bound | ⟨rfl, -⟩
      · exact later slot bound
      · exact (List.getElem?_eq_some_iff.1 claimed).1
    · refine ⟨step.claimed (genuine.bound _ _ bound), ?_⟩
      intro slot bound
      cases free.symm.trans bound

/-! ### A request without others -/

theorem settle_reaches {attempt : Attempt} {productions : List Attempt}
    (place : s.threads t = ⟨attempt :: productions, .running⟩) (outcome : Outcome) :
    ∃ s', Reaches s s' ∧ s'.cache = (s.cache.settle attempt.key attempt.slot outcome).1 ∧
      s'.threads t = ⟨productions, .running⟩ ∧
      s'.answers =
        s.answers ++ [(attempt, (s.cache.settle attempt.key attempt.slot outcome).2)] := by
  have fails (failure : Failure) :
      ∃ s', Reaches s s' ∧ s'.cache = s.cache.release attempt.key attempt.slot failure.reason ∧
        s'.threads t = ⟨productions, .running⟩ ∧
        s'.answers = s.answers ++ [(attempt, failure.answer)] := by
    refine ⟨_, .tail (.single ⟨t, .unbind failure place⟩) ⟨t, .fail (self_goTo ..)⟩, ?_⟩
    exact ⟨rfl, self_goTo .., rfl⟩
  cases outcome with
  | produced type =>
    refine ⟨_, .tail (.single ⟨t, .record type place⟩) ⟨t, .complete (self_goTo ..)⟩, ?_⟩
    exact ⟨rfl, self_goTo .., rfl⟩
  | failed error => exact fails (.error error)
  | unwound => exact fails .unwound

section

variable {c cache : Cache} {key : CacheKey} {slot : Nat} {produce : StateM Cache Outcome}

theorem getOrCreate_new (claimed : c.claim t key = (cache, slot, true)) :
    Cache.getOrCreate t key produce c =
      ((produce cache).2.settle key slot (produce cache).1).swap := by
  unfold Cache.getOrCreate
  refine (Fallible.state_bind (a := (slot, true)) (t := cache) ?first).trans ?rest
  case first =>
    show (fun r : Cache × Nat × Bool => ((r.2.1, r.2.2), r.1)) (c.claim t key) = _
    rw [claimed]
  case rest =>
    show (produce >>= _) cache = _
    rw [Fallible.state_bind (Prod.eta (produce cache)).symm]
    rfl

theorem getOrCreate_old (claimed : c.claim t key = (cache, slot, false)) :
    Cache.getOrCreate t key produce c =
      (match cache.look t key slot with
        | .answer answer => answer
        | .wait => Cache.timeout key, cache) := by
  unfold Cache.getOrCreate
  refine (Fallible.state_bind (a := (slot, false)) (t := cache) ?first).trans ?rest
  case first =>
    show (fun r : Cache × Nat × Bool => ((r.2.1, r.2.2), r.1)) (c.claim t key) = _
    rw [claimed]
  case rest =>
    show (match cache.look t key slot with
      | .answer answer => (pure answer : StateM Cache Answer)
      | .wait => pure (Cache.timeout key)) cache = _
    cases cache.look t key slot <;> rfl

end

/-- Whenever a thread stands at these productions, what it computes there is a run of steps. -/
def RunsBySteps (t : Nat) (productions : List Attempt) {α : Type} (x : StateM Cache α) : Prop :=
  ∀ s : World, s.threads t = ⟨productions, .running⟩ →
    ∃ s', Reaches s s' ∧ s'.cache = (x s.cache).2 ∧ s'.threads t = ⟨productions, .running⟩

/-- A thread makes a request without others and is answered, by steps of its own. -/
def World.Serves (s : World) : Prop :=
  ∀ (t : Nat) (productions : List Attempt) (key : CacheKey) (produce : StateM Cache Outcome),
    s.threads t = ⟨productions, .running⟩ →
    (∀ attempt, RunsBySteps t (attempt :: productions) produce) →
    ∃ s' slot, Reaches s s' ∧ s'.cache = (Cache.getOrCreate t key produce s.cache).2 ∧
      s'.threads t = ⟨productions, .running⟩ ∧
      (⟨key, slot⟩, (Cache.getOrCreate t key produce s.cache).1) ∈ s'.answers

theorem serves (s : World) : s.Serves := by
  intro t productions key produce place producer
  have last {answers : List (Attempt × Answer)} {given : Attempt × Answer} :
      given ∈ answers ++ [given] := List.mem_append_right _ List.mem_cons_self
  rcases claimed : s.cache.claim t key with ⟨cache, slot, _ | _⟩
  case false =>
    have joined := Turn.join key place claimed
    rw [getOrCreate_old claimed]
    cases seen : cache.look t key slot with
    | answer answer =>
      refine ⟨_, slot, .tail (.single ⟨t, joined⟩) ⟨t, .look (self_goTo ..) seen⟩, ?_⟩
      exact ⟨rfl, self_goTo .., last⟩
    | wait =>
      refine ⟨_, slot, .tail (.single ⟨t, joined⟩) ⟨t, .timeout (self_goTo ..) seen⟩, ?_⟩
      exact ⟨rfl, self_goTo .., last⟩
  case true =>
    have started := Turn.claim key place claimed
    obtain ⟨ended, ran, atEnd, place'⟩ := producer ⟨key, slot⟩
      { s.goTo t ⟨⟨key, slot⟩ :: productions, .running⟩ with
        cache := cache
        claims := s.claims ++ [key] } (self_goTo ..)
    obtain ⟨settled, ends, atEnd', place'', answers⟩ :=
      settle_reaches place' (produce cache).1
    rw [atEnd] at atEnd' answers
    rw [getOrCreate_new claimed]
    refine ⟨settled, slot, ?_, atEnd', place'', answers ▸ last⟩
    exact (Relation.ReflTransGen.head ⟨t, started⟩ ran).trans ends

namespace RunsBySteps

variable {productions : List Attempt} {α β : Type}

theorem pure (t : Nat) (productions : List Attempt) (a : α) :
    RunsBySteps t productions (pure a : StateM Cache α) :=
  fun s place => ⟨s, .refl, rfl, place⟩

theorem bind {x : StateM Cache α} {f : α → StateM Cache β} (first : RunsBySteps t productions x)
    (next : ∀ a, RunsBySteps t productions (f a)) : RunsBySteps t productions (x >>= f) := by
  intro s place
  obtain ⟨between, ran, atEnd, place'⟩ := first s place
  obtain ⟨ended, ran', atEnd', place''⟩ := next (x s.cache).1 between place'
  refine ⟨ended, ran.trans ran', ?_, place''⟩
  rw [Fallible.state_bind (Prod.eta (x s.cache)).symm, ← atEnd]
  exact atEnd'

/-- A production makes requests of its own. -/
theorem request (key : CacheKey) {produce : StateM Cache Outcome}
    (producer : ∀ attempt, RunsBySteps t (attempt :: productions) produce) :
    RunsBySteps t productions (Cache.getOrCreate t key produce) := by
  intro s place
  obtain ⟨s', -, ran, atEnd, place', -⟩ := serves s t productions key produce place producer
  exact ⟨s', ran, atEnd, place'⟩

end RunsBySteps

end FluentWrappers.Synthesis
