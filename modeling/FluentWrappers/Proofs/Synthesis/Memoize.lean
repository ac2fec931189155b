import FluentWrappers.Proofs.Fallible
import FluentWrappers.Proofs.Synthesis.Cache
import FluentWrappers.Synthesis.Session

/-!
# Memoized productions

A production under a free key runs with the key claimed and in the scope, and what it made completes
the key. A complete key is answered from the cache, without a run and without a change.
-/

namespace FluentWrappers.Synthesis

open Fallible

namespace Progress

def cache (p : Progress) : Cache := p.session.cache

/-- The progress with the production of a key begun. -/
def enter (p : Progress) (key : CacheKey) : Progress :=
  ⟨⟨(p.cache.claim 0 key).1⟩, key :: p.scope⟩

/-- The progress with the latest production ended. -/
def leave (p : Progress) (slot : Nat) (type : Option SynthesizedType) : Progress :=
  ⟨⟨(p.cache.publish slot type).1⟩, p.scope.tail⟩

/-- The progress with the latest production failed. -/
def abandon (p : Progress) (key : CacheKey) (slot : Nat) (e : SynthesisError) : Progress :=
  ⟨⟨p.cache.release key slot e.message⟩, p.scope.tail⟩

end Progress

variable {key : CacheKey} {produce : Synth (Option SynthesizedType)} {p q : Progress}

theorem types_enter (free : p.cache.slotOf? key = none) :
    (p.enter key).cache.types = p.cache.types :=
  Cache.types_claim free

theorem outcomeOf_ok {type : Option SynthesizedType} (run : produce p = (.ok type, q)) :
    outcomeOf produce p = (.produced type, q) := by
  unfold outcomeOf
  rw [state_bind (x := produce.run) run]
  rfl

theorem outcomeOf_error {error : SynthesisError} (run : produce p = (.error error, q)) :
    outcomeOf produce p = (.failed error, q) := by
  unfold outcomeOf
  rw [state_bind (x := produce.run) run]
  rfl

theorem getOrCreate_free {produce : StateM Progress Outcome} {outcome : Outcome}
    (free : p.cache.slotOf? key = none)
    (run : produce ⟨⟨(p.cache.claim 0 key).1⟩, p.scope⟩ = (outcome, q)) :
    Cache.getOrCreate 0 key produce p =
      ((q.cache.settle key p.cache.slots.length outcome).2,
        { q with session := ⟨(q.cache.settle key p.cache.slots.length outcome).1⟩ }) := by
  unfold Cache.getOrCreate
  refine (state_bind (a := (p.cache.slots.length, true))
    (t := ⟨⟨(p.cache.claim 0 key).1⟩, p.scope⟩) ?claimed).trans ?rest
  case claimed =>
    show (fun r : Cache × Nat × Bool => ((r.2.1, r.2.2), (⟨⟨r.1⟩, p.scope⟩ : Progress)))
      (p.cache.claim 0 key) = _
    rw [Cache.claim_free free]
  case rest =>
    show (produce >>= _) _ = _
    rw [state_bind run]
    rfl

/-- What a request for a bound key comes to; one that others hold is waited for in vain. -/
def Look.final (key : CacheKey) : Look → Answer
  | .answer a => a
  | .wait => Cache.timeout key

theorem getOrCreate_bound {produce : StateM Progress Outcome} {slot : Nat}
    (bound : p.cache.slotOf? key = some slot) :
    Cache.getOrCreate 0 key produce p = ((p.cache.look 0 key slot).final key, p) := by
  unfold Cache.getOrCreate
  refine (state_bind (a := (slot, false)) (t := p) ?claimed).trans ?rest
  case claimed =>
    show (fun r : Cache × Nat × Bool => ((r.2.1, r.2.2), (⟨⟨r.1⟩, p.scope⟩ : Progress)))
      (p.cache.claim 0 key) = _
    rw [Cache.claim_bound bound]
    rfl
  case rest =>
    have seen : (getThe Cache : StateM Progress Cache) p = (p.cache, p) := rfl
    dsimp only
    rw [if_neg Bool.false_ne_true, state_bind seen]
    cases p.cache.look 0 key slot <;> rfl

theorem complete_of_look {c : Cache} {slot : Nat} {result : Option Completed}
    (found : (c.look 0 key slot).final key = .found result) :
    c.slots[slot]? = some (.complete result) := by
  cases seen : c.look 0 key slot with
  | answer a =>
    rw [seen] at found
    cases found
    exact Cache.look_found seen
  | wait =>
    rw [seen] at found
    cases found

theorem getOrCreate_complete {produce : StateM Progress Outcome} {result : Option Completed}
    (complete : p.cache.stateOf? key = some (.complete result)) :
    Cache.getOrCreate 0 key produce p = (.found result, p) := by
  obtain ⟨slot, bound, state⟩ := Cache.exists_slot complete
  have look : p.cache.look 0 key slot = .answer (.found result) := by
    unfold Cache.look
    rw [state]
  rw [getOrCreate_bound bound, look]
  rfl

/-- What a request for a key comes to, given the answer of the cache. -/
def Answer.result (key : CacheKey) : Answer → Except SynthesisError (Option SynthesizedType)
  | .found result => .ok (result.map (·.type))
  | .failed error => .error error
  | .unwound => .error (.dependencyFailed key.text Cache.unwoundReason)

theorem memoize_of_answer {answer : Answer} (running : p.cache.cancelled = false)
    (asked : Cache.getOrCreate 0 key (outcomeOf produce) { p with scope := key :: p.scope } =
      (answer, q)) :
    memoize key produce p = (answer.result key, { q with scope := q.scope.tail }) := by
  have got : (getThe Progress : Synth Progress) p = (.ok p, p) := rfl
  have entered : (modifyThe Progress fun p => { p with scope := key :: p.scope } : Synth PUnit) p =
      (.ok ⟨⟩, { p with scope := key :: p.scope }) := rfl
  have answered : (liftM (Cache.getOrCreate 0 key (outcomeOf produce) : StateM Progress Answer) :
      Synth Answer) { p with scope := key :: p.scope } = (.ok answer, q) := by
    rw [lift_state_apply, asked]
  have left : (modifyThe Progress fun p => { p with scope := p.scope.tail } : Synth PUnit) q =
      (.ok ⟨⟩, { q with scope := q.scope.tail }) := rfl
  have uncancelled : p.session.isCancelled = false := running
  unfold memoize
  rw [bind_ok got, uncancelled, if_neg Bool.false_ne_true]
  dsimp only
  rw [bind_ok entered, bind_ok answered, bind_ok left]
  cases answer <;> rfl

theorem memoize_cancelled (stopped : p.cache.cancelled = true) :
    memoize key produce p = (.error .cancelled, p) := by
  have got : (getThe Progress : Synth Progress) p = (.ok p, p) := rfl
  have cancelled : p.session.isCancelled = true := stopped
  unfold memoize
  rw [bind_ok got, cancelled, if_pos rfl]
  rfl

theorem memoize_complete {result : Option Completed} (running : p.cache.cancelled = false)
    (complete : p.cache.stateOf? key = some (.complete result)) :
    memoize key produce p = (.ok (result.map (·.type)), p) := by
  let begun : Progress := { p with scope := key :: p.scope }
  have kept : begun.cache.stateOf? key = some (.complete result) := complete
  exact memoize_of_answer running (getOrCreate_complete kept)

theorem memoize_of_ok {type : Option SynthesizedType} (running : p.cache.cancelled = false)
    (free : p.cache.slotOf? key = none) (run : produce (p.enter key) = (.ok type, q)) :
    memoize key produce p = (.ok type, q.leave p.cache.slots.length type) := by
  have asked := getOrCreate_free (p := { p with scope := key :: p.scope }) free (outcomeOf_ok run)
  have made : ((q.cache.settle key p.cache.slots.length (.produced type)).2).result key =
      .ok type := congrArg Except.ok (q.cache.result_publish p.cache.slots.length type)
  exact (memoize_of_answer running asked).trans (Prod.ext made rfl)

theorem memoize_of_error {error : SynthesisError} (running : p.cache.cancelled = false)
    (free : p.cache.slotOf? key = none) (run : produce (p.enter key) = (.error error, q)) :
    memoize key produce p = (.error error, q.abandon key p.cache.slots.length error) :=
  memoize_of_answer running
    (getOrCreate_free (p := { p with scope := key :: p.scope }) free (outcomeOf_error run))

/-- A production under a free key ends as the run in its scope does. -/
theorem ends_memoize {post : Option SynthesizedType → Progress → Prop}
    {failed : SynthesisError → Progress → Prop} (running : p.cache.cancelled = false)
    (free : p.cache.slotOf? key = none)
    (run : Ends produce (p.enter key) (fun type q => post type (q.leave p.cache.slots.length type))
      (fun e q => failed e (q.abandon key p.cache.slots.length e))) :
    Ends (memoize key produce) p post failed := by
  rcases result : produce (p.enter key) with ⟨error | type, q⟩
  · exact ends_of_error (memoize_of_error running free result) (run.fault result)
  · exact ends_of_ok (memoize_of_ok running free result) (run.result result)

/-- A production under a free key leads where the run in its scope leads. -/
theorem leads_memoize {post : Option SynthesizedType → Progress → Prop}
    {failed : SynthesisError → Prop} (running : p.cache.cancelled = false)
    (free : p.cache.slotOf? key = none)
    (run : Leads produce (p.enter key) (fun type q => post type (q.leave p.cache.slots.length type))
      failed) : Leads (memoize key produce) p post failed :=
  leads_iff_ends.2 (ends_memoize running free (leads_iff_ends.1 run))

/-! ### Attempts -/

theorem attempt_run {α : Type} {x : Synth α} {result : Except SynthesisError α}
    (run : x p = (result, q)) : attempt x p = (.ok result, q) := by
  unfold attempt
  rw [run]

namespace Synthesizer

variable {s : Synthesizer} {dereference : TypeRef → Synth TypeRef} {u : SourceType} {m : Member}

theorem resolveMember_of_ok {type : TypeRef} (run : dereference m.type p = (.ok type, q)) :
    s.resolveMember dereference u m p = (.ok (m.withType type), q) := by
  unfold resolveMember
  rw [bind_ok (attempt_run run)]
  rfl

theorem resolveMember_of_error {e : SynthesisError} (run : dereference m.type p = (.error e, q)) :
    s.resolveMember dereference u m p =
      (if e = .cancelled ∨ s.options.failFast = true then .error (memberFailure u m e)
        else .ok m, q) := by
  unfold resolveMember
  rw [bind_ok (attempt_run run)]
  by_cases ends : e = .cancelled ∨ s.options.failFast = true
  · rw [if_pos ends]
    exact congrFun (if_pos (by simpa using ends)) q
  · rw [if_neg ends]
    exact congrFun (if_neg (by simpa using ends)) q

end Synthesizer

end FluentWrappers.Synthesis
