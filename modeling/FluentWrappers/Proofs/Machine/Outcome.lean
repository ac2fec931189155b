import FluentWrappers.Proofs.Machine.Activation

/-!
# What a run comes to

What an activation comes to is decided by the frames that it holds, and a fault of any activation is
the fault of the whole run. In the other direction a fault that lies in a body is traced to the frame
whose instruction caused it.
-/

namespace FluentWrappers.Machine

open Fallible Loaded

namespace Activation

variable {m : Loaded} {a b : Activation} {frame : Frame} {heap : Heap}

/-! ### What an activation comes to -/

/-- An activation fails at its start, for a reason outside the body, or holds a first frame. -/
theorem fails_or_starts (m : Loaded) (a : Activation) :
    (∃ e heap', e.Harmless ∧ a.run m = (.error e, heap')) ∨
      0 < a.levels ∧ a.Holds m (Frame.start a.method a.args) a.heap := by
  unfold run
  cases depth : a.levels with
  | zero => exact Or.inl ⟨.callDepthExceeded (maxCallDepth + 1), a.heap, rfl, rfl⟩
  | succ levels =>
    cases concrete : a.method.isAbstract with
    | true =>
      rw [executeWithin_succ, concrete]
      exact Or.inl ⟨.abstractMethod a.type.name a.method.name, a.heap, rfl, rfl⟩
    | false => exact Or.inr ⟨Nat.succ_pos _, .start depth concrete⟩

/-- The run of an activation is the run of each of its frames, for which there is fuel enough. -/
theorem Holds.run_eq (known : a.Known m) (held : a.Holds m frame heap) :
    ∃ fuel, frame.code.remaining < fuel ∧
      a.run m = m.runFrame (a.callees m) fuel frame heap := by
  induction held with
  | @start levels depth concrete =>
    refine ⟨a.method.code.length + 1, Nat.lt_succ_of_le (Nat.sub_le _ _), ?_⟩
    unfold run callees
    rw [depth, executeWithin_succ, concrete]
    rfl
  | @next frame later heap heap' held step ih =>
    obtain ⟨fuel, enough, same⟩ := ih
    obtain ⟨done, i, rest, depth, tracks⟩ := held.tracks known
    obtain ⟨_, _, shorter⟩ := tracks.next step
    cases fuel with
    | zero => omega
    | succ fuel =>
      refine ⟨fuel, by omega, ?_⟩
      rw [same]
      exact bind_ok step

theorem Holds.run_error {e : RunError} {heap' : Heap} (known : a.Known m)
    (held : a.Holds m frame heap)
    (step : m.step (a.callees m) frame heap = (.error e, heap')) : a.run m = (.error e, heap') := by
  obtain ⟨fuel, enough, same⟩ := held.run_eq known
  cases fuel with
  | zero => omega
  | succ fuel =>
    rw [same]
    exact bind_error step

/-- The run of a frame ends with the last step of a frame that the activation holds. -/
theorem Holds.last_step {fuel : Nat} {outcome : Except RunError Value × Heap} (known : a.Known m)
    (held : a.Holds m frame heap) (enough : frame.code.remaining < fuel)
    (run : m.runFrame (a.callees m) fuel frame heap = outcome) :
    ∃ last heap', a.Holds m last heap' ∧
      ((∃ e t, outcome = (.error e, t) ∧ m.step (a.callees m) last heap' = (.error e, t)) ∨
        ∃ result t, outcome = (.ok result, t) ∧
          m.step (a.callees m) last heap' = (.ok (.done result), t)) := by
  induction fuel generalizing frame heap with
  | zero => omega
  | succ fuel ih =>
    rcases step : m.step (a.callees m) frame heap with ⟨e | progress, t⟩
    · have failed : m.runFrame (a.callees m) (fuel + 1) frame heap = (.error e, t) := bind_error step
      rw [failed] at run
      exact ⟨frame, heap, held, Or.inl ⟨e, t, run.symm, step⟩⟩
    · cases progress with
      | done result =>
        have done : m.runFrame (a.callees m) (fuel + 1) frame heap = (.ok result, t) := bind_ok step
        rw [done] at run
        exact ⟨frame, heap, held, Or.inr ⟨result, t, run.symm, step⟩⟩
      | next later =>
        have on : m.runFrame (a.callees m) (fuel + 1) frame heap =
            m.runFrame (a.callees m) fuel later t := bind_ok step
        rw [on] at run
        obtain ⟨done, i, rest, depth, tracks⟩ := held.tracks known
        obtain ⟨_, _, shorter⟩ := tracks.next step
        exact ih (held.next step) (by omega) run

/-! ### Calls -/

theorem Calls.known (known : a.Known m) (h : a.Calls m b) : b.Known m := by
  cases h with
  | method held action =>
    obtain ⟨done, i, rest, depth, tracks⟩ := held.tracks known
    obtain ⟨_, next, _, _, _, targets, _⟩ := tracks.action_ok action
    obtain ⟨type, method⟩ := targets.known
    exact ⟨type, method⟩
  | constructor held action prepared =>
    obtain ⟨done, i, rest, depth, tracks⟩ := held.tracks known
    obtain ⟨_, next, _, _, _, type, _⟩ := tracks.action_ok action
    obtain ⟨method, _⟩ := (prepare_meets (allocateWithin_meets _ _)).result prepared _ rfl
    exact ⟨type, method⟩

theorem Calls.run_error {e : RunError} {heap' : Heap} (known : a.Known m) (h : a.Calls m b)
    (failed : b.run m = (.error e, heap')) : a.run m = (.error e, heap') := by
  cases h with
  | method held action =>
    refine held.run_error known ?_
    unfold step
    rw [bind_ok action]
    exact bind_error failed
  | constructor held action prepared =>
    refine held.run_error known ?_
    unfold step
    rw [bind_ok action]
    exact bind_error (constructWith_eq_error.2 (Or.inr ⟨_, _, _, prepared, failed⟩))

theorem Known.reached (known : a.Known m) (h : Relation.ReflTransGen (Calls m) a b) :
    b.Known m := by
  induction h with
  | refl => exact known
  | tail _ calls ih => exact calls.known ih

theorem Known.run_error {e : RunError} {heap' : Heap} (known : a.Known m)
    (h : Relation.ReflTransGen (Calls m) a b) (failed : b.run m = (.error e, heap')) :
    a.run m = (.error e, heap') := by
  induction h with
  | refl => exact failed
  | tail reached calls ih => exact ih (calls.run_error (known.reached reached) failed)

/-- A fault that lies in a body comes from the action of a frame that the activation or one called
from it holds. -/
theorem fault_origin {e : RunError} {heap' : Heap} (fault : e.isBodyFault = true) (levels : Nat) :
    ∀ a : Activation, a.levels = levels → a.Known m → a.run m = (.error e, heap') →
      ∃ b frame heap, Relation.ReflTransGen (Calls m) a b ∧ b.Holds m frame heap ∧
        m.action frame heap = (.error e, heap') := by
  induction levels using Nat.strongRecOn with
  | ind levels ih =>
    intro a depth known failed
    -- the same for an activation that the frame calls
    have below : ∀ b : Activation, a.Calls m b → b.levels < levels → b.run m = (.error e, heap') →
        ∃ c frame heap, Relation.ReflTransGen (Calls m) a c ∧ c.Holds m frame heap ∧
          m.action frame heap = (.error e, heap') := by
      intro b calls lower failed
      obtain ⟨c, frame, heap, reached, held, acted⟩ := ih b.levels lower b rfl (calls.known known) failed
      exact ⟨c, frame, heap, reached.head calls, held, acted⟩
    obtain ⟨e', t, harmless, run⟩ | ⟨deep, start⟩ := fails_or_starts m a
    · rw [failed] at run
      cases run
      rw [RunError.Harmless, fault] at harmless
      cases harmless
    · obtain ⟨fuel, enough, same⟩ := start.run_eq known
      rw [failed] at same
      obtain ⟨frame, heap, held, ⟨_, _, ends, step⟩ | ⟨_, _, ends, _⟩⟩ :=
        start.last_step known enough same.symm
      case inr => cases ends
      cases ends
      obtain acted | ⟨before, member, owner, target, args, between, acted, called⟩ |
        ⟨before, type, args, between, acted, constructed⟩ := step_eq_error step
      · exact ⟨a, frame, heap, .refl, held, acted⟩
      · exact below _ (.method held acted) (by dsimp only; omega) called
      · obtain unprepared | ⟨made, constructor, after, prepared, run⟩ :=
          constructWith_eq_error.1 constructed
        · have harmless := (prepare_meets (allocateWithin_meets _ _)).fault unprepared
          rw [RunError.Harmless, fault] at harmless
          cases harmless
        · exact below _ (.constructor held acted prepared) (by dsimp only; omega) run

end Activation

/-! ### Runs from an entry -/

namespace Entry

variable {m : Loaded} {entry : Entry} {heap heap' : Heap} {a : Activation} {e : RunError}

theorem Starts.known (h : entry.Starts m heap a) : a.Known m := by
  cases h with
  | newObject found prepared =>
    obtain ⟨method, _⟩ := (prepare_meets (allocateWithin_meets _ _)).result prepared _ rfl
    exact ⟨lookup_mem found, method⟩
  | invoke found =>
    obtain ⟨type, method, _⟩ := (instanceMethod_meets _ _ _).result found
    exact ⟨type, method⟩
  | invokeStatic found =>
    obtain ⟨type, method, _⟩ := staticMethod_eq_ok found
    exact ⟨type, method⟩

theorem Activates.known (h : entry.Activates m heap a) : a.Known m := by
  obtain ⟨first, starts, reached⟩ := h
  exact starts.known.reached reached

theorem Starts.run_error (h : entry.Starts m heap a) (failed : a.run m = (.error e, heap')) :
    entry.run m heap = (.error e, heap') := by
  cases h with
  | newObject found prepared =>
    simp only [run, Loaded.newObject, found]
    exact constructWith_eq_error.2 (Or.inr ⟨_, _, _, prepared, failed⟩)
  | invoke found =>
    simp only [run, Loaded.invoke]
    rw [bind_ok found]
    exact failed
  | invokeStatic found =>
    simp only [run, Loaded.invokeStatic, found]
    exact failed

theorem starts_of_fault (fault : e.isBodyFault = true)
    (failed : entry.run m heap = (.error e, heap')) :
    ∃ a, entry.Starts m heap a ∧ a.run m = (.error e, heap') := by
  have lies : ¬ e.Harmless := by
    unfold RunError.Harmless
    rw [fault]
    exact Bool.noConfusion
  cases entry with
  | newObject typeName args =>
    simp only [run, Loaded.newObject] at failed
    obtain unknown | ⟨type, t, found, failed⟩ := bind_eq_error_iff.1 failed
    · exact absurd ((lookup_meets m typeName).fault unknown) lies
    · obtain unprepared | ⟨made, constructor, between, prepared, ran⟩ :=
        constructWith_eq_error.1 failed
      · exact absurd ((prepare_meets (allocateWithin_meets _ _)).fault unprepared) lies
      · have known : m.lookup typeName = .ok type := congrArg Prod.fst found
        have unchanged : heap = t := congrArg Prod.snd found
        subst unchanged
        exact ⟨_, .newObject known prepared, ran⟩
  | invoke receiver name args =>
    simp only [run, Loaded.invoke] at failed
    obtain missing | ⟨⟨owner, target⟩, between, found, failed⟩ := bind_eq_error_iff.1 failed
    · exact absurd ((instanceMethod_meets receiver name args.length).fault missing) lies
    · exact ⟨_, .invoke found, failed⟩
  | invokeStatic typeName name args =>
    simp only [run, Loaded.invokeStatic] at failed
    obtain missing | ⟨⟨type, target⟩, between, found, failed⟩ := bind_eq_error_iff.1 failed
    · exact absurd ((staticMethod_meets typeName name args.length).fault missing) lies
    · have known : m.staticMethod typeName name args.length = .ok (type, target) :=
        congrArg Prod.fst found
      have unchanged : heap = between := congrArg Prod.snd found
      subst unchanged
      exact ⟨_, .invokeStatic known, failed⟩

/-- A run ends with a fault in a body exactly if the action of a frame of the run ends so. -/
theorem run_fault_iff (fault : e.isBodyFault = true) :
    (entry.run m heap).1 = .error e ↔ ∃ a frame heap', entry.Activates m heap a ∧
      a.Holds m frame heap' ∧ (m.action frame heap').1 = .error e := by
  constructor
  · intro h
    have failed : entry.run m heap = (.error e, (entry.run m heap).2) := Prod.ext h rfl
    obtain ⟨a, starts, failed⟩ := starts_of_fault fault failed
    obtain ⟨b, frame, heap', reached, held, acted⟩ :=
      Activation.fault_origin fault a.levels a rfl starts.known failed
    exact ⟨b, frame, heap', ⟨a, starts, reached⟩, held, congrArg Prod.fst acted⟩
  · rintro ⟨a, frame, heap', ⟨first, starts, reached⟩, held, acted⟩
    have known := starts.known
    have act : m.action frame heap' = (.error e, (m.action frame heap').2) := Prod.ext acted rfl
    have step : m.step (a.callees m) frame heap' = (.error e, (m.action frame heap').2) :=
      bind_error act
    have failed := known.run_error reached (held.run_error (known.reached reached) step)
    exact congrArg Prod.fst (starts.run_error failed)

end Entry

end FluentWrappers.Machine
