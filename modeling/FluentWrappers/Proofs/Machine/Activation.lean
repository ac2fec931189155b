import FluentWrappers.Proofs.Machine.Resolution
import Mathlib.Logic.Relation

/-!
# Runs as activations

A run consists of activations: methods that run on arguments, each at a depth. An activation holds a
frame before every instruction that it executes, and its calls and constructions activate further
methods. Each frame stands where the check of the body has computed a depth, and that depth is the one
of the operand stack and what is owed to it.
-/

namespace FluentWrappers.Machine

open Binary Fallible Loaded

/-! ### Activations and their frames -/

/-- A method that runs on arguments, with the heap at its start and the levels left for calls. -/
structure Activation where
  levels : Nat
  type : TypeDefinition
  method : Method
  args : List Value
  heap : Heap

/-- How the frames of an activation run methods and make objects with so many levels left below. -/
def Loaded.callees (m : Loaded) (levels : Nat) : Callees :=
  ⟨m.executeWithin levels, constructWith (m.executeWithin (levels - 1)) (m.allocateWithin levels)⟩

theorem Loaded.executeWithin_succ (m : Loaded) (levels : Nat) (type : TypeDefinition)
    (method : Method) (args : List Value) :
    m.executeWithin (levels + 1) type method args =
      if method.isAbstract then throw (.abstractMethod type.name method.name)
      else m.runFrame (m.callees levels) (method.code.length + 1) (Frame.start method args) := by
  cases levels <;> rfl

namespace Activation

def run (a : Activation) (m : Loaded) : Except RunError Value × Heap :=
  m.executeWithin a.levels a.type a.method a.args a.heap

def callees (a : Activation) (m : Loaded) : Callees := m.callees (a.levels - 1)

/-- The frames that an activation holds before its instructions, each with the heap at that time. -/
inductive Holds (m : Loaded) (a : Activation) : Frame → Heap → Prop
  | start {levels : Nat} (depth : a.levels = levels + 1) (concrete : a.method.isAbstract = false) :
    Holds m a (Frame.start a.method a.args) a.heap
  | next {frame later : Frame} {heap heap' : Heap} (held : Holds m a frame heap)
    (step : m.step (a.callees m) frame heap = (.ok (.next later), heap')) : Holds m a later heap'

/-- The activations that an activation starts: the methods that it calls and the constructors of the
objects that it makes. -/
inductive Calls (m : Loaded) (a : Activation) : Activation → Prop
  | method {frame later : Frame} {heap heap' : Heap} {member : MemberReference}
    {owner : TypeDefinition} {target : Method} {args : List Value} (held : a.Holds m frame heap)
    (action : m.action frame heap = (.ok (.call later member owner target args), heap')) :
    Calls m a ⟨a.levels - 1, owner, target, args, heap'⟩
  | constructor {frame later : Frame} {heap heap' heap'' : Heap} {type : TypeDefinition}
    {args : List Value} {made : Value} {constructor : Method} (held : a.Holds m frame heap)
    (action : m.action frame heap = (.ok (.construct later type args), heap'))
    (prepared : prepare (m.allocateWithin (a.levels - 1)) type args heap' =
      (.ok (made, some constructor), heap'')) :
    Calls m a ⟨a.levels - 2, type, constructor, made :: args, heap''⟩

end Activation

/-! ### Starting a run -/

/-- The ways to start a run. -/
inductive Entry where
  | newObject (typeName : String) (args : List Value)
  | invoke (receiver : Value) (name : String) (args : List Value)
  | invokeStatic (typeName name : String) (args : List Value)

namespace Entry

def run (m : Loaded) : Entry → Run Value
  | newObject typeName args => m.newObject typeName args
  | invoke receiver name args => m.invoke receiver name args
  | invokeStatic typeName name args => m.invokeStatic typeName name args

/-- The activation at the outermost level of a run from a heap, unless it fails before. -/
inductive Starts (m : Loaded) (heap : Heap) : Entry → Activation → Prop
  | newObject {typeName : String} {args : List Value} {type : TypeDefinition} {made : Value}
    {constructor : Method} {heap' : Heap} (found : m.lookup typeName = .ok type)
    (prepared : prepare (m.allocateWithin (maxCallDepth + 1)) type args heap =
      (.ok (made, some constructor), heap')) :
    Starts m heap (newObject typeName args) ⟨maxCallDepth, type, constructor, made :: args, heap'⟩
  | invoke {receiver : Value} {name : String} {args : List Value} {owner : TypeDefinition}
    {target : Method} {heap' : Heap}
    (found : m.instanceMethod receiver name args.length heap = (.ok (owner, target), heap')) :
    Starts m heap (invoke receiver name args)
      ⟨maxCallDepth + 1, owner, target, receiver :: args, heap'⟩
  | invokeStatic {typeName name : String} {args : List Value} {type : TypeDefinition}
    {target : Method} (found : m.staticMethod typeName name args.length = .ok (type, target)) :
    Starts m heap (invokeStatic typeName name args) ⟨maxCallDepth + 1, type, target, args, heap⟩

/-- The activations of a run: the outermost one and all that are called from it. -/
def Activates (m : Loaded) (heap : Heap) (entry : Entry) (a : Activation) : Prop :=
  ∃ first, entry.Starts m heap first ∧ Relation.ReflTransGen (Activation.Calls m) first a

end Entry

/-! ### What a step can do -/

namespace Loaded

variable {m : Loaded} {callees : Callees} {frame later : Frame} {heap heap' : Heap}

theorem step_eq_next (h : m.step callees frame heap = (.ok (.next later), heap')) :
    m.action frame heap = (.ok (.next later), heap') ∨
      (∃ before member owner target args between result,
        m.action frame heap = (.ok (.call before member owner target args), between) ∧
          callees.execute owner target args between = (.ok result, heap') ∧
          later = before.afterCall member result) ∨
      ∃ before type args between made,
        m.action frame heap = (.ok (.construct before type args), between) ∧
          callees.construct type args between = (.ok made, heap') ∧ later = before.push made := by
  unfold step at h
  obtain ⟨action, between, acted, h⟩ := bind_eq_ok_iff.1 h
  cases action with
  | next before =>
    cases h
    exact Or.inl acted
  | done result => cases h
  | call before member owner target args =>
    obtain ⟨result, t, called, last⟩ := bind_eq_ok_iff.1 h
    cases last
    exact Or.inr (Or.inl ⟨_, _, _, _, _, _, _, acted, called, rfl⟩)
  | construct before type args =>
    obtain ⟨made, t, constructed, last⟩ := bind_eq_ok_iff.1 h
    cases last
    exact Or.inr (Or.inr ⟨_, _, _, _, _, acted, constructed, rfl⟩)

theorem step_eq_done {result : Value}
    (h : m.step callees frame heap = (.ok (.done result), heap')) :
    m.action frame heap = (.ok (.done result), heap') := by
  unfold step at h
  obtain ⟨action, between, acted, h⟩ := bind_eq_ok_iff.1 h
  cases action with
  | next before => cases h
  | done result =>
    cases h
    exact acted
  | call before member owner target args =>
    obtain ⟨result, t, called, last⟩ := bind_eq_ok_iff.1 h
    cases last
  | construct before type args =>
    obtain ⟨made, t, constructed, last⟩ := bind_eq_ok_iff.1 h
    cases last

theorem step_eq_error {e : RunError} (h : m.step callees frame heap = (.error e, heap')) :
    m.action frame heap = (.error e, heap') ∨
      (∃ before member owner target args between,
        m.action frame heap = (.ok (.call before member owner target args), between) ∧
          callees.execute owner target args between = (.error e, heap')) ∨
      ∃ before type args between,
        m.action frame heap = (.ok (.construct before type args), between) ∧
          callees.construct type args between = (.error e, heap') := by
  unfold step at h
  obtain failed | ⟨action, between, acted, h⟩ := bind_eq_error_iff.1 h
  · exact Or.inl failed
  cases action with
  | next before => cases h
  | done result => cases h
  | call before member owner target args =>
    obtain failed | ⟨result, t, called, last⟩ := bind_eq_error_iff.1 h
    · exact Or.inr (Or.inl ⟨_, _, _, _, _, _, acted, failed⟩)
    · cases last
  | construct before type args =>
    obtain failed | ⟨made, t, constructed, last⟩ := bind_eq_error_iff.1 h
    · exact Or.inr (Or.inr ⟨_, _, _, _, acted, failed⟩)
    · cases last

end Loaded

/-! ### Frames and the check of their bodies -/

/-- The activation runs a method of a type of the artifact. -/
structure Activation.Known (m : Loaded) (a : Activation) : Prop where
  type : a.type ∈ m.artifact.types
  method : a.method ∈ a.type.methods

/-- How many operands more the check counts than the machine has after some instructions. -/
def owed (refs : List MemberReference) : List CodeInstruction → Nat
  | [] => 0
  | i :: rest => i.overcount refs + owed refs rest

theorem owed_append (refs : List MemberReference) (xs ys : List CodeInstruction) :
    owed refs (xs ++ ys) = owed refs xs + owed refs ys := by
  induction xs with
  | nil => exact (Nat.zero_add _).symm
  | cons i rest ih => rw [List.cons_append, owed, owed, ih, Nat.add_assoc]

theorem owed_pos_iff {refs : List MemberReference} {instructions : List CodeInstruction} :
    0 < owed refs instructions ↔ ∃ i ∈ instructions, 0 < i.overcount refs := by
  induction instructions with
  | nil => simp [owed]
  | cons i rest ih =>
    simp only [owed, List.mem_cons, exists_eq_or_imp, ← ih]
    omega

/-- The frame of an activation stands where the walk over the body has passed some instructions, and
the depth of the walk is that of the operand stack and what is owed to it. -/
structure Activation.Tracks (m : Loaded) (a : Activation) (frame : Frame)
    (done rest : List CodeInstruction) (depth : Nat) : Prop where
  method : frame.method = a.method
  args : frame.args = a.args
  walked : a.method.WalkedTo m.artifact.memberRefs frame.code done rest depth
  balance : depth = frame.stack.length + owed m.artifact.memberRefs done

namespace Activation

variable {m : Loaded} {a : Activation} {frame : Frame} {heap : Heap} {i : CodeInstruction}
  {done rest : List CodeInstruction} {depth : Nat}

theorem Known.checked (known : a.Known m) : a.method.checkBody m.artifact.memberRefs = .ok () :=
  Artifact.verify_body m.verified known.type known.method

theorem tracks_start (known : a.Known m) (concrete : a.method.isAbstract = false) :
    a.Tracks m (Frame.start a.method a.args) [] a.method.instructions 0 :=
  ⟨rfl, rfl, Method.walkedTo_start known.checked concrete, rfl⟩

namespace Tracks

/-- What the action of a tracked frame comes to if it has the operands. -/
theorem action_meets (h : a.Tracks m frame done (i :: rest) depth)
    (enough : i.takes m.artifact.memberRefs a.method.results ≤ frame.stack.length) :
    ∃ next, i.ReadsFrom frame.code next ∧ CodeInstruction.ParsesTo next rest ∧
      Meets (m.action frame) heap (m.Fits i { frame with code := next })
        (Excusable frame) := by
  obtain ⟨effect, accepted⟩ := h.walked.accepted
  obtain ⟨next, reads, parsed⟩ := h.walked.parsed.cons
  refine ⟨next, reads, parsed, ?_⟩
  unfold Meets
  rw [action_eq_perform m reads]
  rw [← h.method] at accepted enough
  let later : Frame := { frame with code := next }
  have accepted : i.stackEffect m.artifact.memberRefs later.method.argSlots = .ok effect := accepted
  exact perform_meets accepted enough

/-- The action of a tracked frame without the operands. -/
theorem action_short (h : a.Tracks m frame done (i :: rest) depth)
    (few : frame.stack.length < i.takes m.artifact.memberRefs a.method.results) :
    m.action frame heap = (.error .stackUnderflow, heap) := by
  obtain ⟨effect, accepted⟩ := h.walked.accepted
  obtain ⟨next, reads, parsed⟩ := h.walked.parsed.cons
  rw [action_eq_perform m reads]
  rw [← h.method] at accepted few
  let later : Frame := { frame with code := next }
  have accepted : i.stackEffect m.artifact.memberRefs later.method.argSlots = .ok effect := accepted
  exact perform_short accepted few

theorem action_ok {act : Action} {heap' : Heap} (h : a.Tracks m frame done (i :: rest) depth)
    (run : m.action frame heap = (.ok act, heap')) :
    i.takes m.artifact.memberRefs a.method.results ≤ frame.stack.length ∧
      ∃ next, i.ReadsFrom frame.code next ∧ CodeInstruction.ParsesTo next rest ∧
        m.Fits i { frame with code := next } act := by
  by_cases few : frame.stack.length < i.takes m.artifact.memberRefs a.method.results
  · rw [h.action_short few] at run
    cases run
  · have enough := Nat.not_lt.1 few
    obtain ⟨next, reads, parsed, meets⟩ := h.action_meets enough
    exact ⟨enough, next, reads, parsed, meets.result run⟩

/-- A step that goes on is one of an instruction that is no return, and the frame has moved past it
and has the operands of the machine's table. -/
theorem step_next {callees : Callees} {later : Frame} {heap' : Heap}
    (h : a.Tracks m frame done (i :: rest) depth)
    (step : m.step callees frame heap = (.ok (.next later), heap')) :
    i.opcode ≠ .ret ∧ i.takes m.artifact.memberRefs a.method.results ≤ frame.stack.length ∧
      ∃ next, i.ReadsFrom frame.code next ∧ CodeInstruction.ParsesTo next rest ∧
        Frame.Resized { frame with code := next } later
          (frame.stack.length - i.takes m.artifact.memberRefs a.method.results +
            i.leaves m.artifact.memberRefs) := by
  obtain acted | ⟨before, member, owner, target, args, between, result, acted, _, rfl⟩ |
    ⟨before, type, args, between, made, acted, _, rfl⟩ := step_eq_next step
  · obtain ⟨enough, next, reads, parsed, plain, resized⟩ := h.action_ok acted
    rw [← h.method] at enough ⊢
    exact ⟨plain, enough, next, reads, parsed, resized⟩
  · obtain ⟨enough, next, reads, parsed, _, targets, leaves, resized⟩ := h.action_ok acted
    have plain : i.opcode ≠ .ret := by
      intro ret
      cases targets with
      | direct op => rw [ret] at op; cases op
      | virtual op => rw [ret] at op; cases op
    rw [← h.method] at enough ⊢
    refine ⟨plain, enough, next, reads, parsed, ?_⟩
    rw [leaves]
    unfold Frame.afterCall
    split
    · exact ⟨resized.method, resized.args, resized.code, congrArg (· + 1) resized.length⟩
    · exact resized
  · obtain ⟨enough, next, reads, parsed, op, _, resized⟩ := h.action_ok acted
    have plain : i.opcode ≠ .ret := by rw [op]; exact Opcode.noConfusion
    have leaves : i.leaves m.artifact.memberRefs = 1 := by
      unfold CodeInstruction.leaves
      rw [op]
    rw [← h.method] at enough ⊢
    refine ⟨plain, enough, next, reads, parsed, ?_⟩
    rw [leaves]
    exact ⟨resized.method, resized.args, resized.code, congrArg (· + 1) resized.length⟩

theorem next {callees : Callees} {later : Frame} {heap' : Heap}
    (h : a.Tracks m frame done (i :: rest) depth)
    (step : m.step callees frame heap = (.ok (.next later), heap')) :
    ∃ depth', a.Tracks m later (done ++ [i]) rest depth' ∧
      later.code.remaining < frame.code.remaining := by
  obtain ⟨plain, enough, next, reads, parsed, resized⟩ := h.step_next step
  obtain ⟨depth', after, walked⟩ := h.walked.step plain reads parsed
  obtain ⟨pops, pushes, effect, popped, rfl, _⟩ := Method.depthAfter_eq_ok after
  obtain ⟨_, _, balance⟩ := CodeInstruction.effect_balance a.method.results effect plain
  have code : later.code = next := resized.code
  rw [← code] at walked
  refine ⟨_, ⟨resized.method.trans h.method, resized.args.trans h.args, walked, ?_⟩, ?_⟩
  · have before := h.balance
    have length := resized.length
    rw [owed_append, owed, owed]
    omega
  · have within := reads.within
    rw [code, reads.length]
    simp only [Reader.remaining, Reader.advance]
    omega

end Tracks

/-- The frame that an activation holds after a number of instructions. -/
inductive HoldsAfter (m : Loaded) (a : Activation) : Nat → Frame → Heap → Prop
  | start {levels : Nat} (depth : a.levels = levels + 1) (concrete : a.method.isAbstract = false) :
    HoldsAfter m a 0 (Frame.start a.method a.args) a.heap
  | next {count : Nat} {frame later : Frame} {heap heap' : Heap}
    (held : HoldsAfter m a count frame heap)
    (step : m.step (a.callees m) frame heap = (.ok (.next later), heap')) :
    HoldsAfter m a (count + 1) later heap'

theorem Holds.after (held : a.Holds m frame heap) : ∃ count, a.HoldsAfter m count frame heap := by
  induction held with
  | start depth concrete => exact ⟨0, .start depth concrete⟩
  | next _ step ih =>
    obtain ⟨count, held⟩ := ih
    exact ⟨count + 1, held.next step⟩

/-- After a number of instructions the frame stands in front of the next one of the walk. -/
theorem HoldsAfter.tracks {count : Nat} (known : a.Known m) (held : a.HoldsAfter m count frame heap) :
    ∃ done i rest depth, a.Tracks m frame done (i :: rest) depth ∧ done.length = count := by
  have walk : ∃ done rest depth, a.Tracks m frame done rest depth ∧ done.length = count := by
    induction held with
    | start depth concrete => exact ⟨_, _, _, tracks_start known concrete, rfl⟩
    | next held step ih =>
      obtain ⟨done, rest, depth, tracks, length⟩ := ih
      cases rest with
      | nil => exact absurd rfl tracks.walked.rest_ne_nil
      | cons i rest =>
        obtain ⟨depth', tracks', _⟩ := tracks.next step
        exact ⟨_, _, _, tracks', by rw [List.length_append, length, List.length_singleton]⟩
  obtain ⟨done, rest, depth, tracks, length⟩ := walk
  cases rest with
  | nil => exact absurd rfl tracks.walked.rest_ne_nil
  | cons i rest => exact ⟨done, i, rest, depth, tracks, length⟩

/-- Every frame that an activation holds stands in front of an instruction of the walk. -/
theorem Holds.tracks (known : a.Known m) (held : a.Holds m frame heap) :
    ∃ done i rest depth, a.Tracks m frame done (i :: rest) depth := by
  obtain ⟨count, after⟩ := held.after
  obtain ⟨done, i, rest, depth, tracks, -⟩ := after.tracks known
  exact ⟨done, i, rest, depth, tracks⟩

end Activation

end FluentWrappers.Machine
