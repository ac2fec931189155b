import FluentWrappers.Proofs.Machine.Outcome

/-!
# The depth of the operand stack

The check of a body computes a depth before every instruction. On the machine the operand stack is
shorter by what is owed to it: the values that the check counted and no instruction left. So the stack
keeps within its declared depth in every run, and a run underflows exactly if it comes to an
instruction whose operands are among those owed.
-/

namespace FluentWrappers

open Machine Loaded

/-! ### What is owed at an offset -/

namespace Method

/-- How many operands more the check counts at an offset of a body than the machine has there. -/
def owedAt (refs : List MemberReference) (m : Method) (offset : Nat) : Nat :=
  owed refs (m.before offset)

/-- The instruction at an offset takes more operands than the machine has there. -/
def ShortAt (refs : List MemberReference) (m : Method) (offset : Nat) : Prop :=
  ∃ i ∈ m.instructions, i.offset = offset ∧ ∃ depth, m.depthAt refs offset = .ok depth ∧
    depth < m.owedAt refs offset + i.takes refs m.results

variable {refs : List MemberReference} {m : Method} {r : Binary.Reader}
  {done rest : List CodeInstruction} {i : CodeInstruction} {depth : Nat}

theorem shortAt_iff (walked : m.WalkedTo refs r done (i :: rest) depth)
    (h : m.checkBody refs = .ok ()) (concrete : m.isAbstract = false) :
    m.ShortAt refs r.position ↔ depth < owed refs done + i.takes refs m.results := by
  have here : i ∈ m.instructions := by
    rw [walked.split]
    exact List.mem_append_right _ List.mem_cons_self
  unfold ShortAt owedAt
  rw [walked.before_eq, walked.depthAt_eq]
  constructor
  · rintro ⟨j, hj, same, _, reached, short⟩
    cases reached
    obtain ⟨r', done', rest', depth', walked'⟩ := walkedTo_of_mem h concrete hj
    have position : r'.position = r.position := by rw [← walked'.offset_eq, same]
    obtain ⟨rfl, _, _⟩ := walked'.unique walked position
    exact short
  · intro short
    exact ⟨i, here, walked.offset_eq, depth, rfl, short⟩

/-- An instruction for which nothing is owed finds what it takes, if nothing was owed before. -/
theorem balanced_takes (walked : m.WalkedTo refs r done (i :: rest) depth)
    (none : i.overcount refs = 0) : i.takes refs m.results ≤ depth := by
  by_cases ret : i.opcode = .ret
  · have reached := (walked.at_return ret).2
    have taken : i.takes refs m.results = m.results := CodeInstruction.takes_of_ret ret
    omega
  · obtain ⟨next, reads, parsed⟩ := walked.parsed.cons
    obtain ⟨depth', after, _⟩ := walked.step ret reads parsed
    obtain ⟨pops, pushes, effect, enough, _⟩ := depthAfter_eq_ok after
    obtain ⟨_, _, balance⟩ := CodeInstruction.effect_balance m.results effect ret
    omega

/-- A body falls short of operands somewhere exactly if the check counts a value too much somewhere:
what is owed at all is owed to the return. -/
theorem exists_shortAt_iff (h : m.checkBody refs = .ok ()) :
    (∃ offset, m.ShortAt refs offset) ↔ ∃ i ∈ m.instructions, i.Miscounted refs := by
  simp only [← CodeInstruction.overcount_pos_iff]
  cases abstract : m.isAbstract with
  | true =>
    have none := instructions_of_abstract h abstract
    unfold ShortAt
    rw [none]
    simp
  | false =>
    rw [← owed_pos_iff]
    constructor
    · rintro ⟨offset, short⟩
      obtain ⟨i, hi, rfl, _⟩ := id short
      obtain ⟨r, done, rest, depth, walked⟩ := walkedTo_of_mem h abstract hi
      rw [walked.offset_eq, shortAt_iff walked h abstract] at short
      rw [walked.split, owed_append, owed]
      by_cases none : i.overcount refs = 0
      · have enough := balanced_takes walked none
        omega
      · omega
    · intro owing
      obtain ⟨r, done, i, walked, ret⟩ := walkedTo_return h abstract
      refine ⟨r.position, (shortAt_iff walked h abstract).2 ?_⟩
      rw [walked.split, owed_append, owed, owed, CodeInstruction.overcount_of_ret ret] at owing
      rw [CodeInstruction.takes_of_ret ret]
      omega

end Method

/-! ### The stack of a run -/

namespace Machine

variable {m : Loaded} {a : Activation} {frame : Frame} {heap : Heap}

theorem Activation.Holds.concrete (held : a.Holds m frame heap) : a.method.isAbstract = false := by
  induction held with
  | start _ concrete => exact concrete
  | next _ _ ih => exact ih

theorem stack_bounded (known : a.Known m) (held : a.Holds m frame heap) :
    frame.stack.length ≤ frame.method.maxStack.toNat := by
  obtain ⟨done, i, rest, depth, tracks⟩ := held.tracks known
  have bounded := tracks.walked.bounded
  have balance := tracks.balance
  rw [tracks.method]
  omega

theorem action_underflow_iff (known : a.Known m) (held : a.Holds m frame heap) :
    (m.action frame heap).1 = .error .stackUnderflow ↔
      a.method.ShortAt m.artifact.memberRefs frame.code.position := by
  obtain ⟨done, i, rest, depth, tracks⟩ := held.tracks known
  rw [Method.shortAt_iff tracks.walked known.checked held.concrete, tracks.balance,
    Nat.add_comm, Nat.add_lt_add_iff_left]
  constructor
  · intro failed
    by_cases few : frame.stack.length < i.takes m.artifact.memberRefs a.method.results
    · exact few
    · have run : m.action frame heap = (.error .stackUnderflow, (m.action frame heap).2) :=
        Prod.ext failed rfl
      obtain ⟨_, _, _, meets⟩ := tracks.action_meets (Nat.not_lt.1 few)
      obtain harmless | ⟨_, index, operand⟩ := meets.fault run
      · cases harmless
      · cases operand
  · intro few
    rw [tracks.action_short few]

/-- In every run of an accepted artifact each frame keeps within the declared depth of its method, and
the run underflows exactly if one of its frames comes to an instruction that finds too few operands.
The methods with such an instruction are those with a call that the check miscounts. -/
theorem run_stack (m : Loaded) (entry : Entry) (heap : Heap) :
    (∀ a frame heap', entry.Activates m heap a → a.Holds m frame heap' →
        frame.stack.length ≤ frame.method.maxStack.toNat) ∧
      ((entry.run m heap).1 = .error .stackUnderflow ↔
        ∃ a frame heap', entry.Activates m heap a ∧ a.Holds m frame heap' ∧
          a.method.ShortAt m.artifact.memberRefs frame.code.position) ∧
      ∀ t ∈ m.artifact.types, ∀ method ∈ t.methods,
        (∃ offset, method.ShortAt m.artifact.memberRefs offset) ↔
          ∃ i ∈ method.instructions, i.Miscounted m.artifact.memberRefs := by
  refine ⟨?_, ?_, ?_⟩
  · intro a frame heap' activates held
    exact stack_bounded activates.known held
  · rw [Entry.run_fault_iff rfl]
    constructor
    · rintro ⟨a, frame, heap', activates, held, failed⟩
      exact ⟨a, frame, heap', activates, held, (action_underflow_iff activates.known held).1 failed⟩
    · rintro ⟨a, frame, heap', activates, held, short⟩
      exact ⟨a, frame, heap', activates, held, (action_underflow_iff activates.known held).2 short⟩
  · intro t ht method hm
    exact Method.exists_shortAt_iff (Artifact.verify_body m.verified ht hm)

/-- A method that only calls the root constructor, through a static reference. -/
def staticRootCall : Artifact where
  memberRefs := [⟨.method, rootObject, constructorName, 0, false, true⟩]
  types := [{ name := "A", kind := .classType, methods := [⟨"f", .publicAccess, MethodFlag.isStatic, [],
    .void, none, 0, Opcode.call.byte :: [0, 0, 0, 0] ++ [Opcode.ret.byte]⟩] }]
  metadata := { name := "" }

/-- The artifact is accepted and underflows. -/
theorem staticRootCall_underflows : ∃ verified : staticRootCall.verify = .ok (),
    ((Entry.invokeStatic "A" "f" []).run ⟨staticRootCall, verified⟩ Heap.empty).1 =
      .error .stackUnderflow :=
  ⟨rfl, rfl⟩

end Machine

end FluentWrappers
