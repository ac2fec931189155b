import FluentWrappers.Proofs.Machine.Lockstep
import FluentWrappers.Proofs.Verification.Printing

/-!
# The three readers of a body

A body is read by the check, by the listing and by the machine that runs it. The first two read every
code alike, as the printed lines of a method tell, and the machine, which runs checked bodies only, reads
the instructions of the check one after the other and comes to an end with the last of them.
-/

namespace FluentWrappers.Machine

open Binary Fallible Loaded

/-- An activation reads the instructions of its method in order, each of them with its operand, and
nothing else of the code. -/
structure Activation.ReadsInOrder (m : Loaded) (a : Activation) : Prop where
  parsed : CodeInstruction.parse a.method.code = .ok a.method.instructions
  /-- After a number of instructions the machine reads the next one, does what this one asks for, and
  goes on behind it unless it is the return, which is the last. -/
  frames : ∀ count frame heap, a.HoldsAfter m count frame heap → ∃ i next,
    a.method.instructions[count]? = some i ∧ frame.code.buffer = a.method.code ∧
      i.ReadsFrom frame.code next ∧
      Read.opcode frame.code = (.ok i.opcode, frame.code.advance 1) ∧
      m.action frame heap = m.perform i { frame with code := next } heap ∧
      (∀ later heap', m.step (a.callees m) frame heap = (.ok (.next later), heap') →
        later.code = next) ∧
      (i.opcode = .ret ↔ count + 1 = a.method.instructions.length)
  /-- A result is given by the last instruction. -/
  results : ∀ value heap', a.run m = (.ok value, heap') → ∃ frame heap,
    a.HoldsAfter m (a.method.instructions.length - 1) frame heap ∧
      m.action frame heap = (.ok (.done value), heap')

variable {m : Loaded} {a : Activation} {frame : Frame} {heap : Heap} {count : Nat}

theorem Activation.Tracks.ret_iff {i : CodeInstruction} {done rest : List CodeInstruction}
    {depth : Nat} (h : a.Tracks m frame done (i :: rest) depth) :
    i.opcode = .ret ↔ done.length + 1 = a.method.instructions.length := by
  rw [h.walked.split, List.length_append, List.length_cons]
  constructor
  · intro ret
    rw [(h.walked.at_return ret).1]
    rfl
  · intro last
    have none : rest = [] := List.eq_nil_of_length_eq_zero (by omega)
    obtain ⟨ret, _⟩ | ⟨_, ends⟩ := Method.endsWithOnlyReturn_cons h.walked.ends
    · exact ret
    · rw [none] at ends
      cases ends

theorem Activation.readsInOrder (known : a.Known m) : a.ReadsInOrder m where
  parsed := Method.parse_of_checkBody known.checked
  frames := by
    intro count frame heap held
    obtain ⟨done, i, rest, depth, tracks, rfl⟩ := held.tracks known
    obtain ⟨next, reads, parsed⟩ := tracks.walked.parsed.cons
    refine ⟨i, next, ?_, tracks.walked.buffer, reads, readOpcode_eq reads,
      action_eq_perform m reads heap, fun later heap' step => ?_, tracks.ret_iff⟩
    · rw [tracks.walked.split, List.getElem?_append_right (Nat.le_refl _), Nat.sub_self]
      rfl
    · obtain ⟨-, -, next', reads', -, resized⟩ := tracks.step_next step
      rw [reads.length, ← reads'.length]
      exact resized.code
  results := by
    intro value heap' run
    obtain ⟨frame, heap, held, -, acted⟩ := returns known run
    obtain ⟨count, after⟩ := held.after
    obtain ⟨done, i, rest, depth, tracks, rfl⟩ := after.tracks known
    obtain ⟨_, _, _, _, ret⟩ := tracks.action_ok acted
    have last := tracks.ret_iff.1 ret
    refine ⟨frame, heap, ?_, acted⟩
    rw [← last, Nat.add_sub_cancel]
    exact after

/-- The check, the listing and the machine agree on what a code is, and the printed lines of a method with
this code say so. -/
theorem decoders_agree (code : List UInt8) : ListedAsRead code ∧
    (∀ (refs : List MemberReference) (m : Method), m.isAbstract = false → m.code = code →
      m.PrintedAsRead refs) ∧
    ∀ (m : Loaded) (a : Activation), a.Known m → a.method.code = code → a.ReadsInOrder m :=
  ⟨listedAsRead code, fun refs _ concrete _ => Method.printedAsRead refs concrete,
    fun _ _ known _ => Activation.readsInOrder known⟩

/-- A run of the method that makes an object and calls it. -/
def going : Activation where
  levels := 2
  type := wellBehaved.types.getD 2 default
  method := (wellBehaved.types.getD 2 default).methods.getD 0 default
  args := [.int 7]
  heap := Heap.empty

theorem decoders_agree_going :
    going.Known loadedWellBehaved ∧ ListedAsRead going.method.code ∧
      going.method.PrintedAsRead wellBehaved.memberRefs ∧ going.ReadsInOrder loadedWellBehaved ∧
      going.method.instructions.length = 4 := by
  have known : going.Known loadedWellBehaved := ⟨by decide +kernel, by decide +kernel⟩
  have concrete : going.method.isAbstract = false := by decide +kernel
  obtain ⟨listed, printed, reads⟩ := decoders_agree going.method.code
  exact ⟨known, listed, printed _ _ concrete rfl, reads loadedWellBehaved going known rfl,
    by decide +kernel⟩

end FluentWrappers.Machine
