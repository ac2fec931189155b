import FluentWrappers.Proofs.Verification.Acceptance
import FluentWrappers.Synthesis.Body
import Mathlib.Algebra.Ring.Nat
import Mathlib.Data.List.Infix

/-!
# Well-stacked bodies

A builder accepts an instruction exactly if the stack holds what it pops and no return came before.
So what it accepted is well stacked at any time, and of a sequence it accepts all exactly if the
sequence is well stacked. Its depth is what the accepted instructions pushed less what they popped.
-/

namespace FluentWrappers.Synthesis

namespace Instruction

/-! ### The stack along instructions -/

def popsOf (instructions : List Instruction) : Nat :=
  (instructions.map fun i => i.stackEffect.1).sum

def pushesOf (instructions : List Instruction) : Nat :=
  (instructions.map fun i => i.stackEffect.2).sum

/-- The depth of the stack after each of the instructions, if it was empty before them. -/
def depthsAfter (instructions : List Instruction) : List Nat :=
  instructions.inits.tail.map fun done => pushesOf done - popsOf done

@[simp] theorem popsOf_concat (instructions : List Instruction) (i : Instruction) :
    popsOf (instructions ++ [i]) = popsOf instructions + i.stackEffect.1 := by
  simp [popsOf]

@[simp] theorem pushesOf_concat (instructions : List Instruction) (i : Instruction) :
    pushesOf (instructions ++ [i]) = pushesOf instructions + i.stackEffect.2 := by
  simp [pushesOf]

theorem depthsAfter_concat (instructions : List Instruction) (i : Instruction) :
    depthsAfter (instructions ++ [i]) = depthsAfter instructions ++
      [pushesOf instructions + i.stackEffect.2 - (popsOf instructions + i.stackEffect.1)] := by
  have tail : (instructions ++ [i]).inits.tail =
      instructions.inits.tail ++ [instructions ++ [i]] := by
    rw [List.inits_append]
    cases instructions <;> rfl
  unfold depthsAfter
  rw [tail, List.map_append, List.map_singleton, popsOf_concat, pushesOf_concat]

theorem stackEffect_le_one (i : Instruction) : i.stackEffect.2 ≤ 1 := by
  cases i with
  | call m | callVirt m =>
    show (if m.returns then 1 else 0) ≤ 1
    split <;> decide
  | newObj _ | loadThis | loadArg _ | loadField _ => exact Nat.le_refl 1
  | storeField _ | ret => exact Nat.zero_le 1

/-- No instruction pops what is not on the stack, and none follows a return. -/
structure WellStacked (instructions : List Instruction) : Prop where
  enough : ∀ done i, done ++ [i] <+: instructions → popsOf (done ++ [i]) ≤ pushesOf done
  straight : ∀ done i, done ++ [i] <+: instructions → .ret ∉ done

variable {instructions more : List Instruction} {i : Instruction}

theorem wellStacked_nil : WellStacked [] := by
  constructor <;> simp

theorem WellStacked.of_append (h : WellStacked (instructions ++ more)) : WellStacked instructions :=
  ⟨fun done i before => h.enough done i (before.trans (List.prefix_append _ _)),
    fun done i before => h.straight done i (before.trans (List.prefix_append _ _))⟩

theorem wellStacked_concat_iff : WellStacked (instructions ++ [i]) ↔ WellStacked instructions ∧
    .ret ∉ instructions ∧ popsOf instructions + i.stackEffect.1 ≤ pushesOf instructions := by
  constructor
  · intro h
    have enough := h.enough instructions i List.prefix_rfl
    rw [popsOf_concat] at enough
    exact ⟨h.of_append, h.straight instructions i List.prefix_rfl, enough⟩
  · rintro ⟨h, isOpen, enough⟩
    rw [← popsOf_concat] at enough
    constructor <;> intro done j before
    · rcases List.prefix_concat_iff.1 before with same | before
      · obtain ⟨rfl, sameLast⟩ := List.append_inj' same rfl
        cases sameLast
        exact enough
      · exact h.enough done j before
    · rcases List.prefix_concat_iff.1 before with same | before
      · obtain ⟨rfl, -⟩ := List.append_inj' same rfl
        exact isOpen
      · exact h.straight done j before

/-- A return is the last instruction if there is one. -/
theorem WellStacked.ret_mem_iff (h : WellStacked instructions) :
    .ret ∈ instructions ↔ instructions.getLast? = some .ret := by
  constructor
  · intro isIn
    obtain ⟨done, after, rfl⟩ := List.append_of_mem isIn
    rcases List.eq_nil_or_concat after with rfl | ⟨between, last, rfl⟩
    · simp
    · have whole : done ++ .ret :: between.concat last = (done ++ .ret :: between) ++ [last] := by
        simp
      rw [whole] at h
      exact absurd (by simp) (h.straight (done ++ .ret :: between) last List.prefix_rfl)
  · exact List.mem_of_getLast?

end Instruction

open Instruction

namespace BodyBuilder

/-! ### Steps of a builder -/

variable {b c : BodyBuilder} {i : Instruction} {instructions : List Instruction}

theorem of_emit (emitted : b.emit i = .ok c) : b.returned = false ∧ i.stackEffect.1 ≤ b.depth ∧
    c.depth = b.depth - i.stackEffect.1 + i.stackEffect.2 ∧
      c.maxDepth = max b.maxDepth c.depth ∧ c.returned = (i == .ret) := by
  unfold emit at emitted
  split at emitted
  case isTrue => cases emitted
  case isFalse isOpen =>
    dsimp only at emitted
    split at emitted
    case isTrue => cases emitted
    case isFalse enough =>
      cases emitted
      exact ⟨Bool.eq_false_iff.2 isOpen, Nat.not_lt.1 enough, rfl, rfl, rfl⟩

/-- The account that a builder keeps is that of the instructions it accepted. -/
structure Accurate (b : BodyBuilder) : Prop where
  stacked : WellStacked b.instructions
  depth : b.depth + popsOf b.instructions = pushesOf b.instructions
  maxDepth : b.maxDepth = (depthsAfter b.instructions).foldl max 0
  returned : b.returned = true ↔ .ret ∈ b.instructions

theorem accurate_empty : empty.Accurate :=
  ⟨wellStacked_nil, rfl, rfl, by simp [empty, instructions]⟩

theorem Accurate.emit (h : b.Accurate) (emitted : b.emit i = .ok c) : c.Accurate := by
  obtain ⟨isOpen, enough, depth, maxDepth, returned⟩ := of_emit emitted
  have unreturned : .ret ∉ b.instructions := fun isIn => by
    rw [h.returned.2 isIn] at isOpen
    cases isOpen
  have account := h.depth
  constructor <;> rw [instructions_emit emitted]
  · exact wellStacked_concat_iff.2 ⟨h.stacked, unreturned, by omega⟩
  · rw [popsOf_concat, pushesOf_concat]
    omega
  · have after : pushesOf b.instructions + i.stackEffect.2 -
        (popsOf b.instructions + i.stackEffect.1) = c.depth := by omega
    rw [depthsAfter_concat, List.foldl_concat, after, maxDepth, h.maxDepth]
  · rw [returned, List.mem_append, List.mem_singleton, beq_iff_eq, or_iff_right unreturned, eq_comm]

theorem Accurate.emits (h : b.Accurate) (emits : instructions.foldlM BodyBuilder.emit b = .ok c) :
    c.Accurate ∧ c.instructions = b.instructions ++ instructions := by
  induction instructions generalizing b with
  | nil =>
    cases emits
    exact ⟨h, (List.append_nil _).symm⟩
  | cons i rest ih =>
    rw [List.foldlM_cons] at emits
    obtain ⟨next, emitted, emits⟩ := Check.bind_eq_ok_iff.1 emits
    obtain ⟨accurate, same⟩ := ih (h.emit emitted) emits
    rw [instructions_emit emitted, List.append_assoc] at same
    exact ⟨accurate, same⟩

/-! ### Attempts -/

/-- Attempts one after the other: how each was answered, and the builder after them. -/
def attempts (b : BodyBuilder) : List Instruction → List (Except BuildFault Unit) × BodyBuilder
  | [] => ([], b)
  | i :: rest =>
    let (answer, next) := b.emitTimes i 1
    let (answers, last) := next.attempts rest
    (answer :: answers, last)

theorem attempts_cons_of_ok {rest : List Instruction} (emitted : b.emit i = .ok c) :
    b.attempts (i :: rest) = (.ok () :: (c.attempts rest).1, (c.attempts rest).2) := by
  simp [attempts, emitTimes, emitted]

theorem attempts_cons_of_error {rest : List Instruction} {fault : BuildFault}
    (refused : b.emit i = .error fault) :
    b.attempts (i :: rest) = (.error fault :: (b.attempts rest).1, (b.attempts rest).2) := by
  simp [attempts, emitTimes, refused]

/-- The attempts that were answered without a fault. -/
def accepted : List Instruction → List (Except BuildFault Unit) → List Instruction
  | i :: tries, .ok () :: answers => i :: accepted tries answers
  | _ :: tries, .error _ :: answers => accepted tries answers
  | _, _ => []

/-- How a builder answers an attempt. -/
inductive Answers (b : BodyBuilder) (i : Instruction) : Except BuildFault Unit → BodyBuilder → Prop
  | accepts {c : BodyBuilder} (stacked : WellStacked (b.instructions ++ [i]))
      (appended : c.instructions = b.instructions ++ [i]) : Answers b i (.ok ()) c
  | afterReturn (returned : .ret ∈ b.instructions) : Answers b i (.error (.afterReturn i)) b
  | underflow (isOpen : .ret ∉ b.instructions) (short : b.depth < i.stackEffect.1) :
      Answers b i (.error (.stackUnderflow i b.depth)) b

theorem Accurate.attempt (h : b.Accurate) (i : Instruction) :
    b.Answers i (b.emitTimes i 1).1 (b.emitTimes i 1).2 := by
  unfold emitTimes
  cases emitted : b.emit i with
  | ok c =>
    have stacked := (h.emit emitted).stacked
    rw [instructions_emit emitted] at stacked
    exact .accepts stacked (instructions_emit emitted)
  | error fault =>
    unfold BodyBuilder.emit at emitted
    split at emitted
    case isTrue returned =>
      cases emitted
      exact .afterReturn (h.returned.1 returned)
    case isFalse isOpen =>
      dsimp only at emitted
      split at emitted
      case isTrue short =>
        cases emitted
        exact .underflow (mt h.returned.2 isOpen) short
      case isFalse => cases emitted

/-- Refused attempts leave no trace: the accepted ones alone lead to the same builder. -/
theorem emits_accepted (b : BodyBuilder) (tries : List Instruction) :
    (accepted tries (b.attempts tries).1).foldlM BodyBuilder.emit b = .ok (b.attempts tries).2 := by
  induction tries generalizing b with
  | nil => rfl
  | cons i rest ih =>
    cases emitted : b.emit i with
    | ok c =>
      rw [attempts_cons_of_ok emitted]
      simp only [accepted, List.foldlM_cons, emitted]
      exact ih c
    | error fault =>
      rw [attempts_cons_of_error emitted]
      exact ih b

/-- All attempts are accepted exactly if they keep well stacked what was accepted before. -/
theorem Accurate.accepts_all_iff (h : b.Accurate) :
    (∀ answer ∈ (b.attempts instructions).1, answer = .ok ()) ↔
      WellStacked (b.instructions ++ instructions) := by
  induction instructions generalizing b with
  | nil => simpa [attempts] using h.stacked
  | cons i rest ih =>
    have account := h.depth
    have split : b.instructions ++ i :: rest = (b.instructions ++ [i]) ++ rest := by simp
    cases emitted : b.emit i with
    | ok c =>
      rw [attempts_cons_of_ok emitted]
      simp only [List.forall_mem_cons, true_and, ih (h.emit emitted)]
      rw [instructions_emit emitted, split]
    | error fault =>
      rw [attempts_cons_of_error emitted]
      simp only [List.forall_mem_cons, reduceCtorEq, false_and, false_iff]
      intro stacked
      rw [split] at stacked
      obtain ⟨-, isOpen, enough⟩ := wellStacked_concat_iff.1 stacked.of_append
      have answered := h.attempt i
      simp only [emitTimes, emitted] at answered
      cases answered with
      | afterReturn returned => exact isOpen returned
      | underflow _ short => omega

/-! ### Finished bodies -/

theorem Accurate.returned_of_last (h : b.Accurate) (last : b.instructions.getLast? = some .ret) :
    b.returned = true :=
  h.returned.2 (h.stacked.ret_mem_iff.2 last)

theorem Accurate.finish_eq_ok_iff (h : b.Accurate) (returnsValue : Bool) {body : Body} :
    b.finish returnsValue = .ok body ↔ b.instructions.getLast? = some .ret ∧
      b.depth = (if returnsValue then 1 else 0) ∧
        body = ⟨b.instructions, UInt16.ofNat b.maxDepth⟩ := by
  have ends := h.returned.trans h.stacked.ret_mem_iff
  unfold finish
  by_cases returned : b.returned = true
  · by_cases depth : b.depth = if returnsValue then 1 else 0
    · simp [returned, depth, ends.1 returned, eq_comm]
    · simp [returned, depth]
  · simp [returned, mt ends.2 returned]

/-- A builder accepts exactly what is well stacked. After any attempts it has accepted a well-stacked
sequence and knows its depth; the next attempt is accepted, or the builder stays as it is since there
was a return or the stack is too low; a body is finished exactly if it ends with a return that leaves
what the method returns. -/
theorem attempts_wellStacked (tries : List Instruction) (returnsValue : Bool) :
    let answers := (empty.attempts tries).1
    let b := (empty.attempts tries).2
    b.instructions = accepted tries answers ∧ WellStacked b.instructions ∧
      b.depth + popsOf b.instructions = pushesOf b.instructions ∧
      (∀ i, b.Answers i (b.emitTimes i 1).1 (b.emitTimes i 1).2) ∧
      ((∀ answer ∈ answers, answer = .ok ()) ↔ WellStacked tries) ∧
      ∀ body, b.finish returnsValue = .ok body ↔ b.instructions.getLast? = some .ret ∧
        b.depth = (if returnsValue then 1 else 0) ∧
          body = ⟨b.instructions, UInt16.ofNat b.maxDepth⟩ := by
  intro answers b
  obtain ⟨accurate, same⟩ := accurate_empty.emits (emits_accepted empty tries)
  exact ⟨same, accurate.stacked, accurate.depth, accurate.attempt,
    accurate_empty.accepts_all_iff, fun body => accurate.finish_eq_ok_iff _⟩

/-- A store without operands and a load after the return are refused; the body is finished without
them. -/
example : (empty.attempts [.storeField ⟨⟨"Acme", "Point"⟩, "_x"⟩, .loadThis, .ret, .loadThis]).2.finish
    true = .ok ⟨[.loadThis, .ret], 1⟩ := rfl

end BodyBuilder

end FluentWrappers.Synthesis
