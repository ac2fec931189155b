import FluentWrappers.Proofs.Verification.Body

/-!
# Operands taken and left

How many operands the machine takes for an instruction and leaves after it is a second table besides
that of the check. The two differ exactly where the check counts a value that the machine does not
move.
-/

namespace FluentWrappers

namespace CodeInstruction

/-- The reference that the operand selects, any if there is none. -/
def memberIn (refs : List MemberReference) (i : CodeInstruction) : MemberReference :=
  refs[i.operand.toNat]?.getD default

/-- How many operands the machine takes for an instruction of a method with so many results. -/
def takes (refs : List MemberReference) (results : Nat) (i : CodeInstruction) : Nat :=
  let r := i.memberIn refs
  match i.opcode with
  | .loadArg | .loadArg0 | .loadArg1 => 0
  | .loadField => 1
  | .storeField => 2
  | .call => r.paramCount.toNat + if r.isRootConstructor || !r.isStatic then 1 else 0
  | .callVirt => r.paramCount.toNat + 1
  | .newObj => r.paramCount.toNat
  | .ret => results

def leaves (refs : List MemberReference) (i : CodeInstruction) : Nat :=
  let r := i.memberIn refs
  match i.opcode with
  | .loadArg | .loadArg0 | .loadArg1 | .loadField | .newObj => 1
  | .storeField | .ret => 0
  | .call => if !r.isRootConstructor && r.returnsValue then 1 else 0
  | .callVirt => if r.returnsValue then 1 else 0

/-- How many operands more the check counts after an instruction than the machine has. A call of the
root constructor takes a receiver and leaves nothing whatever the reference says, and a virtual call
always takes a receiver. -/
def overcount (refs : List MemberReference) (i : CodeInstruction) : Nat :=
  let r := i.memberIn refs
  match i.opcode with
  | .call =>
    if r.isRootConstructor then (if r.isStatic then 1 else 0) + (if r.returnsValue then 1 else 0)
    else 0
  | .callVirt => if r.isStatic then 1 else 0
  | _ => 0

/-- A call that the check and the machine count differently: one of the root constructor through a
reference that is static or returns a value, or a virtual one of a static reference. -/
def Miscounted (refs : List MemberReference) (i : CodeInstruction) : Prop :=
  let r := i.memberIn refs
  i.opcode = .call ∧ r.isRootConstructor = true ∧ (r.isStatic = true ∨ r.returnsValue = true) ∨
    i.opcode = .callVirt ∧ r.isStatic = true

theorem overcount_pos_iff {refs : List MemberReference} {i : CodeInstruction} :
    0 < i.overcount refs ↔ i.Miscounted refs := by
  unfold overcount Miscounted
  cases op : i.opcode with
  | call =>
    dsimp only
    cases (i.memberIn refs).isRootConstructor <;> cases (i.memberIn refs).isStatic <;>
      cases (i.memberIn refs).returnsValue <;> simp
  | callVirt =>
    dsimp only
    cases (i.memberIn refs).isStatic <;> simp
  | _ => simp

theorem takes_of_ret {refs : List MemberReference} {results : Nat} {i : CodeInstruction}
    (ret : i.opcode = .ret) : i.takes refs results = results := by
  unfold takes
  rw [ret]

theorem effect_of_rootCall {refs : List MemberReference} (results : Nat) {i : CodeInstruction}
    (op : i.opcode = .call) (root : (i.memberIn refs).isRootConstructor = true) :
    i.takes refs results = (i.memberIn refs).paramCount.toNat + 1 ∧ i.leaves refs = 0 := by
  unfold takes leaves
  rw [op]
  dsimp only
  rw [root]
  exact ⟨rfl, rfl⟩

theorem effect_of_call {refs : List MemberReference} (results : Nat) {i : CodeInstruction}
    (op : i.opcode = .call) (plain : (i.memberIn refs).isRootConstructor = false) :
    i.takes refs results =
        (i.memberIn refs).paramCount.toNat + (if (i.memberIn refs).isStatic then 0 else 1) ∧
      i.leaves refs = if (i.memberIn refs).returnsValue then 1 else 0 := by
  unfold takes leaves
  rw [op]
  dsimp only
  rw [plain]
  cases (i.memberIn refs).isStatic <;> exact ⟨rfl, rfl⟩

theorem overcount_of_ret {refs : List MemberReference} {i : CodeInstruction}
    (ret : i.opcode = .ret) : i.overcount refs = 0 := by
  unfold overcount
  rw [ret]

theorem memberOf_eq_ok {refs : List MemberReference} {kind : MemberKind} {i : CodeInstruction}
    {r : MemberReference} (h : i.memberOf refs kind = .ok r) :
    refs[i.operand.toNat]? = some r ∧ r.kind = kind := by
  unfold memberOf at h
  split at h
  case h_1 found =>
    split at h
    case isTrue right =>
      cases h
      exact ⟨found, right⟩
    case isFalse => cases h
  case h_2 => cases h

theorem memberIn_eq {refs : List MemberReference} {i : CodeInstruction} {r : MemberReference}
    (h : refs[i.operand.toNat]? = some r) : i.memberIn refs = r := by
  unfold memberIn
  rw [h]
  rfl

theorem argumentEffect_eq_ok {slots index offset : Nat} {effect : Nat × Nat}
    (h : argumentEffect slots index offset = .ok effect) : index < slots ∧ effect = (0, 1) := by
  unfold argumentEffect at h
  split at h
  case isTrue within =>
    cases h
    exact ⟨within, rfl⟩
  case isFalse => cases h

def loads? (i : CodeInstruction) : Option Nat :=
  match i.opcode with
  | .loadArg0 => some 0
  | .loadArg1 => some 1
  | .loadArg => some i.operand.toNat
  | _ => none

def needs? (i : CodeInstruction) : Option MemberKind :=
  match i.opcode with
  | .loadField | .storeField => some .field
  | .call | .callVirt | .newObj => some .method
  | _ => none

variable {refs : List MemberReference} {i : CodeInstruction} {slots : Nat} {effect : Nat × Nat}

theorem loads_within {index : Nat} (h : i.stackEffect refs slots = .ok effect)
    (loads : i.loads? = some index) : index < slots := by
  unfold loads? at loads
  unfold stackEffect at h
  cases op : i.opcode <;> simp only [op, reduceCtorEq, Option.some.injEq] at loads h
  all_goals
    subst loads
    exact (argumentEffect_eq_ok h).1

theorem needs_found {kind : MemberKind} (h : i.stackEffect refs slots = .ok effect)
    (needs : i.needs? = some kind) :
    refs[i.operand.toNat]? = some (i.memberIn refs) ∧ (i.memberIn refs).kind = kind := by
  have selected : ∃ r, i.memberOf refs kind = .ok r := by
    unfold needs? at needs
    unfold stackEffect at h
    cases op : i.opcode <;> simp only [op, reduceCtorEq, Option.some.injEq] at needs h
    all_goals
      subst needs
      obtain ⟨r, selected, _⟩ := Check.bind_eq_ok_iff.1 h
      exact ⟨r, selected⟩
  obtain ⟨r, selected⟩ := selected
  obtain ⟨found, right⟩ := memberOf_eq_ok selected
  rw [memberIn_eq found]
  exact ⟨found, right⟩

/-- The two tables side by side: the check pops no more than the machine takes and pushes no less than
it leaves, and after an instruction the check counts more by its overcount. -/
theorem effect_balance (results : Nat) {pops pushes : Nat}
    (h : i.stackEffect refs slots = .ok (pops, pushes)) (plain : i.opcode ≠ .ret) :
    pops ≤ i.takes refs results ∧ i.leaves refs ≤ pushes ∧
      i.takes refs results + pushes = pops + i.leaves refs + i.overcount refs := by
  unfold stackEffect at h
  unfold takes leaves overcount
  cases op : i.opcode with
  | ret => exact absurd op plain
  | loadArg | loadArg0 | loadArg1 =>
    simp only [op] at h
    cases (argumentEffect_eq_ok h).2
    exact ⟨Nat.le_refl _, Nat.le_refl _, rfl⟩
  | loadField | storeField =>
    simp only [op] at h
    obtain ⟨_, _, h⟩ := Check.bind_eq_ok_iff.1 h
    cases h
    exact ⟨Nat.le_refl _, Nat.le_refl _, rfl⟩
  | call | callVirt | newObj =>
    simp only [op] at h
    obtain ⟨r, selected, h⟩ := Check.bind_eq_ok_iff.1 h
    rw [memberIn_eq (memberOf_eq_ok selected).1]
    cases h
    dsimp only
    cases r.isRootConstructor <;> cases r.isStatic <;> cases r.returnsValue <;> simp

end CodeInstruction

end FluentWrappers
