import FluentWrappers.Machine.Run
import FluentWrappers.Proofs.Machine.OperandTable

/-!
# Single instructions

A step of the machine reads an instruction as the check of the body does and then performs it. An
accepted instruction that finds its operands does what the table of operands says, and one that does
not underflows.
-/

namespace FluentWrappers

open Binary Fallible Machine

/-- Whether a fault says that a body is broken. -/
def Machine.RunError.isBodyFault : RunError → Bool
  | .decode _ | .stackUnderflow | .invalidOperand _ => true
  | _ => false

/-- A fault that does not lie in a body. -/
def Machine.RunError.Harmless (e : RunError) : Prop := e.isBodyFault = false

namespace Machine.Loaded

/-! ### Reading an instruction -/

def onMember (m : Loaded) (i : CodeInstruction) (use : MemberReference → Run Action) : Run Action :=
  match m.artifact.memberRefs[i.operand.toNat]? with
  | some member => use member
  | none => throw (.invalidOperand i.operand)

/-- What an instruction does once it has been read. -/
def perform (m : Loaded) (i : CodeInstruction) (frame : Frame) : Run Action :=
  match i.opcode with
  | .loadArg0 => do return .next (← frame.pushArgument 0)
  | .loadArg1 => do return .next (← frame.pushArgument 1)
  | .loadArg => do return .next (← frame.pushArgument i.operand.toNat)
  | .loadField => m.onMember i (loadField frame)
  | .storeField => m.onMember i (storeOperand frame)
  | .call => m.onMember i (m.callDirect frame)
  | .callVirt => m.onMember i (m.callVirtual frame)
  | .newObj => m.onMember i (m.instantiate frame)
  | .ret => finish frame

theorem read_ok {α : Type} {item : Read α} {value : α} {frame : Frame} {next : Reader} (heap : Heap)
    (h : item frame.code = (.ok value, next)) :
    frame.read item heap = (.ok (value, { frame with code := next }), heap) := by
  unfold Frame.read
  rw [h]
  rfl

theorem readMember_eq (m : Loaded) (frame : Frame) {i : CodeInstruction} {next : Reader}
    (read : Read.u32 frame.code = (.ok i.operand, next)) (use : Frame → MemberReference → Run Action)
    (heap : Heap) :
    (do let (member, frame) ← m.readMember frame; use frame member) heap =
      m.onMember i (use { frame with code := next }) heap := by
  unfold readMember onMember
  cases found : m.artifact.memberRefs[i.operand.toNat]? with
  | none =>
    have failed : m.readMember frame heap = (.error (.invalidOperand i.operand), heap) := by
      unfold readMember
      rw [bind_ok (read_ok heap read)]
      simp only [found]
      rfl
    exact bind_error failed
  | some member =>
    have done : m.readMember frame heap = (.ok (member, { frame with code := next }), heap) := by
      unfold readMember
      rw [bind_ok (read_ok heap read)]
      simp only [found]
      rfl
    exact bind_ok done

theorem readOpcode_eq {i : CodeInstruction} {r next : Reader} (reads : i.ReadsFrom r next) :
    Read.opcode r = (.ok i.opcode, r.advance 1) := by
  obtain ⟨b, byte, known⟩ := reads.byte
  unfold Read.opcode
  rw [bind_ok byte, known]
  rfl

/-- The machine reads and performs the instruction that the check reads at the same place. -/
theorem action_eq_perform (m : Loaded) {i : CodeInstruction} {frame : Frame} {next : Reader}
    (reads : i.ReadsFrom frame.code next) (heap : Heap) :
    m.action frame heap = m.perform i { frame with code := next } heap := by
  have operand := reads.operand
  unfold action perform
  rw [bind_ok (read_ok heap (readOpcode_eq reads))]
  cases op : i.opcode with
  | loadArg0 | loadArg1 | ret =>
    rw [op] at operand
    have same : frame.code.advance 1 = next := congrArg Prod.snd operand
    subst same
    rfl
  | loadArg =>
    rw [op] at operand
    obtain ⟨index, next', read, last⟩ := bind_eq_ok_iff.1 operand
    have same : UInt32.ofNat index.toNat = i.operand := Except.ok.inj (congrArg Prod.fst last)
    have after : next' = next := congrArg Prod.snd last
    have small : index.toNat < UInt32.size := Nat.lt_trans index.toNat_lt_size (by decide)
    have selected : i.operand.toNat = index.toNat := by
      rw [← same, UInt32.toNat_ofNat_of_lt' small]
    subst after
    rw [selected]
    exact bind_ok (read_ok heap read)
  | loadField | storeField | call | callVirt | newObj =>
    rw [op] at operand
    exact readMember_eq m { frame with code := frame.code.advance 1 } operand _ heap

/-! ### Operands -/

variable {frame : Frame} {heap : Heap} {count : Nat}

theorem pop_ok {value : Value} {rest : List Value} (h : frame.stack = value :: rest) (heap : Heap) :
    frame.pop heap = (.ok (value, { frame with stack := rest }), heap) := by
  unfold Frame.pop
  rw [h]
  rfl

theorem pop_short (h : frame.stack = []) (heap : Heap) :
    frame.pop heap = (.error .stackUnderflow, heap) := by
  unfold Frame.pop
  rw [h]
  rfl

theorem popMany_ok (h : count ≤ frame.stack.length) (heap : Heap) :
    frame.popMany count heap = (.ok ((frame.stack.take count).reverse,
      { frame with stack := frame.stack.drop count }), heap) := by
  unfold Frame.popMany
  rw [if_pos h]
  rfl

theorem popMany_short (h : frame.stack.length < count) (heap : Heap) :
    frame.popMany count heap = (.error .stackUnderflow, heap) := by
  unfold Frame.popMany
  rw [if_neg (Nat.not_le.2 h)]
  rfl

/-- A frame of the same method at the same place, with a number of operands. -/
structure Frame.Resized (frame later : Frame) (operands : Nat) : Prop where
  method : later.method = frame.method
  args : later.args = frame.args
  code : later.code = frame.code
  length : later.stack.length = operands

theorem Frame.Resized.trans {later last : Frame} {operands : Nat} (first : frame.Resized later count)
    (second : later.Resized last operands) : frame.Resized last operands :=
  ⟨second.method.trans first.method, second.args.trans first.args, second.code.trans first.code,
    second.length⟩

theorem pop_meets (enough : 0 < frame.stack.length) (failed : RunError → Prop) :
    Meets frame.pop heap (fun popped => frame.Resized popped.2 (frame.stack.length - 1)) failed := by
  obtain ⟨value, rest, stack⟩ := List.exists_cons_of_length_pos enough
  unfold Meets
  rw [pop_ok stack]
  exact ⟨rfl, rfl, rfl, by rw [stack]; rfl⟩

theorem popMany_meets (enough : count ≤ frame.stack.length) (failed : RunError → Prop) :
    Meets (frame.popMany count) heap (fun popped => popped.1.length = count ∧
      frame.Resized popped.2 (frame.stack.length - count)) failed := by
  unfold Meets
  rw [popMany_ok enough]
  refine ⟨?_, rfl, rfl, rfl, List.length_drop⟩
  rw [List.length_reverse, List.length_take, Nat.min_eq_left enough]

/-! ### Performing an instruction -/

theorem instanceOf_meets (value : Value) :
    Meets (instanceOf value) heap (fun _ => True) RunError.Harmless := by
  unfold instanceOf
  cases value with
  | object ref =>
    refine meets_get.bind fun h t _ => ?_
    cases h.get? ref with
    | some inst => exact meets_pure trivial
    | none => exact meets_throw rfl
  | _ => exact meets_throw rfl

theorem storeField_meets (target value : Value) (name : String) :
    Meets (storeField target value name) heap (fun _ => True) RunError.Harmless := by
  unfold storeField
  refine (instanceOf_meets target).bind fun found t _ => ?_
  refine meets_get.bind fun h t _ => ?_
  cases h.setField? found.1 name value with
  | some heap => exact meets_set trivial
  | none => exact meets_throw rfl

theorem lookup_meets (m : Loaded) (name : String) :
    Meets (liftM (m.lookup name) : Run TypeDefinition) heap (fun type => m.lookup name = .ok type)
      RunError.Harmless := by
  refine meets_lift (fun _ h => h) fun e h => ?_
  unfold lookup at h
  split at h
  · cases h
  · cases h
    rfl

theorem lookup_mem {m : Loaded} {name : String} {type : TypeDefinition}
    (h : m.lookup name = .ok type) : type ∈ m.artifact.types := by
  unfold lookup at h
  split at h
  case h_1 found =>
    cases h
    exact (Artifact.findType?_eq_some found).1
  case h_2 => cases h

def Action.Goes (frame : Frame) (operands : Nat) (a : Action) : Prop :=
  ∃ later, a = .next later ∧ frame.Resized later operands

theorem loadField_meets (member : MemberReference) (enough : 1 ≤ frame.stack.length) :
    Meets (loadField frame member) heap (Action.Goes frame frame.stack.length) RunError.Harmless := by
  unfold loadField
  refine (pop_meets enough _).bind fun popped t h => ?_
  refine (instanceOf_meets popped.1).bind fun found t _ => ?_
  dsimp only
  cases found.2.get? member.name with
  | none => exact meets_throw rfl
  | some value =>
    refine meets_pure ⟨_, rfl, h.method, h.args, h.code, ?_⟩
    have length := h.length
    simp only [Frame.push, List.length_cons]
    omega

theorem storeOperand_meets (member : MemberReference) (enough : 2 ≤ frame.stack.length) :
    Meets (storeOperand frame member) heap (Action.Goes frame (frame.stack.length - 2))
      RunError.Harmless := by
  unfold storeOperand
  refine (pop_meets (by omega) _).bind fun value t first => ?_
  have one := first.length
  refine (pop_meets (by omega) _).bind fun target t second => ?_
  refine (storeField_meets target.1 value.1 member.name).bind fun _ t _ => ?_
  have both := first.trans second
  rw [one, Nat.sub_sub] at both
  exact meets_pure ⟨target.2, rfl, both⟩

theorem instantiate_meets (m : Loaded) (member : MemberReference)
    (enough : member.paramCount.toNat ≤ frame.stack.length) :
    Meets (m.instantiate frame member) heap
      (fun a => ∃ later type args, a = .construct later type args ∧ type ∈ m.artifact.types ∧
        frame.Resized later (frame.stack.length - member.paramCount.toNat)) RunError.Harmless := by
  unfold instantiate
  refine (popMany_meets enough _).bind fun popped t h => ?_
  refine (lookup_meets m member.owner).bind fun type t found => ?_
  exact meets_pure ⟨_, type, popped.1, rfl, lookup_mem found, h.2⟩

theorem resolveVirtual_meets (m : Loaded) (type : TypeDefinition) (member : MemberReference) :
    Meets (liftM (m.resolveVirtual type member) : Run (TypeDefinition × Method)) heap
      (fun found => m.resolveVirtual type member = .ok found) RunError.Harmless := by
  refine meets_lift (fun _ h => h) fun e h => ?_
  unfold resolveVirtual at h
  split at h
  · cases h
  · cases h
    rfl

/-- How a call comes to the method that it runs. -/
inductive Targets (m : Loaded) (opcode : Opcode) (member : MemberReference) (owner : TypeDefinition)
    (target : Method) (args : List Value) : Prop
  | direct (op : opcode = .call) (plain : member.isRootConstructor = false)
      (found : m.lookup member.owner = .ok owner)
      (named : owner.findMethod? member.name member.paramCount.toNat = some target)
      (count : args.length = member.paramCount.toNat + if member.isStatic then 0 else 1)
  | virtual (op : opcode = .callVirt) (type : TypeDefinition) (known : type ∈ m.artifact.types)
      (resolved : m.resolveVirtual type member = .ok (owner, target))
      (count : args.length = member.paramCount.toNat + 1)

/-- What a call of a method on its own type comes to. -/
def Action.CallsDirect (m : Loaded) (frame : Frame) (member : MemberReference) (a : Action) : Prop :=
  ∃ later owner target args, a = .call later member owner target args ∧
    m.Targets .call member owner target args ∧
    frame.Resized later (frame.stack.length -
      (member.paramCount.toNat + if member.isStatic then 0 else 1))

theorem findTarget_meets (m : Loaded) (member : MemberReference) {later : Frame} {args : List Value}
    (plain : member.isRootConstructor = false)
    (count : args.length = member.paramCount.toNat + if member.isStatic then 0 else 1)
    (resized : frame.Resized later (frame.stack.length -
      (member.paramCount.toNat + if member.isStatic then 0 else 1))) :
    Meets (do
        let owner ← liftM (m.lookup member.owner)
        match owner.findMethod? member.name member.paramCount.toNat with
        | none => throw (.methodNotFound owner.name member.name member.paramCount.toNat)
        | some target => return Action.call later member owner target args)
      heap (Action.CallsDirect m frame member) RunError.Harmless := by
  refine (lookup_meets m member.owner).bind fun owner t found => ?_
  cases named : owner.findMethod? member.name member.paramCount.toNat with
  | none => exact meets_throw rfl
  | some target =>
    exact meets_pure ⟨later, owner, target, args, rfl, .direct rfl plain found named count, resized⟩

theorem callDirect_meets (m : Loaded) (member : MemberReference)
    (plain : member.isRootConstructor = false)
    (enough : member.paramCount.toNat + (if member.isStatic then 0 else 1) ≤ frame.stack.length) :
    Meets (m.callDirect frame member) heap (Action.CallsDirect m frame member)
      RunError.Harmless := by
  unfold callDirect
  refine (popMany_meets (by omega) _).bind fun popped t h => ?_
  obtain ⟨count, first⟩ := h
  have remaining := first.length
  dsimp only
  rw [plain]
  cases static : member.isStatic with
  | true =>
    refine findTarget_meets m member plain ?_ ?_
    · rw [static, List.nil_append, count]
      rfl
    · rw [static]
      exact first
  | false =>
    rw [static] at enough
    simp only [Bool.false_eq_true, if_false] at enough
    refine (pop_meets (by omega) _).bind fun receiver t second => ?_
    refine findTarget_meets m member plain ?_ ?_
    · rw [static, List.length_append, count, Nat.add_comm]
      rfl
    · have both := first.trans second
      rw [remaining, Nat.sub_sub] at both
      rw [static]
      exact both

theorem callDirect_root_meets (m : Loaded) (member : MemberReference)
    (root : member.isRootConstructor = true)
    (enough : member.paramCount.toNat + 1 ≤ frame.stack.length) :
    Meets (m.callDirect frame member) heap
      (Action.Goes frame (frame.stack.length - (member.paramCount.toNat + 1)))
      RunError.Harmless := by
  unfold callDirect
  refine (popMany_meets (by omega) _).bind fun popped t h => ?_
  have remaining := h.2.length
  dsimp only
  rw [root, if_pos rfl]
  refine (pop_meets (by omega) _).bind fun receiver t second => ?_
  have both := h.2.trans second
  rw [remaining, Nat.sub_sub] at both
  exact meets_pure ⟨receiver.2, rfl, both⟩

theorem callVirtual_meets (m : Loaded) (member : MemberReference)
    (enough : member.paramCount.toNat + 1 ≤ frame.stack.length) :
    Meets (m.callVirtual frame member) heap (fun a =>
      ∃ later owner target args, a = .call later member owner target args ∧
        m.Targets .callVirt member owner target args ∧
        frame.Resized later (frame.stack.length - (member.paramCount.toNat + 1)))
      RunError.Harmless := by
  unfold callVirtual
  refine (popMany_meets (by omega) _).bind fun popped t h => ?_
  obtain ⟨count, first⟩ := h
  have remaining := first.length
  refine (pop_meets (by omega) _).bind fun receiver t second => ?_
  refine (instanceOf_meets receiver.1).bind fun found t _ => ?_
  refine (lookup_meets m found.2.typeName).bind fun type t known => ?_
  refine (resolveVirtual_meets m type member).bind fun resolved t target => ?_
  have both := first.trans second
  rw [remaining, Nat.sub_sub] at both
  exact meets_pure ⟨receiver.2, resolved.1, resolved.2, receiver.1 :: popped.1, rfl,
    .virtual rfl type (lookup_mem known) target (by rw [List.length_cons, count]), both⟩

theorem finish_meets {post : Action → Prop} (ends : ∀ result, post (.done result))
    (enough : frame.method.results ≤ frame.stack.length) (failed : RunError → Prop) :
    Meets (finish frame) heap post failed := by
  unfold finish
  unfold Method.results at enough
  split
  case isTrue returns =>
    rw [if_pos returns] at enough
    exact (pop_meets enough _).bind fun popped t _ => meets_pure (ends _)
  case isFalse => exact meets_pure (ends _)

/-! ### Too few operands -/

variable {member : MemberReference}

theorem loadField_short (few : frame.stack.length < 1) :
    loadField frame member heap = (.error .stackUnderflow, heap) :=
  bind_error (pop_short (List.eq_nil_of_length_eq_zero (by omega)) heap)

theorem storeOperand_short (few : frame.stack.length < 2) :
    storeOperand frame member heap = (.error .stackUnderflow, heap) := by
  unfold storeOperand
  cases stack : frame.stack with
  | nil => exact bind_error (pop_short stack heap)
  | cons value rest =>
    rw [stack, List.length_cons] at few
    have none : rest = [] := List.eq_nil_of_length_eq_zero (by omega)
    rw [bind_ok (pop_ok stack heap)]
    exact bind_error (pop_short none heap)

theorem popBelow_short {β : Type} {rest : List Value × Frame → Run β}
    (few : frame.stack.length < count + 1)
    (fails : ∀ popped, popped.2.stack = [] → rest popped heap = (.error .stackUnderflow, heap)) :
    (frame.popMany count >>= rest) heap = (.error .stackUnderflow, heap) := by
  by_cases enough : count ≤ frame.stack.length
  · have none : frame.stack.drop count = [] := List.drop_eq_nil_iff.2 (by omega)
    rw [bind_ok (popMany_ok enough heap)]
    exact fails _ none
  · exact bind_error (popMany_short (by omega) heap)

theorem callDirect_root_short {m : Loaded} (root : member.isRootConstructor = true)
    (few : frame.stack.length < member.paramCount.toNat + 1) :
    m.callDirect frame member heap = (.error .stackUnderflow, heap) := by
  unfold callDirect
  rw [root]
  refine popBelow_short few fun popped none => ?_
  exact bind_error (pop_short none heap)

theorem callDirect_short {m : Loaded} (plain : member.isRootConstructor = false)
    (few : frame.stack.length < member.paramCount.toNat + if member.isStatic then 0 else 1) :
    m.callDirect frame member heap = (.error .stackUnderflow, heap) := by
  unfold callDirect
  rw [plain]
  cases static : member.isStatic with
  | true =>
    rw [static] at few
    exact bind_error (popMany_short few heap)
  | false =>
    rw [static] at few
    refine popBelow_short few fun popped none => ?_
    exact bind_error (pop_short none heap)

theorem callVirtual_short {m : Loaded} (few : frame.stack.length < member.paramCount.toNat + 1) :
    m.callVirtual frame member heap = (.error .stackUnderflow, heap) := by
  refine popBelow_short few fun popped none => ?_
  exact bind_error (pop_short none heap)

theorem finish_short (few : frame.stack.length < frame.method.results) :
    finish frame heap = (.error .stackUnderflow, heap) := by
  unfold finish
  unfold Method.results at few
  split
  case isTrue returns =>
    rw [if_pos returns] at few
    exact bind_error (pop_short (List.eq_nil_of_length_eq_zero (by omega)) heap)
  case isFalse returns =>
    rw [if_neg returns] at few
    omega

/-! ### Accepted instructions -/

/-- What an instruction comes to on a frame with enough operands. -/
def Fits (m : Loaded) (i : CodeInstruction) (frame : Frame) (a : Action) : Prop :=
  let refs := m.artifact.memberRefs
  let left := frame.stack.length - i.takes refs frame.method.results
  match a with
  | .next later => i.opcode ≠ .ret ∧ frame.Resized later (left + i.leaves refs)
  | .done _ => i.opcode = .ret
  | .call later member owner target args =>
    member = i.memberIn refs ∧ m.Targets i.opcode member owner target args ∧
      i.leaves refs = (if member.returnsValue then 1 else 0) ∧ frame.Resized later left
  | .construct later type _ =>
    i.opcode = .newObj ∧ type ∈ m.artifact.types ∧ frame.Resized later left

def Excusable (frame : Frame) (e : RunError) : Prop :=
  e.Harmless ∨ frame.args.length < frame.method.argSlots ∧ ∃ index, e = .invalidOperand index

variable {m : Loaded} {i : CodeInstruction} {effect : Nat × Nat}

theorem onMember_eq {use : MemberReference → Run Action} {kind : MemberKind}
    (accepted : i.stackEffect m.artifact.memberRefs frame.method.argSlots = .ok effect)
    (needs : i.needs? = some kind) :
    m.onMember i use = use (i.memberIn m.artifact.memberRefs) := by
  unfold onMember
  rw [(CodeInstruction.needs_found accepted needs).1]

theorem load_meets {index : Nat} (plain : i.opcode ≠ .ret)
    (takes : i.takes m.artifact.memberRefs frame.method.results = 0)
    (leaves : i.leaves m.artifact.memberRefs = 1) (within : index < frame.method.argSlots) :
    Meets (do return .next (← frame.pushArgument index)) heap (m.Fits i frame)
      (Excusable frame) := by
  unfold Frame.pushArgument
  cases found : frame.args[index]? with
  | none =>
    have few := List.getElem?_eq_none_iff.1 found
    exact Or.inr ⟨by omega, _, rfl⟩
  | some value =>
    refine ⟨plain, rfl, rfl, rfl, ?_⟩
    rw [takes, leaves]
    rfl

theorem Action.Goes.fits {a : Action} {operands : Nat} (h : a.Goes frame operands)
    (plain : i.opcode ≠ .ret)
    (length : operands = frame.stack.length - i.takes m.artifact.memberRefs frame.method.results +
      i.leaves m.artifact.memberRefs) : m.Fits i frame a := by
  obtain ⟨later, rfl, resized⟩ := h
  rw [length] at resized
  exact ⟨plain, resized⟩

theorem call_meets (op : i.opcode = .call)
    (enough : i.takes m.artifact.memberRefs frame.method.results ≤ frame.stack.length) :
    Meets (m.callDirect frame (i.memberIn m.artifact.memberRefs)) heap (m.Fits i frame)
      RunError.Harmless := by
  cases root : (i.memberIn m.artifact.memberRefs).isRootConstructor with
  | true =>
    obtain ⟨taken, left⟩ := CodeInstruction.effect_of_rootCall frame.method.results op root
    rw [taken] at enough
    refine (callDirect_root_meets m _ root enough).mono (fun a h => h.fits ?_ ?_) fun _ h => h
    · rw [op]
      exact Opcode.noConfusion
    · omega
  | false =>
    obtain ⟨taken, left⟩ := CodeInstruction.effect_of_call frame.method.results op root
    rw [taken] at enough
    refine (callDirect_meets m _ root enough).mono ?_ fun _ h => h
    rintro a ⟨later, owner, target, args, rfl, targets, resized⟩
    rw [← taken] at resized
    rw [← op] at targets
    exact ⟨rfl, targets, left, resized⟩

theorem callVirt_meets (op : i.opcode = .callVirt)
    (enough : i.takes m.artifact.memberRefs frame.method.results ≤ frame.stack.length) :
    Meets (m.callVirtual frame (i.memberIn m.artifact.memberRefs)) heap (m.Fits i frame)
      RunError.Harmless := by
  have taken : i.takes m.artifact.memberRefs frame.method.results =
      (i.memberIn m.artifact.memberRefs).paramCount.toNat + 1 := by
    simp only [CodeInstruction.takes, op]
  have left : i.leaves m.artifact.memberRefs =
      if (i.memberIn m.artifact.memberRefs).returnsValue then 1 else 0 := by
    simp only [CodeInstruction.leaves, op]
  rw [taken] at enough
  refine (callVirtual_meets m _ enough).mono ?_ fun _ h => h
  rintro a ⟨later, owner, target, args, rfl, targets, resized⟩
  rw [← taken] at resized
  rw [← op] at targets
  exact ⟨rfl, targets, left, resized⟩

section
variable (accepted : i.stackEffect m.artifact.memberRefs frame.method.argSlots = .ok effect)
include accepted

theorem perform_loadField (op : i.opcode = .loadField) :
    m.perform i frame = loadField frame (i.memberIn m.artifact.memberRefs) := by
  have needs : i.needs? = some .field := by simp only [CodeInstruction.needs?, op]
  unfold perform
  rw [op]
  exact onMember_eq accepted needs

theorem perform_storeField (op : i.opcode = .storeField) :
    m.perform i frame = storeOperand frame (i.memberIn m.artifact.memberRefs) := by
  have needs : i.needs? = some .field := by simp only [CodeInstruction.needs?, op]
  unfold perform
  rw [op]
  exact onMember_eq accepted needs

theorem perform_call (op : i.opcode = .call) :
    m.perform i frame = m.callDirect frame (i.memberIn m.artifact.memberRefs) := by
  have needs : i.needs? = some .method := by simp only [CodeInstruction.needs?, op]
  unfold perform
  rw [op]
  exact onMember_eq accepted needs

theorem perform_callVirt (op : i.opcode = .callVirt) :
    m.perform i frame = m.callVirtual frame (i.memberIn m.artifact.memberRefs) := by
  have needs : i.needs? = some .method := by simp only [CodeInstruction.needs?, op]
  unfold perform
  rw [op]
  exact onMember_eq accepted needs

theorem perform_newObj (op : i.opcode = .newObj) :
    m.perform i frame = m.instantiate frame (i.memberIn m.artifact.memberRefs) := by
  have needs : i.needs? = some .method := by simp only [CodeInstruction.needs?, op]
  unfold perform
  rw [op]
  exact onMember_eq accepted needs

/-- An accepted instruction with enough operands does what the table of operands says. -/
theorem perform_meets
    (enough : i.takes m.artifact.memberRefs frame.method.results ≤ frame.stack.length) :
    Meets (m.perform i frame) heap (m.Fits i frame) (Excusable frame) := by
  have harmless : ∀ e, RunError.Harmless e → Excusable frame e := fun _ h => Or.inl h
  cases op : i.opcode with
  | loadArg0 | loadArg1 | loadArg =>
    unfold perform
    rw [op]
    refine load_meets (by simp [op]) ?_ ?_ (CodeInstruction.loads_within accepted ?_)
    · simp only [CodeInstruction.takes, op]
    · simp only [CodeInstruction.leaves, op]
    · simp only [CodeInstruction.loads?, op]
  | loadField =>
    rw [perform_loadField accepted op]
    simp only [CodeInstruction.takes, op] at enough
    refine (loadField_meets _ enough).mono (fun a h => h.fits (by simp [op]) ?_) harmless
    simp only [CodeInstruction.takes, CodeInstruction.leaves, op]
    omega
  | storeField =>
    rw [perform_storeField accepted op]
    simp only [CodeInstruction.takes, op] at enough
    refine (storeOperand_meets _ enough).mono (fun a h => h.fits (by simp [op]) ?_) harmless
    simp only [CodeInstruction.takes, CodeInstruction.leaves, op]
    omega
  | call =>
    rw [perform_call accepted op]
    exact (call_meets op enough).mono (fun _ h => h) harmless
  | callVirt =>
    rw [perform_callVirt accepted op]
    exact (callVirt_meets op enough).mono (fun _ h => h) harmless
  | newObj =>
    rw [perform_newObj accepted op]
    simp only [CodeInstruction.takes, op] at enough
    refine (instantiate_meets m _ enough).mono ?_ harmless
    rintro a ⟨later, type, args, rfl, known, resized⟩
    exact ⟨op, known, by simpa only [CodeInstruction.takes, op] using resized⟩
  | ret =>
    unfold perform
    rw [op]
    rw [CodeInstruction.takes_of_ret op] at enough
    exact finish_meets (fun _ => op) enough _

/-- An accepted instruction fails on a frame with fewer operands than the machine takes. -/
theorem perform_short
    (few : frame.stack.length < i.takes m.artifact.memberRefs frame.method.results) :
    m.perform i frame heap = (.error .stackUnderflow, heap) := by
  cases op : i.opcode with
  | loadArg0 | loadArg1 | loadArg =>
    simp only [CodeInstruction.takes, op] at few
    omega
  | loadField =>
    rw [perform_loadField accepted op]
    simp only [CodeInstruction.takes, op] at few
    exact loadField_short few
  | storeField =>
    rw [perform_storeField accepted op]
    simp only [CodeInstruction.takes, op] at few
    exact storeOperand_short few
  | call =>
    rw [perform_call accepted op]
    cases root : (i.memberIn m.artifact.memberRefs).isRootConstructor with
    | true =>
      rw [(CodeInstruction.effect_of_rootCall frame.method.results op root).1] at few
      exact callDirect_root_short root few
    | false =>
      rw [(CodeInstruction.effect_of_call frame.method.results op root).1] at few
      exact callDirect_short root few
  | callVirt =>
    rw [perform_callVirt accepted op]
    simp only [CodeInstruction.takes, op] at few
    exact callVirtual_short few
  | newObj =>
    rw [perform_newObj accepted op]
    simp only [CodeInstruction.takes, op] at few
    exact bind_error (popMany_short few heap)
  | ret =>
    unfold perform
    rw [op]
    rw [CodeInstruction.takes_of_ret op] at few
    exact finish_short few

end

end Machine.Loaded

end FluentWrappers
