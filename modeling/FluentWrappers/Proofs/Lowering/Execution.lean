import FluentWrappers.Lowering.Code
import FluentWrappers.Proofs.Binary.Reads
import FluentWrappers.Proofs.Machine.Dispatch

/-!
# Running bodies after encoding

The machine reads the code of a body instruction by instruction and finds the references that the
instructions made, provided that the table has no more entries than an index can tell apart. So there
is one rule for each instruction, and a body is run by its rules one after the other.
-/

namespace FluentWrappers

open Binary Fallible Machine Loaded
open Lowering (instructionCode bodyCode indexIn referenceOf? fieldReference methodReference)
open Synthesis (Instruction Body FieldTarget MethodTarget)

/-! ### Reading encoded instructions -/

theorem Lowering.getElem?_indexIn {table : List MemberReference} {r : MemberReference}
    (indexable : table.length ≤ UInt32.size) (isIn : r ∈ table) :
    table[(indexIn table r).toNat]? = some r := by
  have within : table.idxOf r < table.length := List.idxOf_lt_length_of_mem isIn
  have same : (indexIn table r).toNat = table.idxOf r :=
    UInt32.toNat_ofNat_of_lt' (Nat.lt_of_lt_of_le within indexable)
  rw [same, List.getElem?_eq_getElem within, List.getElem_idxOf within]

namespace CodeInstruction

variable {r : Reader} {op : Opcode}

theorem readsFrom_of_faces {operand : UInt32} {bytes : List UInt8}
    (reads : Reads (readOperand op.operandSize) bytes operand)
    (length : bytes.length = op.operandSize) (faces : r.Faces (op.byte :: bytes)) :
    ReadsFrom ⟨r.position, op, operand⟩ r (r.advance (1 + op.operandSize)) := by
  have split : r.Faces ([op.byte] ++ bytes) := faces
  have bound := faces.bound
  rw [List.length_cons, length] at bound
  constructor
  case offset => rfl
  case within => omega
  case byte => exact ⟨op.byte, reads_u8 op.byte r split.left, Opcode.ofByte?_byte op⟩
  case operand =>
    have read := reads _ split.right
    rwa [Reader.advance_advance, length] at read
  case length => rfl
  case bound =>
    show r.position + (1 + op.operandSize) ≤ r.size
    omega

theorem readsFrom_plain (none : op.operandSize = 0) (faces : r.Faces (Wire.opcode op)) :
    ReadsFrom ⟨r.position, op, 0⟩ r (r.advance 1) := by
  have reads : Reads (readOperand op.operandSize) [] 0 := by
    rw [none]
    exact reads_pure 0
  have found := readsFrom_of_faces reads none.symm faces
  rwa [none] at found

theorem readsFrom_onMember {index : UInt32} (four : op.operandSize = 4)
    (faces : r.Faces (Wire.onMember op index)) :
    ReadsFrom ⟨r.position, op, index⟩ r (r.advance (Wire.onMember op index).length) := by
  have reads : Reads (readOperand op.operandSize) (Wire.u32 index) index := by
    rw [four]
    exact reads_u32 index
  have length : (Wire.u32 index).length = op.operandSize := by
    rw [four]
    exact length_littleEndian 4 index.toNat
  have found := readsFrom_of_faces reads length faces
  have whole : (Wire.onMember op index).length = 1 + op.operandSize := by
    show (op.byte :: Wire.u32 index).length = _
    rw [List.length_cons, length, Nat.add_comm]
  rwa [whole]

end CodeInstruction

namespace Machine.Loaded

variable {m : Loaded} {frame : Frame} {heap heap' : Heap} {i : Instruction}

/-- What an instruction does, with its reference at hand. -/
def acts (m : Loaded) (frame : Frame) : Instruction → Run Action
  | .loadThis => do return .next (← frame.pushArgument 0)
  | .loadArg index => do return .next (← frame.pushArgument index.toNat)
  | .loadField f => loadField frame (fieldReference f)
  | .storeField f => storeOperand frame (fieldReference f)
  | .call t => m.callDirect frame (methodReference t)
  | .callVirt t => m.callVirtual frame (methodReference t)
  | .newObj t => m.instantiate frame (methodReference t)
  | .ret => finish frame

/-- The table of the artifact has what an instruction refers to. -/
def Links (m : Loaded) (i : Instruction) : Prop :=
  ∀ r ∈ referenceOf? i, r ∈ m.artifact.memberRefs

theorem links_of_none (none : referenceOf? i = none) : m.Links i := by
  intro r isRef
  rw [none] at isRef
  cases isRef

theorem links_of_some {r : MemberReference} (isRef : referenceOf? i = some r)
    (isIn : r ∈ m.artifact.memberRefs) : m.Links i := by
  intro r' isRef'
  rw [isRef] at isRef'
  cases isRef'
  exact isIn

theorem action_onMember (indexable : m.artifact.memberRefs.length ≤ UInt32.size)
    {r : MemberReference} (isIn : r ∈ m.artifact.memberRefs) {op : Opcode}
    (four : op.operandSize = 4) {code : List UInt8}
    (isCode : code = Wire.onMember op (indexIn m.artifact.memberRefs r))
    (faces : frame.code.Faces code) {use : Frame → MemberReference → Run Action}
    (performs : ∀ offset operand later,
      m.perform ⟨offset, op, operand⟩ later = m.onMember ⟨offset, op, operand⟩ (use later)) :
    m.action frame heap = use { frame with code := frame.code.advance code.length } r heap := by
  subst isCode
  rw [action_eq_perform m (CodeInstruction.readsFrom_onMember four faces), performs]
  unfold onMember
  dsimp only
  rw [Lowering.getElem?_indexIn indexable isIn]

theorem action_loadArg {index : UInt16} (faces : frame.code.Faces (Wire.loadArg index)) :
    m.action frame heap = m.acts { frame with
      code := frame.code.advance (Wire.loadArg index).length } (.loadArg index) heap := by
  unfold Wire.loadArg at faces ⊢
  split at faces
  case isTrue isZero =>
    subst isZero
    exact action_eq_perform m (CodeInstruction.readsFrom_plain rfl faces) heap
  case isFalse positive =>
    split at faces
    case isTrue isOne =>
      subst isOne
      exact action_eq_perform m (CodeInstruction.readsFrom_plain rfl faces) heap
    case isFalse large =>
      rw [if_neg positive, if_neg large]
      -- the operand has 16 bits, and an instruction holds it in 32
      have reads : Reads (CodeInstruction.readOperand Opcode.loadArg.operandSize) (Wire.u16 index)
          (UInt32.ofNat index.toNat) := (reads_u16 index).map fun w => UInt32.ofNat w.toNat
      have length : (Wire.u16 index).length = 2 := length_littleEndian 2 index.toNat
      have small : index.toNat < UInt32.size := Nat.lt_trans index.toNat_lt_size (by decide)
      have whole : (Wire.opcode .loadArg ++ Wire.u16 index).length = 1 + 2 := by
        rw [List.length_append, length]
        rfl
      rw [action_eq_perform m (CodeInstruction.readsFrom_of_faces reads length faces), whole]
      unfold perform acts
      dsimp only
      rw [UInt32.toNat_ofNat_of_lt' small]
      rfl

/-- The machine does what the instruction says whose code its frame faces. -/
theorem action_encoded (indexable : m.artifact.memberRefs.length ≤ UInt32.size)
    (links : m.Links i) (faces : frame.code.Faces (instructionCode m.artifact.memberRefs i)) :
    m.action frame heap = m.acts { frame with
      code := frame.code.advance (instructionCode m.artifact.memberRefs i).length } i heap := by
  cases i with
  | loadThis => exact action_eq_perform m (CodeInstruction.readsFrom_plain rfl faces) heap
  | ret => exact action_eq_perform m (CodeInstruction.readsFrom_plain rfl faces) heap
  | loadArg index => exact action_loadArg faces
  | loadField f =>
    exact action_onMember indexable (links _ rfl) rfl rfl faces fun _ _ _ => rfl
  | storeField f =>
    exact action_onMember indexable (links _ rfl) rfl rfl faces fun _ _ _ => rfl
  | call t => exact action_onMember indexable (links _ rfl) rfl rfl faces fun _ _ _ => rfl
  | callVirt t => exact action_onMember indexable (links _ rfl) rfl rfl faces fun _ _ _ => rfl
  | newObj t => exact action_onMember indexable (links _ rfl) rfl rfl faces fun _ _ _ => rfl

/-! ### Rules -/

/-- With these operands and this heap the machine runs the instructions of a method to the outcome,
wherever their code stands. -/
def RunsTo (m : Loaded) (callees : Callees) (method : Method) (args : List Value)
    (instructions : List Instruction) (stack : List Value) (heap : Heap)
    (outcome : Except RunError Value × Heap) : Prop :=
  ∀ fuel code, instructions.length ≤ fuel →
    code.Faces (instructions.flatMap (instructionCode m.artifact.memberRefs)) →
    m.runFrame callees fuel ⟨method, args, stack, code⟩ heap = outcome

section

variable {callees : Callees} {method : Method} {args stack stack' : List Value}
  {rest : List Instruction} {outcome : Except RunError Value × Heap}
  (indexable : m.artifact.memberRefs.length ≤ UInt32.size)

include indexable

theorem runsTo_of_step (links : m.Links i)
    (runs : ∀ fuel code, rest.length ≤ fuel →
      code.Faces (rest.flatMap (instructionCode m.artifact.memberRefs)) →
      ∀ frame : Frame, m.action frame heap = m.acts ⟨method, args, stack, code⟩ i heap →
        m.runFrame callees (fuel + 1) frame heap = outcome) :
    m.RunsTo callees method args (i :: rest) stack heap outcome := by
  intro fuel code enough faces
  rw [List.flatMap_cons] at faces
  obtain ⟨fuel, rfl⟩ : ∃ n, fuel = n + 1 := Nat.exists_eq_succ_of_ne_zero (by
    rw [List.length_cons] at enough
    omega)
  exact runs fuel _ (Nat.le_of_succ_le_succ enough) faces.right _
    (action_encoded indexable links faces.left)

theorem RunsTo.next (links : m.Links i)
    (acts : ∀ code, m.acts ⟨method, args, stack, code⟩ i heap =
      (.ok (.next ⟨method, args, stack', code⟩), heap'))
    (runs : m.RunsTo callees method args rest stack' heap' outcome) :
    m.RunsTo callees method args (i :: rest) stack heap outcome := by
  refine runsTo_of_step indexable links fun fuel code enough faces frame action => ?_
  have step : m.step callees frame heap = (.ok (.next ⟨method, args, stack', code⟩), heap') := by
    unfold step
    rw [bind_ok (action.trans (acts code))]
    rfl
  unfold runFrame
  rw [bind_ok step]
  exact runs fuel code enough faces

theorem RunsTo.done (links : m.Links i)
    {result : Value}
    (acts : ∀ code, m.acts ⟨method, args, stack, code⟩ i heap = (.ok (.done result), heap')) :
    m.RunsTo callees method args (i :: rest) stack heap (.ok result, heap') := by
  refine runsTo_of_step indexable links fun fuel code enough faces frame action => ?_
  have step : m.step callees frame heap = (.ok (.done result), heap') := by
    unfold step
    rw [bind_ok (action.trans (acts code))]
    rfl
  unfold runFrame
  rw [bind_ok step]
  rfl

theorem RunsTo.call (links : m.Links i)
    {member : MemberReference} {owner : TypeDefinition} {target : Method} {targetArgs : List Value}
    {result : Value}
    (acts : ∀ code, m.acts ⟨method, args, stack, code⟩ i heap =
      (.ok (.call ⟨method, args, stack', code⟩ member owner target targetArgs), heap))
    (executes : callees.execute owner target targetArgs heap = (.ok result, heap'))
    (runs : m.RunsTo callees method args rest
      (if member.returnsValue then result :: stack' else stack') heap' outcome) :
    m.RunsTo callees method args (i :: rest) stack heap outcome := by
  refine runsTo_of_step indexable links fun fuel code enough faces frame action => ?_
  let later : Frame := ⟨method, args, stack', code⟩
  have step : m.step callees frame heap = (.ok (.next (later.afterCall member result)), heap') := by
    unfold step
    rw [bind_ok (action.trans (acts code))]
    exact bind_ok executes
  have after : later.afterCall member result =
      ⟨method, args, if member.returnsValue then result :: stack' else stack', code⟩ := by
    unfold Frame.afterCall
    split <;> rfl
  unfold runFrame
  rw [bind_ok step, after]
  exact runs fuel code enough faces

theorem RunsTo.construct (links : m.Links i) {type : TypeDefinition} {targetArgs : List Value}
    (acts : ∀ code, m.acts ⟨method, args, stack, code⟩ i heap =
      (.ok (.construct ⟨method, args, stack', code⟩ type targetArgs), heap))
    (fails : ∀ e after, callees.construct type targetArgs heap = (.error e, after) →
      outcome = (.error e, after))
    (runs : ∀ made after, callees.construct type targetArgs heap = (.ok made, after) →
      m.RunsTo callees method args rest (made :: stack') after outcome) :
    m.RunsTo callees method args (i :: rest) stack heap outcome := by
  refine runsTo_of_step indexable links fun fuel code enough faces frame action => ?_
  unfold runFrame
  rcases made : callees.construct type targetArgs heap with ⟨e | value, after⟩
  · have step : m.step callees frame heap = (.error e, after) := by
      unfold step
      rw [bind_ok (action.trans (acts code))]
      exact bind_error made
    rw [bind_error step, fails e after made]
  · have step : m.step callees frame heap =
        (.ok (.next ⟨method, args, value :: stack', code⟩), after) := by
      unfold step
      rw [bind_ok (action.trans (acts code))]
      exact bind_ok made
    rw [bind_ok step]
    exact runs value after made fuel code enough faces

/-! ### One rule for each instruction -/

theorem RunsTo.loadThis {this : Value}
    (runs : m.RunsTo callees method (this :: args) rest (this :: stack) heap outcome) :
    m.RunsTo callees method (this :: args) (.loadThis :: rest) stack heap outcome :=
  .next indexable (links_of_none rfl) (fun _ => rfl) runs

theorem RunsTo.loadArg {index : UInt16}
    {value : Value} (isArg : args[index.toNat]? = some value)
    (runs : m.RunsTo callees method args rest (value :: stack) heap outcome) :
    m.RunsTo callees method args (.loadArg index :: rest) stack heap outcome := by
  refine .next indexable (links_of_none rfl) (fun code => ?_) runs
  show (do return Action.next (← Frame.pushArgument _ index.toNat) : Run Action) heap = _
  unfold Frame.pushArgument
  dsimp only
  rw [isArg]
  rfl

theorem RunsTo.loadField {f : FieldTarget} (links : fieldReference f ∈ m.artifact.memberRefs)
    {ref : Nat} {inst : Instance} {value : Value} (alive : heap.get? ref = some inst)
    (isField : inst.get? f.name = some value)
    (runs : m.RunsTo callees method args rest (value :: stack) heap outcome) :
    m.RunsTo callees method args (.loadField f :: rest) (.object ref :: stack) heap outcome := by
  refine .next indexable (links_of_some rfl links) (fun code => ?_) runs
  show Loaded.loadField _ (fieldReference f) heap = _
  unfold Loaded.loadField
  rw [bind_ok (pop_ok rfl heap)]
  dsimp only
  rw [bind_ok (instanceOf_ok alive)]
  dsimp only
  have isField : inst.get? (fieldReference f).name = some value := isField
  rw [isField]
  rfl

theorem RunsTo.storeField {f : FieldTarget} (links : fieldReference f ∈ m.artifact.memberRefs)
    {ref : Nat} {inst : Instance} {value : Value} (alive : heap.get? ref = some inst)
    (stored : heap.setField? ref f.name value = some heap')
    (runs : m.RunsTo callees method args rest stack heap' outcome) :
    m.RunsTo callees method args (.storeField f :: rest) (value :: .object ref :: stack) heap
      outcome := by
  refine .next indexable (links_of_some rfl links) (fun code => ?_) runs
  have stores : Loaded.storeField (.object ref) value f.name heap = (.ok (), heap') := by
    unfold Loaded.storeField
    rw [bind_ok (instanceOf_ok alive)]
    dsimp only
    rw [bind_ok (get_apply heap), stored]
    rfl
  show storeOperand _ (fieldReference f) heap = _
  unfold storeOperand
  rw [bind_ok (pop_ok rfl heap)]
  dsimp only
  rw [bind_ok (pop_ok rfl heap)]
  exact bind_ok stores

theorem RunsTo.rootConstructor
    (links : methodReference MethodTarget.rootConstructor ∈ m.artifact.memberRefs) {this : Value}
    (runs : m.RunsTo callees method args rest stack heap outcome) :
    m.RunsTo callees method args (.call MethodTarget.rootConstructor :: rest) (this :: stack) heap
      outcome :=
  .next indexable (links_of_some rfl links) (fun _ => rfl) runs

theorem RunsTo.callVirt {t : MethodTarget} (links : methodReference t ∈ m.artifact.memberRefs)
    {ref : Nat} {inst : Instance} {type : TypeDefinition} {target : Method} {targetArgs : List Value}
    {result : Value} (alive : heap.get? ref = some inst) (known : type ∈ m.artifact.types)
    (named : inst.typeName = type.name) (count : targetArgs.length = t.params.toNat)
    (bound : type.findImplementation? t.owner.canonical t.name = some target)
    (executes : callees.execute type target (.object ref :: targetArgs) heap = (.ok result, heap'))
    (runs : m.RunsTo callees method args rest (if t.returns then result :: stack else stack) heap'
      outcome) :
    m.RunsTo callees method args (.callVirt t :: rest)
      (targetArgs.reverse ++ .object ref :: stack) heap outcome := by
  have resolved : m.resolveVirtual type (methodReference t) = .ok (type, target) :=
    resolveVirtual_of_bound bound
  exact .call indexable (links_of_some rfl links)
    (fun code => callVirtual_object known rfl alive named count resolved) executes runs

theorem RunsTo.newObj {t : MethodTarget} (links : methodReference t ∈ m.artifact.memberRefs)
    (none : t.params.toNat = 0) {type : TypeDefinition} (known : type ∈ m.artifact.types)
    (named : t.owner.canonical = type.name)
    (fails : ∀ e after, callees.construct type [] heap = (.error e, after) →
      outcome = (.error e, after))
    (runs : ∀ made after, callees.construct type [] heap = (.ok made, after) →
      m.RunsTo callees method args rest (made :: stack) after outcome) :
    m.RunsTo callees method args (.newObj t :: rest) stack heap outcome := by
  refine .construct indexable (links_of_some rfl links) (fun code => ?_) fails runs
  have taken : Frame.popMany ⟨method, args, stack, code⟩ (methodReference t).paramCount.toNat heap =
      (.ok ([], ⟨method, args, stack, code⟩), heap) := by
    show Frame.popMany _ t.params.toNat heap = _
    rw [none]
    rfl
  have found : (liftM (m.lookup (methodReference t).owner) : Run TypeDefinition) heap =
      (.ok type, heap) := by
    show (m.lookup t.owner.canonical, heap) = _
    rw [named, lookup_of_mem known]
  show m.instantiate _ (methodReference t) heap = _
  unfold instantiate
  rw [bind_ok taken]
  exact bind_ok found

theorem RunsTo.ret {result : Value}
    (returns : method.returnsValue = true) :
    m.RunsTo callees method args [.ret] (result :: stack) heap (.ok result, heap) := by
  refine .done indexable (links_of_none rfl) fun code => ?_
  show finish _ heap = _
  unfold finish
  rw [if_pos returns]
  rfl

theorem RunsTo.retVoid (isVoid : method.returnsValue = false) :
    m.RunsTo callees method args [.ret] stack heap (.ok .null, heap) := by
  refine .done indexable (links_of_none rfl) fun code => ?_
  show finish _ heap = _
  unfold finish
  rw [if_neg (by rw [isVoid]; exact Bool.false_ne_true)]
  rfl

end

/-! ### Methods -/

theorem length_instructionCode_pos (table : List MemberReference) (i : Instruction) :
    1 ≤ (instructionCode table i).length := by
  cases i with
  | loadArg index =>
    show 1 ≤ (Wire.loadArg index).length
    unfold Wire.loadArg
    split
    · exact Nat.le_refl 1
    · split
      · exact Nat.le_refl 1
      · exact Nat.succ_le_succ (Nat.zero_le _)
  | _ => exact Nat.succ_le_succ (Nat.zero_le _)

theorem length_le_bodyCode (table : List MemberReference) (instructions : List Instruction) :
    instructions.length ≤ (instructions.flatMap (instructionCode table)).length := by
  induction instructions with
  | nil => exact Nat.le_refl 0
  | cons i rest ih =>
    have one := length_instructionCode_pos table i
    rw [List.flatMap_cons, List.length_append, List.length_cons]
    omega

/-- A method that has the code of a body runs as the instructions of the body do. -/
theorem executeWithin_of_runsTo {levels : Nat} {type : TypeDefinition} {method : Method}
    {args : List Value} {body : Body} {outcome : Except RunError Value × Heap}
    (concrete : method.isAbstract = false)
    (isCode : method.code = bodyCode m.artifact.memberRefs body)
    (runs : m.RunsTo (m.callees levels) method args body.instructions [] heap outcome) :
    m.executeWithin (levels + 1) type method args heap = outcome := by
  rw [executeWithin_succ, concrete, if_neg Bool.false_ne_true]
  refine runs _ _ ?_ ?_
  · have enough := length_le_bodyCode m.artifact.memberRefs body.instructions
    rw [isCode]
    exact Nat.le_succ_of_le enough
  · rw [isCode]
    exact ⟨Nat.zero_le _, List.prefix_rfl⟩

end Machine.Loaded

end FluentWrappers
