import FluentWrappers.Proofs.Lowering.Execution
import FluentWrappers.Proofs.Lowering.Interning

/-!
# Decoding lowered bodies

The code of a method, read back instruction by instruction with its operands looked up in the table of
references, is the list of operations that the body asks for. The table holds what bodies refer to,
once each and in the order of first use.
-/

namespace FluentWrappers

open Binary
open Synthesis (Instruction Body MethodSpec SynthesizedType)
open Lowering (instructionCode bodyCode indexIn referenceOf? fieldReference methodReference)

/-! ### Operations -/

/-- What an instruction asks for. Forms of the same operation are not told apart, and a reference stands
for its index. -/
inductive Operation where
  /-- Push the argument with this number; the receiver is argument 0. -/
  | argument (index : Nat)
  | member (opcode : Opcode) (reference : MemberReference)
  | ret
  deriving DecidableEq, Repr

namespace Operation

def reference? : Operation → Option MemberReference
  | member _ reference => some reference
  | argument _ | ret => none

/-- An operation on a field, which has no parameters, no result and is not static. -/
def onField (opcode : Opcode) (f : Synthesis.FieldTarget) : Operation :=
  member opcode ⟨.field, f.owner.canonical, f.name, 0, false, false⟩

def onMethod (opcode : Opcode) (m : Synthesis.MethodTarget) : Operation :=
  member opcode ⟨.method, m.owner.canonical, m.name, m.params, m.returns, m.isStatic⟩

end Operation

def Synthesis.Instruction.operation : Instruction → Operation
  | loadThis => .argument 0
  | loadArg index => .argument index.toNat
  | loadField f => .onField .loadField f
  | storeField f => .onField .storeField f
  | call m => .onMethod .call m
  | callVirt m => .onMethod .callVirt m
  | newObj m => .onMethod .newObj m
  | ret => .ret

/-- The operation of a decoded instruction, if its operand names an entry of the table. -/
def CodeInstruction.operation? (refs : List MemberReference) (i : CodeInstruction) :
    Option Operation :=
  match i.opcode with
  | .loadArg0 => some (.argument 0)
  | .loadArg1 => some (.argument 1)
  | .loadArg => some (.argument i.operand.toNat)
  | .ret => some .ret
  | .loadField | .storeField | .call | .callVirt | .newObj =>
    refs[i.operand.toNat]?.map (.member i.opcode)

theorem Synthesis.Instruction.reference?_operation (i : Instruction) :
    i.operation.reference? = referenceOf? i := by
  cases i <;> rfl

/-- The operand of the instruction leads to what the instruction refers to. -/
def Synthesis.Instruction.ResolvesIn (refs : List MemberReference) (i : Instruction) : Prop :=
  ∀ reference ∈ referenceOf? i, refs[(indexIn refs reference).toNat]? = some reference

/-! ### Reading code back -/

namespace CodeInstruction

variable {refs : List MemberReference} {r next : Reader} {fuel : Nat}

theorem readsFrom_loadArg {index : UInt16} (faces : r.Faces (Wire.loadArg index)) :
    ∃ i : CodeInstruction, i.ReadsFrom r (r.advance (Wire.loadArg index).length) ∧
      i.operation? refs = some (.argument index.toNat) := by
  unfold Wire.loadArg at faces ⊢
  split at faces
  case isTrue isZero =>
    subst isZero
    have short : r.Faces (Wire.opcode .loadArg0) := faces
    exact ⟨_, readsFrom_plain rfl short, rfl⟩
  case isFalse positive =>
    split at faces
    case isTrue isOne =>
      subst isOne
      have short : r.Faces (Wire.opcode .loadArg1) := faces
      exact ⟨_, readsFrom_plain rfl short, rfl⟩
    case isFalse large =>
      rw [if_neg positive, if_neg large]
      -- the operand has 16 bits, and an instruction holds it in 32
      have reads : Reads (readOperand Opcode.loadArg.operandSize) (Wire.u16 index)
          (UInt32.ofNat index.toNat) := (reads_u16 index).map fun w => UInt32.ofNat w.toNat
      have length : (Wire.u16 index).length = 2 := length_littleEndian 2 index.toNat
      have small : index.toNat < UInt32.size := Nat.lt_trans index.toNat_lt_size (by decide)
      have whole : (Wire.opcode .loadArg ++ Wire.u16 index).length = 1 + 2 := by
        rw [List.length_append, length]
        rfl
      rw [whole]
      refine ⟨_, readsFrom_of_faces reads length faces, ?_⟩
      show some (Operation.argument (UInt32.ofNat index.toNat).toNat) = _
      rw [UInt32.toNat_ofNat_of_lt' small]

theorem readsFrom_reference {op : Opcode} {reference : MemberReference}
    (found : refs[(indexIn refs reference).toNat]? = some reference) (four : op.operandSize = 4)
    (faces : r.Faces (Wire.onMember op (indexIn refs reference))) :
    ∃ i : CodeInstruction,
      i.ReadsFrom r (r.advance (Wire.onMember op (indexIn refs reference)).length) ∧
        i.operation? refs = some (.member op reference) := by
  refine ⟨_, readsFrom_onMember four faces, ?_⟩
  cases op with
  | loadArg | loadArg0 | loadArg1 | ret => cases four
  | loadField | storeField | call | callVirt | newObj => exact congrArg (Option.map _) found

/-- A reader in front of the code of an instruction reads its operation. -/
theorem readsFrom_instructionCode {i : Instruction} (resolves : i.ResolvesIn refs)
    (faces : r.Faces (instructionCode refs i)) :
    ∃ ci : CodeInstruction, ci.ReadsFrom r (r.advance (instructionCode refs i).length) ∧
      ci.operation? refs = some i.operation := by
  cases i with
  | loadThis | ret => exact ⟨_, readsFrom_plain rfl faces, rfl⟩
  | loadArg index => exact readsFrom_loadArg faces
  | loadField | storeField | call | callVirt | newObj =>
    exact readsFrom_reference (resolves _ rfl) rfl faces

theorem parseFrom_code {instructions : List Instruction}
    (resolves : ∀ i ∈ instructions, i.ResolvesIn refs)
    (enough : instructions.length ≤ fuel)
    (faces : r.Faces (instructions.flatMap (instructionCode refs)))
    (whole : r.position + (instructions.flatMap (instructionCode refs)).length = r.size) :
    ∃ code, parseFrom fuel r = .ok code ∧
      code.map (operation? refs) = instructions.map fun i => some i.operation := by
  induction instructions generalizing fuel r with
  | nil => exact ⟨[], parseFrom_of_end (Nat.le_of_eq whole.symm), rfl⟩
  | cons i rest ih =>
    obtain ⟨fuel, rfl⟩ := Nat.exists_eq_succ_of_ne_zero
      (Nat.ne_of_gt (Nat.lt_of_lt_of_le (Nat.succ_pos rest.length) enough))
    rw [List.flatMap_cons] at faces whole
    rw [List.length_append] at whole
    obtain ⟨ci, reads, isOperation⟩ := readsFrom_instructionCode
      (resolves i List.mem_cons_self) faces.left
    have whole' : (r.advance (instructionCode refs i).length).position +
        (rest.flatMap (instructionCode refs)).length = r.size := by
      rw [← whole, ← Nat.add_assoc]
      rfl
    obtain ⟨code, parsed, same⟩ := ih (fun j isIn => resolves j (List.mem_cons_of_mem i isIn))
      (Nat.le_of_succ_le_succ enough) faces.right whole'
    have parsed' : parseFrom (fuel + 1) r = .ok (ci :: code) := by
      rw [reads.parseFrom_eq, parsed]
      rfl
    exact ⟨ci :: code, parsed', congrArg₂ List.cons isOperation same⟩

/-- The code of a body is read back as the operations of its instructions. -/
theorem parse_bodyCode {body : Body} (resolves : ∀ i ∈ body.instructions, i.ResolvesIn refs) :
    ∃ code, parse (bodyCode refs body) = .ok code ∧
      code.map (operation? refs) = body.instructions.map fun i => some i.operation := by
  have enough := Machine.Loaded.length_le_bodyCode refs body.instructions
  exact parseFrom_code resolves enough ⟨Nat.zero_le _, List.prefix_rfl⟩ (Nat.zero_add _)

end CodeInstruction

/-! ### Whole artifacts -/

namespace Lowering

variable {table : List MemberReference} {types : List SynthesizedType} {artifact : Artifact}

/-- The method has the code of the specification's body: decoded, it is the body's list of operations. A
specification without a body has no code. -/
def HasBodyOf (refs : List MemberReference) (method : Method) (m : MethodSpec) : Prop :=
  match m.body with
  | none => method.code = []
  | some body => ∃ code, CodeInstruction.parse method.code = .ok code ∧
      code.map (CodeInstruction.operation? refs) = body.instructions.map fun i => some i.operation

/-- The references of all bodies, in order and as often as they are used. -/
def usesOf (types : List SynthesizedType) : List MemberReference :=
  types.flatMap fun t => t.methods.flatMap fun m => m.body.toList.flatMap fun body =>
    body.instructions.filterMap fun i => i.operation.reference?

theorem referenceTable_eq (types : List SynthesizedType) :
    referenceTable types = (usesOf types).eraseDups := by
  have same : referencesOfMethod = fun m => m.body.toList.flatMap fun body =>
      body.instructions.filterMap fun i => i.operation.reference? := by
    funext m
    unfold referencesOfMethod
    simp only [Instruction.reference?_operation]
    cases m.body with
    | none => rfl
    | some body => exact (List.append_nil _).symm
  unfold referenceTable usesOf
  rw [same]

theorem mem_usesOf {r : MemberReference} : r ∈ usesOf types ↔ ∃ t ∈ types, ∃ m ∈ t.methods,
    ∃ body, m.body = some body ∧ ∃ i ∈ body.instructions, i.operation.reference? = some r := by
  simp only [usesOf, List.mem_flatMap, List.mem_filterMap, Option.mem_toList]

theorem code_of_lowerMethod {t : SynthesizedType} {m : MethodSpec} {method : Method}
    (lowered : lowerMethod table t m = .ok method) :
    method.name = m.name ∧ method.code = (m.body.map (bodyCode table)).getD [] := by
  rw [lowerMethod_eq] at lowered
  cases kept : bodyOf? m with
  | none =>
    rw [kept] at lowered
    cases lowered
  | some body? =>
    rw [kept] at lowered
    rw [body_of_bodyOf? kept]
    cases body? <;> cases lowered <;> exact ⟨rfl, rfl⟩

/-- Every method of an artifact has the code of its specification's body. -/
theorem hasBodyOf_of_lowerMethod (indexable : (referenceTable types).length ≤ UInt32.size)
    {t : SynthesizedType} {m : MethodSpec} {method : Method} (isIn : t ∈ types)
    (isMethod : m ∈ t.methods) (lowered : lowerMethod (referenceTable types) t m = .ok method) :
    HasBodyOf (referenceTable types) method m := by
  obtain ⟨-, isCode⟩ := code_of_lowerMethod lowered
  unfold HasBodyOf
  cases isBody : m.body with
  | none =>
    rw [isCode, isBody]
    rfl
  | some body =>
    rw [isCode, isBody]
    refine CodeInstruction.parse_bodyCode fun i isInstruction r isRef =>
      getElem?_indexIn indexable ?_
    rw [referenceTable_eq, List.mem_eraseDups, mem_usesOf]
    refine ⟨t, isIn, m, isMethod, body, isBody, i, isInstruction, ?_⟩
    rw [Instruction.reference?_operation]
    exact isRef

theorem hasBodiesOf_of_lowerType (indexable : (referenceTable types).length ≤ UInt32.size)
    {t : SynthesizedType} {d : TypeDefinition} (isIn : t ∈ types)
    (lowered : lowerType (referenceTable types) t = .ok d) :
    d.name = t.canonical ∧ List.Forall₂ (fun m method => method.name = m.name ∧
      HasBodyOf (referenceTable types) method m) t.methods d.methods := by
  obtain ⟨methods, pairs, rfl⟩ := of_lowerType lowered
  refine ⟨rfl, List.forall₂_iff_zip.2 ⟨pairs.length_eq, fun {m method} isPair => ?_⟩⟩
  have isLowered := List.forall₂_zip pairs isPair
  exact ⟨(code_of_lowerMethod isLowered).1,
    hasBodyOf_of_lowerMethod indexable isIn (List.of_mem_zip isPair).1 isLowered⟩

/-- Lowering keeps bodies: decoded with the table of the artifact, the code of each method is the list of
operations of its body. The table has the references that bodies use, once each and in the order of
first use, as a single pass that numbers them while it writes the code would have it. -/
theorem lower_keeps_bodies (runtime : RuntimeNames) (metadata : Metadata)
    (types : List SynthesizedType) (artifact : Artifact)
    (lowered : lower runtime metadata types = .ok artifact)
    (indexable : artifact.memberRefs.length < 2 ^ 32) :
    List.Forall₂ (fun t d => d.name = t.canonical ∧
        List.Forall₂ (fun m method => method.name = m.name ∧
          HasBodyOf artifact.memberRefs method m) t.methods d.methods) types artifact.types ∧
      artifact.memberRefs.Nodup ∧
      artifact.memberRefs.Pairwise (fun r r' => (usesOf types).idxOf r < (usesOf types).idxOf r') ∧
      (∀ r, r ∈ artifact.memberRefs ↔ ∃ t ∈ types, ∃ m ∈ t.methods, ∃ body, m.body = some body ∧
        ∃ i ∈ body.instructions, i.operation.reference? = some r) ∧
      (emitTypes [] types).run [] = .ok (artifact.types, artifact.memberRefs) := by
  obtain ⟨definitions, defined, rfl, -⟩ := of_lower lowered
  replace indexable : (referenceTable types).length ≤ UInt32.size := Nat.le_of_lt indexable
  refine ⟨?bodies, ?once, ?order, ?used, ?pass⟩
  case bodies =>
    have pairs := forall₂_of_lowerTypes defined
    refine List.forall₂_iff_zip.2 ⟨pairs.length_eq, fun {t d} isPair => ?_⟩
    exact hasBodiesOf_of_lowerType indexable (List.of_mem_zip isPair).1
      (List.forall₂_zip pairs isPair)
  case once => exact FirstOccurrence.nodup_eraseDups _
  case order =>
    show (referenceTable types).Pairwise _
    rw [referenceTable_eq]
    exact FirstOccurrence.pairwise_eraseDups (usesOf types)
  case used =>
    intro r
    show r ∈ referenceTable types ↔ _
    rw [referenceTable_eq, List.mem_eraseDups, mem_usesOf]
  case pass =>
    rw [emitTypes_eq, defined]
    rfl

/-- A gauge whose reading is set from the second argument. -/
def gauge : SynthesizedType where
  name := ⟨"Plant", "Gauge"⟩
  kind := .proxy
  source := ⟨"Plant", "Meter"⟩
  fields := [⟨"reading", .primitive .i32, .internalAccess⟩]
  methods := [{
    name := "Set", visibility := .publicAccess, kind := .instanceMethod
    params := [⟨"hour", .primitive .i32⟩, ⟨"reading", .primitive .i32⟩], returns := none
    implements := none, specialName := false
    body := some ⟨[.loadThis, .loadArg 2, .storeField ⟨⟨"Plant", "Gauge"⟩, "reading"⟩, .ret], 2⟩ }]

/-- A panel that reads the field of a gauge. -/
def gaugePanel : SynthesizedType where
  name := ⟨"Plant", "Panel"⟩
  kind := .fluent
  source := ⟨"Plant", "Meter"⟩
  methods := [{
    name := "Show", visibility := .publicAccess, kind := .staticMethod
    params := [⟨"gauge", .synthesized ⟨"Plant", "Gauge"⟩⟩], returns := some (.primitive .i32)
    implements := none, specialName := false
    body := some ⟨[.loadArg 0, .loadField ⟨⟨"Plant", "Gauge"⟩, "reading"⟩, .ret], 1⟩ }]

/-- The gauge and its panel use one reference, and their bodies are read back with it. -/
theorem lower_keeps_bodies_gauge :
    ∃ artifact, lower {} {} [gauge, gaugePanel] = .ok artifact ∧
      artifact.memberRefs.length < 2 ^ 32 ∧
      List.Forall₂ (fun t d => d.name = t.canonical ∧
        List.Forall₂ (fun m method => method.name = m.name ∧
          HasBodyOf artifact.memberRefs method m) t.methods d.methods)
        [gauge, gaugePanel] artifact.types ∧
      artifact.memberRefs.Nodup ∧
      MemberReference.field "Plant.Gauge" "reading" ∈ artifact.memberRefs := by
  have builds : (match lower {} {} [gauge, gaugePanel] with
      | .error _ => false
      | .ok artifact => decide (artifact.memberRefs.length < 2 ^ 32)) = true := by decide +kernel
  cases lowered : lower {} {} [gauge, gaugePanel] with
  | error e =>
    rw [lowered] at builds
    cases builds
  | ok artifact =>
    rw [lowered] at builds
    have indexable : artifact.memberRefs.length < 2 ^ 32 := of_decide_eq_true builds
    obtain ⟨bodies, once, -, used, -⟩ :=
      lower_keeps_bodies {} {} [gauge, gaugePanel] artifact lowered indexable
    refine ⟨artifact, rfl, indexable, bodies, once, (used _).2 ?_⟩
    exact ⟨gauge, List.mem_cons_self, _, List.mem_cons_self, _, rfl, _,
      List.mem_of_getElem? (i := 2) rfl, rfl⟩

end Lowering

end FluentWrappers
