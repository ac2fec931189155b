import FluentWrappers.Artifact.Container
import FluentWrappers.Artifact.Opcode

/-!
# Checking method bodies (`SPEC_FULL.md`, 10.7, verifier)

A body is read into instructions and walked once with the depth of the operand stack. It must end
with its only return, never pop what is not there, and stay within its declared depth.
-/

namespace FluentWrappers

open Binary

/-- An operation with its operand and its offset in the body. -/
structure CodeInstruction where
  offset : Nat
  opcode : Opcode
  operand : UInt32
  deriving DecidableEq, Repr

/-- What is wrong with a body. -/
inductive BodyFault where
  | invalidOpcode (byte : UInt8) (offset : Nat)
  | undecodable (cause : DecodeError)
  | bodyMismatch
  | fallOffEnd
  | badReturn (depth expected : Nat)
  | stackUnderflow (offset : Nat)
  | stackOverflow (depth : Nat) (max : UInt16)
  | invalidMemberRef (index : UInt32) (offset : Nat)
  | invalidArgRef (index max offset : Nat)
  deriving DecidableEq, Repr

def BodyFault.message (method : String) : BodyFault → String
  | .invalidOpcode byte offset =>
    s!"Invalid opcode {Text.markedHex byte.toNat} at offset {offset} in {method}"
  | .undecodable cause => s!"Decode error: {cause.message}"
  | .bodyMismatch => s!"Method {method} body does not match its abstract flag"
  | .fallOffEnd => s!"Body of {method} does not end with a single RETURN"
  | .badReturn depth expected =>
    s!"Return with stack depth {depth} (expected {expected}) in {method}"
  | .stackUnderflow offset => s!"Stack underflow at offset {offset} in {method}"
  | .stackOverflow depth max => s!"Stack depth {depth} exceeds declared maximum {max} in {method}"
  | .invalidMemberRef index offset =>
    s!"Invalid member reference {index} at offset {offset} in {method}"
  | .invalidArgRef index max offset =>
    s!"Invalid argument index {index} (max {max}) at offset {offset} in {method}"

namespace CodeInstruction

def readOperand (size : Nat) : Read UInt32 :=
  match size with
  | 0 => pure 0
  | 2 => do return UInt32.ofNat (← Read.u16).toNat
  | _ => Read.u32

def parseFrom : Nat → Reader → Except BodyFault (List CodeInstruction)
  | 0, _ => .ok []
  | fuel + 1, r =>
    if r.hasMore then
      match Read.u8 r with
      | (.error fault, _) => .error (.undecodable fault.cause)
      | (.ok byte, afterCode) =>
        match Opcode.ofByte? byte with
        | none => .error (.invalidOpcode byte r.position)
        | some opcode =>
          match readOperand opcode.operandSize afterCode with
          | (.error fault, _) => .error (.undecodable fault.cause)
          | (.ok operand, afterOperand) => do
            let rest ← parseFrom fuel afterOperand
            return ⟨r.position, opcode, operand⟩ :: rest
    else .ok []

/-- The instructions of a body. Each takes a byte at least, so the length is fuel enough. -/
def parse (code : List UInt8) : Except BodyFault (List CodeInstruction) :=
  parseFrom code.length (Reader.ofBytes code)

def argumentEffect (slots index offset : Nat) : Except BodyFault (Nat × Nat) :=
  if index < slots then .ok (0, 1) else .error (.invalidArgRef index slots offset)

def memberOf (refs : List MemberReference) (kind : MemberKind) (i : CodeInstruction) :
    Except BodyFault MemberReference :=
  match refs[i.operand.toNat]? with
  | some m => if m.kind = kind then .ok m else .error (.invalidMemberRef i.operand i.offset)
  | none => .error (.invalidMemberRef i.operand i.offset)

/-- How many values an instruction pops and pushes. -/
def stackEffect (refs : List MemberReference) (slots : Nat) (i : CodeInstruction) :
    Except BodyFault (Nat × Nat) :=
  match i.opcode with
  | .loadArg0 => argumentEffect slots 0 i.offset
  | .loadArg1 => argumentEffect slots 1 i.offset
  | .loadArg => argumentEffect slots i.operand.toNat i.offset
  | .loadField => do
    let _ ← i.memberOf refs .field
    return (1, 1)
  | .storeField => do
    let _ ← i.memberOf refs .field
    return (2, 0)
  | .call | .callVirt => do
    let m ← i.memberOf refs .method
    return (m.paramCount.toNat + (if m.isStatic then 0 else 1), if m.returnsValue then 1 else 0)
  | .newObj => do
    let m ← i.memberOf refs .method
    return (m.paramCount.toNat, 1)
  | .ret => .ok (0, 0)

end CodeInstruction

namespace Method

/-- The stack depth after one instruction that is no return. -/
def depthAfter (refs : List MemberReference) (m : Method) (depth : Nat) (i : CodeInstruction) :
    Except BodyFault Nat := do
  let (pops, pushes) ← i.stackEffect refs m.argSlots
  if depth < pops then throw (.stackUnderflow i.offset)
  let next := depth - pops + pushes
  if m.maxStack.toNat < next then throw (.stackOverflow next m.maxStack)
  return next

/-- Walks instructions up to the first return, which must find what the method returns (10.7, stack
discipline). -/
def checkStack (refs : List MemberReference) (m : Method) :
    Nat → List CodeInstruction → Except BodyFault Unit
  | _, [] => .ok ()
  | depth, i :: rest =>
    if i.opcode = .ret then
      let expected := if m.returnsValue then 1 else 0
      if depth = expected then .ok () else .error (.badReturn depth expected)
    else do
      let next ← m.depthAfter refs depth i
      checkStack refs m next rest

/-- Whether the last instruction is a return and no other is (10.7: every body ends with `Return`). -/
def endsWithOnlyReturn (instructions : List CodeInstruction) : Bool :=
  instructions.findIdx? (·.opcode.isTerminator) == some (instructions.length - 1)

/-- Checks a method and its body. -/
def checkBody (refs : List MemberReference) (m : Method) : Except BodyFault Unit := do
  if m.isAbstract ≠ m.code.isEmpty then throw .bodyMismatch
  if m.isAbstract then return ()
  let instructions ← CodeInstruction.parse m.code
  if !endsWithOnlyReturn instructions then throw .fallOffEnd
  m.checkStack refs 0 instructions

end Method

end FluentWrappers
