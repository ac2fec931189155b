import FluentWrappers.Binary.Reader
import FluentWrappers.Binary.Wire

/-!
# Operation codes (`SPEC_FULL.md`, 10.7, encoded bodies)

Bodies are straight-line: they load arguments, load and store fields, call, construct and return.
Each operation is one byte, followed by an operand of a fixed size.
-/

namespace FluentWrappers

inductive Opcode where
  /-- Pushes the argument whose index is the operand. -/
  | loadArg
  | loadArg0
  | loadArg1
  /-- Calls the referenced method on its own type. -/
  | call
  /-- Calls the method that the receiver's type has for the reference. -/
  | callVirt
  | ret
  /-- Makes an object and runs the referenced constructor. -/
  | newObj
  /-- Replaces an object by the value of its field. -/
  | loadField
  /-- Pops a value and an object and stores the value. -/
  | storeField
  deriving DecidableEq, Repr, Inhabited

namespace Opcode

def all : List Opcode :=
  [loadArg, loadArg0, loadArg1, call, callVirt, ret, newObj, loadField, storeField]

def byte : Opcode → UInt8
  | loadArg => 0x10
  | loadArg0 => 0x12
  | loadArg1 => 0x13
  | call => 0xa0
  | callVirt => 0xa1
  | ret => 0xa2
  | newObj => 0xb0
  | loadField => 0xb1
  | storeField => 0xb2

def ofByte? (b : UInt8) : Option Opcode := all.find? (·.byte == b)

def name : Opcode → String
  | loadArg => "LOAD_ARG"
  | loadArg0 => "LOAD_ARG_0"
  | loadArg1 => "LOAD_ARG_1"
  | call => "CALL"
  | callVirt => "CALL_VIRT"
  | ret => "RETURN"
  | newObj => "NEW_OBJ"
  | loadField => "LOAD_FIELD"
  | storeField => "STORE_FIELD"

def operandSize : Opcode → Nat
  | loadArg0 | loadArg1 | ret => 0
  | loadArg => 2
  | call | callVirt | newObj | loadField | storeField => 4

def referencesMember : Opcode → Bool
  | call | callVirt | newObj | loadField | storeField => true
  | _ => false

def isCall : Opcode → Bool
  | call | callVirt | newObj => true
  | _ => false

def isTerminator : Opcode → Bool
  | ret => true
  | _ => false

@[simp] theorem ofByte?_byte (op : Opcode) : ofByte? op.byte = some op := by
  cases op <;> rfl

theorem byte_of_ofByte? {b : UInt8} {op : Opcode} (h : ofByte? b = some op) : op.byte = b := by
  simpa using List.find?_some h

end Opcode

namespace Binary.Read

/-- The next operation; a byte that is none has been read when that is noticed. -/
def opcode : Read Opcode := do
  let byte ← u8
  match Opcode.ofByte? byte with
  | some op => pure op
  | none => refuse (.invalidOpcode byte ((← reader).position - 1))

end Binary.Read

namespace Binary.Wire

def opcode (op : Opcode) : List UInt8 := [op.byte]

/-- Load of an argument; the first two have forms without an operand. -/
def loadArg (index : UInt16) : List UInt8 :=
  if index = 0 then opcode .loadArg0
  else if index = 1 then opcode .loadArg1
  else opcode .loadArg ++ u16 index

def onMember (op : Opcode) (index : UInt32) : List UInt8 := opcode op ++ u32 index

end Binary.Wire

end FluentWrappers
