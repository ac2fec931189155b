import FluentWrappers.Binary.Wire
import FluentWrappers.Text.Basic

/-!
# Reading bytes (`SPEC_FULL.md`, 10.7, artifact binary format)

A reader stands at an offset of a buffer. Reads of fixed width either move past what they return or
leave the reader where it was; text is read as a length and then its bytes, each part moving the
reader on its own. Offsets are machine words, so the end of a read is computed modulo their number.
-/

namespace FluentWrappers.Binary

inductive TagRole where
  | primitive
  | signature
  | memberKind
  | typeKind
  | visibility
  deriving DecidableEq, Repr

def TagRole.text : TagRole → String
  | .primitive => "primitive"
  | .signature => "type signature"
  | .memberKind => "member kind"
  | .typeKind => "type kind"
  | .visibility => "visibility"

inductive DecodeError where
  | unexpectedEnd (offset : Nat)
  | invalidUtf8 (offset : Nat)
  | invalidOpcode (byte : UInt8) (offset : Nat)
  | invalidTag (role : TagRole) (tag : UInt8) (offset : Nat)
  deriving DecidableEq, Repr

def DecodeError.message : DecodeError → String
  | .unexpectedEnd offset => s!"Unexpected end of bytecode at offset {offset}"
  | .invalidUtf8 offset => s!"Invalid UTF-8 string at offset {offset}"
  | .invalidOpcode byte offset => s!"Invalid opcode {byte} at offset {offset}"
  | .invalidTag role tag offset => s!"Invalid {role.text} tag {tag} at offset {offset}"

/-- How a read can end without a value. -/
inductive ReadFault where
  /-- The reader tells what is wrong, and its caller goes on. -/
  | refused (cause : DecodeError)
  /-- The end of the read wraps around the address space to an offset of the buffer. The reader tells
  nothing: the program stops at the bytes that it takes then. -/
  | overflow (offset : Nat)
  deriving DecidableEq, Repr

/-- What is told of a read in a buffer that is read from its start on. No read overflows there, so that
such a fault is told as what it is, a read past the end. -/
def ReadFault.cause : ReadFault → DecodeError
  | .refused cause => cause
  | .overflow offset => .unexpectedEnd offset

/-- The number of offsets that a machine word of eight bytes can hold. -/
def addressSpace : Nat := wordCount 8

/-- A buffer and an offset in it or beyond it; `rest` holds the bytes from there on. -/
structure Reader where
  buffer : List UInt8
  size : Nat
  position : Nat
  rest : List UInt8
  size_eq : size = buffer.length
  rest_eq : rest = buffer.drop position

namespace Reader

def ofBytes (bytes : List UInt8) : Reader where
  buffer := bytes
  size := bytes.length
  position := 0
  rest := bytes
  size_eq := rfl
  rest_eq := rfl

def remaining (r : Reader) : Nat :=
  r.size - r.position

def hasMore (r : Reader) : Bool :=
  r.position < r.size

/-- The reader at another offset, whatever it is. -/
def seek (r : Reader) (position : Nat) : Reader where
  buffer := r.buffer
  size := r.size
  position := position
  rest := r.buffer.drop position
  size_eq := r.size_eq
  rest_eq := rfl

def advance (r : Reader) (count : Nat) : Reader where
  buffer := r.buffer
  size := r.size
  position := r.position + count
  rest := r.rest.drop count
  size_eq := r.size_eq
  rest_eq := by rw [r.rest_eq, List.drop_drop]

/-- The number of machine words. Buffers lie in memory, so that each of their offsets is one. -/
def offsetCount (r : Reader) : Nat :=
  max addressSpace (r.size + 1)

/-- The offset after the next `count` bytes, as a machine word. -/
def stop (r : Reader) (count : Nat) : Nat :=
  (r.position + count) % r.offsetCount

end Reader

/-- A read: its result and the reader after it, also when it fails. -/
abbrev Read := ExceptT ReadFault (StateM Reader)

namespace Read

def reader : Read Reader := get

def refuse {α : Type} (cause : DecodeError) : Read α := throw (.refused cause)

/-- The next bytes. The reader moves only if all of them are there. -/
def bytes (count : Nat) : Read (List UInt8) := do
  let r ← reader
  if r.size < r.stop count then refuse (.unexpectedEnd r.position)
  else if r.stop count < r.position then throw (.overflow r.position)
  else
    set (r.advance count)
    pure (r.rest.take count)

def u8 : Read UInt8 := do
  let bs ← bytes 1
  pure (bs.headD 0)

/-- A byte as a truth value: zero is false and all else true. -/
def bool : Read Bool := do
  let b ← u8
  pure (b != 0)

def u16 : Read UInt16 := do
  let bs ← bytes 2
  pure (UInt16.ofNat (ofLittleEndian bs))

def u32 : Read UInt32 := do
  let bs ← bytes 4
  pure (UInt32.ofNat (ofLittleEndian bs))

def i64 : Read Int64 := do
  let bs ← bytes 8
  pure (UInt64.ofNat (ofLittleEndian bs)).toInt64

/-- Text: a length of four bytes and then that many bytes of UTF-8. -/
def string : Read String := do
  let length ← u32
  let start := (← reader).position
  let bs ← bytes length.toNat
  match Text.ofUtf8? bs with
  | some text => pure text
  | none => refuse (.invalidUtf8 start)

/-- A presence byte and, if it is not zero, a value. -/
def optional {α : Type} (item : Read α) : Read (Option α) := do
  if ← bool then
    let value ← item
    pure (some value)
  else pure none

/-- A tag byte with a meaning; one without is reported at its own offset. -/
def tag {α : Type} (role : TagRole) (meaning : UInt8 → Option α) : Read α := do
  let offset := (← reader).position
  let byte ← u8
  match meaning byte with
  | some value => pure value
  | none => refuse (.invalidTag role byte offset)

def times {α : Type} (item : Read α) : Nat → Read (List α)
  | 0 => pure []
  | n + 1 => do
    let first ← item
    let others ← times item n
    pure (first :: others)

/-- A count of four bytes and then that many items. -/
def list {α : Type} (item : Read α) : Read (List α) := do
  let count ← u32
  times item count.toNat

end Read

end FluentWrappers.Binary
