import FluentWrappers.Artifact.Opcode

/-!
# Requests to a reader (`SPEC_FULL.md`, 10.7, artifact binary format)

A caller moves a reader and asks it for values, one command after the other. A read that is refused is
answered with its cause, and the caller goes on; a read that overflows is not answered, and neither is
anything after it, because the program stops there.
-/

namespace FluentWrappers.Binary

/-- What a reader can be asked for. -/
inductive ReadRequest where
  | u8
  | bool
  | u16
  | u32
  | i64
  | string
  | optionalString
  | bytes (count : Nat)
  | opcode
  deriving DecidableEq, Repr

namespace ReadRequest

def Value : ReadRequest → Type
  | .u8 => UInt8
  | .bool => Bool
  | .u16 => UInt16
  | .u32 => UInt32
  | .i64 => Int64
  | .string => String
  | .optionalString => Option String
  | .bytes _ => List UInt8
  | .opcode => Opcode

def read : (request : ReadRequest) → Read request.Value
  | .u8 => Read.u8
  | .bool => Read.bool
  | .u16 => Read.u16
  | .u32 => Read.u32
  | .i64 => Read.i64
  | .string => Read.string
  | .optionalString => Read.optional Read.string
  | .bytes count => Read.bytes count
  | .opcode => Read.opcode

end ReadRequest

/-- What a caller does with a reader. -/
inductive ReaderCommand where
  | seek (position : Nat)
  | read (request : ReadRequest)
  deriving DecidableEq, Repr

def ReaderCommand.Value : ReaderCommand → Type
  | .seek _ => Unit
  | .read request => request.Value

/-- The answer to a command and the reader after it. -/
structure ReaderAnswer where
  command : ReaderCommand
  outcome : Except DecodeError command.Value
  reader : Reader

/-- What a caller learns of a read. -/
def ReadRequest.answer? (request : ReadRequest) :
    Except ReadFault request.Value × Reader → Option ReaderAnswer
  | (.ok value, next) => some ⟨.read request, .ok value, next⟩
  | (.error (.refused cause), next) => some ⟨.read request, .error cause, next⟩
  | (.error (.overflow _), _) => none

namespace Reader

/-- The answer to one command, if the program does not stop there. -/
def answer? (r : Reader) : ReaderCommand → Option ReaderAnswer
  | .seek position => some ⟨.seek position, .ok (), r.seek position⟩
  | .read request => request.answer? (request.read r)

/-- The answers to commands, one after the other, and the reader after the last of them. -/
def serve? (r : Reader) : List ReaderCommand → Option (List ReaderAnswer × Reader)
  | [] => some ([], r)
  | command :: later => do
    let answer ← r.answer? command
    let (others, last) ← answer.reader.serve? later
    return (answer :: others, last)

end Reader

end FluentWrappers.Binary
