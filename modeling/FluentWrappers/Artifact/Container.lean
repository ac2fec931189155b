import FluentWrappers.Artifact.MemberReference
import FluentWrappers.Artifact.Metadata
import FluentWrappers.Artifact.TypeDefinition
import FluentWrappers.Checksum
import FluentWrappers.Text.Basic

/-!
# Artifacts and their files (`SPEC_FULL.md`, 10.7, artifact binary format)

An artifact holds member references, type definitions, the names it may use of the base runtime, and
metadata. Its file is a header of forty-eight bytes (mark, version, flags, CRC-32 and SHA-256 of the
payload) and the payload.
-/

namespace FluentWrappers

open Binary

def fileMark : List UInt8 := [0x46, 0x47, 0x4e, 0x41]

def formatVersion : UInt32 := 1

def headerSize : Nat := 48

namespace ArtifactFlag

/-- Every type that a signature names is defined in the artifact or registered. -/
def standalone : UInt32 := 1

def lenient : UInt32 := 2

end ArtifactFlag

inductive ArtifactError where
  | decode (cause : DecodeError)
  | invalidMark (found : List UInt8)
  | unsupportedVersion (version : UInt32)
  | checksumMismatch (stored actual : UInt32)
  | hashMismatch
  | trailingBytes (count : Nat)
  deriving DecidableEq, Repr

def ArtifactError.message : ArtifactError → String
  | .decode cause => s!"Decode error: {cause.message}"
  | .invalidMark found =>
    let bytes := ", ".intercalate (found.map fun b => toString b.toNat)
    s!"Invalid magic number: expected FGNA, got [{bytes}]"
  | .unsupportedVersion version =>
    s!"Unsupported version: {version} (current: {formatVersion})"
  | .checksumMismatch stored actual =>
    let expected := Text.markedHex stored.toNat
    let got := Text.markedHex actual.toNat
    s!"Checksum mismatch: expected {expected}, got {got}"
  | .hashMismatch => "Payload hash mismatch"
  | .trailingBytes count => s!"{count} trailing bytes after artifact payload"

structure Artifact where
  mark : List UInt8 := fileMark
  version : UInt32 := formatVersion
  flags : UInt32 := 0
  memberRefs : List MemberReference := []
  types : List TypeDefinition := []
  /-- The types and generic definitions of the base runtime that the artifact may name. -/
  runtimeRefs : List String := []
  metadata : Metadata
  deriving DecidableEq, Repr, Inhabited

inductive HeaderFault where
  | mark
  | version (found : UInt32)
  deriving DecidableEq, Repr

def HeaderFault.message : HeaderFault → String
  | .mark => "Invalid magic number"
  | .version found => s!"Unsupported version: {found}"

namespace Artifact

def headerFault? (a : Artifact) : Option HeaderFault :=
  if a.mark ≠ fileMark then some .mark
  else if a.version ≠ formatVersion then some (.version a.version)
  else none

def findType? (a : Artifact) (name : String) : Option TypeDefinition :=
  a.types.find? (·.name == name)

def resolves (a : Artifact) (name : String) : Bool :=
  (a.findType? name).isSome || a.runtimeRefs.contains name

def payload (a : Artifact) : List UInt8 :=
  Wire.list MemberReference.encode a.memberRefs ++ Wire.list TypeDefinition.encode a.types ++
    Wire.list Wire.string a.runtimeRefs ++ a.metadata.encode

def encode (a : Artifact) : List UInt8 :=
  let payload := a.payload
  a.mark ++ Wire.u32 a.version ++ Wire.u32 a.flags ++ Wire.u32 (Checksum.crc32 payload) ++
    Checksum.sha256 payload ++ payload

end Artifact

/-- A failed read of a part is a fault of the file. -/
def ArtifactError.ofRead (fault : ReadFault) : ArtifactError := .decode fault.cause

/-- A read of a file. -/
abbrev FileRead := ExceptT ArtifactError (StateM Reader)

def FileRead.part {α : Type} (item : Read α) : FileRead α :=
  fun r => match item r with
    | (.ok value, r') => (.ok value, r')
    | (.error fault, r') => (.error (.ofRead fault), r')

/-- Goes on only if a condition holds. -/
def FileRead.require (condition : Prop) [Decidable condition] (fault : ArtifactError) :
    FileRead Unit :=
  if condition then pure () else throw fault

namespace Artifact

def decodePayload (mark : List UInt8) (version flags : UInt32) : Read Artifact := do
  let memberRefs ← Read.list MemberReference.decode
  let types ← Read.list TypeDefinition.decode
  let runtimeRefs ← Read.list Read.string
  let metadata ← Metadata.decode
  return { mark, version, flags, memberRefs, types, runtimeRefs, metadata }

/-- Reads a whole file: the header with its checks, the payload, and then nothing more
(`decode`, 10.7). -/
def read : FileRead Artifact := do
  let data := (← get).rest
  let mark ← FileRead.part (Read.bytes 4)
  FileRead.require (mark = fileMark) (.invalidMark mark)
  let version ← FileRead.part Read.u32
  FileRead.require (version = formatVersion) (.unsupportedVersion version)
  let flags ← FileRead.part Read.u32
  let storedCrc ← FileRead.part Read.u32
  let storedHash ← FileRead.part (Read.bytes 32)
  let payload := data.drop headerSize
  let actualCrc := Checksum.crc32 payload
  FileRead.require (storedCrc = actualCrc) (.checksumMismatch storedCrc actualCrc)
  FileRead.require (Checksum.sha256 payload = storedHash) .hashMismatch
  let artifact ← FileRead.part (decodePayload mark version flags)
  let after ← get
  FileRead.require (after.hasMore = false) (.trailingBytes after.remaining)
  return artifact

def decode (data : List UInt8) : Except ArtifactError Artifact :=
  (read (Reader.ofBytes data)).1

end Artifact

end FluentWrappers
