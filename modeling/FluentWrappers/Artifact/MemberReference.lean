import FluentWrappers.Artifact.Signature

/-!
# Member references (`SPEC_FULL.md`, 10.7, member-reference table)

Bodies name fields and methods through a table of references that all bodies of an artifact share.
-/

namespace FluentWrappers

inductive MemberKind where
  | field
  | method
  deriving DecidableEq, Repr, Inhabited

namespace MemberKind

def byte : MemberKind → UInt8
  | field => 0
  | method => 1

def ofByte? (b : UInt8) : Option MemberKind :=
  if b = 0 then some field else if b = 1 then some method else none

@[simp] theorem ofByte?_byte (k : MemberKind) : ofByte? k.byte = some k := by
  cases k <;> rfl

theorem byte_of_ofByte? {b : UInt8} {k : MemberKind} (h : ofByte? b = some k) : k.byte = b := by
  simp only [ofByte?] at h
  split at h
  case isTrue e => rw [← Option.some.inj h, e]; rfl
  case isFalse =>
    split at h
    case isTrue e => rw [← Option.some.inj h, e]; rfl
    case isFalse => simp at h

end MemberKind

/-- A field or method by owner and name. The last three fields matter for methods only. -/
structure MemberReference where
  kind : MemberKind
  owner : String
  name : String
  paramCount : UInt16
  returnsValue : Bool
  isStatic : Bool
  deriving DecidableEq, Repr, Inhabited

namespace MemberReference

def field (owner name : String) : MemberReference :=
  ⟨.field, owner, name, 0, false, false⟩

def method (owner name : String) (paramCount : UInt16) (returnsValue : Bool) : MemberReference :=
  ⟨.method, owner, name, paramCount, returnsValue, false⟩

/-- Whether the reference names the constructor of the root object, which does nothing. -/
def isRootConstructor (m : MemberReference) : Bool :=
  m.owner == rootObject && m.name == constructorName

open Binary

def encode (m : MemberReference) : List UInt8 :=
  Wire.u8 m.kind.byte ++ Wire.string m.owner ++ Wire.string m.name ++ Wire.u16 m.paramCount ++
    Wire.bool m.returnsValue ++ Wire.bool m.isStatic

def decode : Read MemberReference := do
  let kind ← Read.tag .memberKind MemberKind.ofByte?
  let owner ← Read.string
  let name ← Read.string
  let paramCount ← Read.u16
  let returnsValue ← Read.bool
  let isStatic ← Read.bool
  return ⟨kind, owner, name, paramCount, returnsValue, isStatic⟩

end MemberReference

end FluentWrappers
