import FluentWrappers.Artifact.Keyword
import FluentWrappers.Artifact.Signature

/-!
# Type definitions (`SPEC_FULL.md`, 10.7, type table)

The types of an artifact with their fields, methods, properties and literals, how to look these up,
and how they are laid out as bytes.
-/

namespace FluentWrappers

open Binary

/-! ### Flags -/

namespace TypeFlag

def isSealed : UInt32 := 1

def isAbstract : UInt32 := 2

end TypeFlag

namespace MethodFlag

def isAbstract : UInt32 := 1

/-- The method is found through the receiver's type. -/
def isVirtual : UInt32 := 2

def isStatic : UInt32 := 4

def isConstructor : UInt32 := 8

/-- The method cannot be overridden further. -/
def isFinal : UInt32 := 16

/-- The method is an accessor or a constructor. -/
def hasSpecialName : UInt32 := 32

end MethodFlag

def hasFlag (flags flag : UInt32) : Bool := flags &&& flag != 0

/-! ### Members -/

structure Field where
  name : String
  type : Signature
  visibility : Visibility
  deriving DecidableEq, Repr, Inhabited

structure MethodBinding where
  interface : String
  method : String
  deriving DecidableEq, Repr, Inhabited

structure Parameter where
  name : String
  type : Signature
  deriving DecidableEq, Repr, Inhabited

structure Method where
  name : String
  visibility : Visibility
  flags : UInt32
  params : List Parameter
  returns : Signature
  binding : Option MethodBinding
  maxStack : UInt16
  code : List UInt8
  deriving DecidableEq, Repr, Inhabited

/-- A property: a type and the names of its accessors. -/
structure Property where
  name : String
  type : Signature
  getter : Option String
  setter : Option String
  deriving DecidableEq, Repr, Inhabited

structure Literal where
  name : String
  value : Int64
  deriving DecidableEq, Repr

instance : Inhabited Literal := ⟨⟨"", 0⟩⟩

structure TypeDefinition where
  name : String
  kind : TypeKind
  visibility : Visibility := .publicAccess
  flags : UInt32 := 0
  base : Option String := none
  interfaces : List String := []
  fields : List Field := []
  methods : List Method := []
  properties : List Property := []
  underlying : Option Primitive := none
  literals : List Literal := []
  deriving DecidableEq, Repr, Inhabited

/-! ### Questions -/

namespace Method

def isAbstract (m : Method) : Bool := hasFlag m.flags MethodFlag.isAbstract

def isStatic (m : Method) : Bool := hasFlag m.flags MethodFlag.isStatic

def isConstructor (m : Method) : Bool := hasFlag m.flags MethodFlag.isConstructor

def returnsValue (m : Method) : Bool := !m.returns.isVoid

def arity (m : Method) : Nat := m.params.length

def argSlots (m : Method) : Nat := m.params.length + if m.isStatic then 0 else 1

end Method

namespace TypeDefinition

def isSealed (t : TypeDefinition) : Bool := hasFlag t.flags TypeFlag.isSealed

def findMethod? (t : TypeDefinition) (name : String) (arity : Nat) : Option Method :=
  t.methods.find? fun m => m.name == name && m.arity == arity

/-- The first method bound to an interface method. -/
def findImplementation? (t : TypeDefinition) (interface method : String) : Option Method :=
  t.methods.find? fun m => m.binding == some ⟨interface, method⟩

def findField? (t : TypeDefinition) (name : String) : Option Field :=
  t.fields.find? (·.name == name)

def findProperty? (t : TypeDefinition) (name : String) : Option Property :=
  t.properties.find? (·.name == name)

end TypeDefinition

/-! ### Layout -/

namespace Field

def encode (f : Field) : List UInt8 :=
  Wire.string f.name ++ f.type.encode ++ Wire.u8 f.visibility.byte

def decode : Read Field := do
  let name ← Read.string
  let type ← Signature.decode
  let visibility ← Read.tag .visibility Visibility.ofByte?
  return ⟨name, type, visibility⟩

end Field

namespace MethodBinding

def encode (b : MethodBinding) : List UInt8 :=
  Wire.string b.interface ++ Wire.string b.method

def decode : Read MethodBinding := do
  let interface ← Read.string
  let method ← Read.string
  return ⟨interface, method⟩

end MethodBinding

namespace Parameter

def encode (p : Parameter) : List UInt8 :=
  Wire.string p.name ++ p.type.encode

def decode : Read Parameter := do
  let name ← Read.string
  let type ← Signature.decode
  return ⟨name, type⟩

end Parameter

namespace Method

def encode (m : Method) : List UInt8 :=
  Wire.string m.name ++ Wire.u8 m.visibility.byte ++ Wire.u32 m.flags ++
    Wire.list Parameter.encode m.params ++ m.returns.encode ++
    Wire.optional MethodBinding.encode m.binding ++ Wire.u16 m.maxStack ++
    Wire.count m.code.length ++ m.code

def decode : Read Method := do
  let name ← Read.string
  let visibility ← Read.tag .visibility Visibility.ofByte?
  let flags ← Read.u32
  let params ← Read.list Parameter.decode
  let returns ← Signature.decode
  let binding ← Read.optional MethodBinding.decode
  let maxStack ← Read.u16
  let length ← Read.u32
  let code ← Read.bytes length.toNat
  return ⟨name, visibility, flags, params, returns, binding, maxStack, code⟩

end Method

namespace Property

def encode (p : Property) : List UInt8 :=
  Wire.string p.name ++ p.type.encode ++ Wire.optional Wire.string p.getter ++
    Wire.optional Wire.string p.setter

def decode : Read Property := do
  let name ← Read.string
  let type ← Signature.decode
  let getter ← Read.optional Read.string
  let setter ← Read.optional Read.string
  return ⟨name, type, getter, setter⟩

end Property

namespace Literal

def encode (l : Literal) : List UInt8 :=
  Wire.string l.name ++ Wire.i64 l.value

def decode : Read Literal := do
  let name ← Read.string
  let value ← Read.i64
  return ⟨name, value⟩

end Literal

namespace TypeDefinition

def encode (t : TypeDefinition) : List UInt8 :=
  Wire.string t.name ++ Wire.u8 t.kind.byte ++ Wire.u8 t.visibility.byte ++ Wire.u32 t.flags ++
    Wire.optional Wire.string t.base ++ Wire.list Wire.string t.interfaces ++
    Wire.list Field.encode t.fields ++ Wire.list Method.encode t.methods ++
    Wire.list Property.encode t.properties ++
    Wire.optional (fun p => Wire.u8 p.byte) t.underlying ++ Wire.list Literal.encode t.literals

def decode : Read TypeDefinition := do
  let name ← Read.string
  let kind ← Read.tag .typeKind TypeKind.ofByte?
  let visibility ← Read.tag .visibility Visibility.ofByte?
  let flags ← Read.u32
  let base ← Read.optional Read.string
  let interfaces ← Read.list Read.string
  let fields ← Read.list Field.decode
  let methods ← Read.list Method.decode
  let properties ← Read.list Property.decode
  let underlying ← Read.optional (Read.tag .primitive Primitive.ofByte?)
  let literals ← Read.list Literal.decode
  return ⟨name, kind, visibility, flags, base, interfaces, fields, methods, properties, underlying,
    literals⟩

end TypeDefinition

end FluentWrappers
