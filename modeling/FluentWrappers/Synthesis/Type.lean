import FluentWrappers.Source.Descriptor
import FluentWrappers.Synthesis.Body

/-!
# Synthesized types (`SPEC_FULL.md`, 3, `SynthesizedType`)

A synthesized type is made as a whole and never changes. It is an interface, a proxy that implements
it, a fluent wrapper around a proxy, or the clone of an enumeration or struct.
-/

namespace FluentWrappers.Synthesis

inductive ProductKind where
  /-- The accessors of a source type's members. -/
  | interface
  /-- A class that stores the members. -/
  | proxy
  /-- A wrapper whose setters can be chained. -/
  | fluent
  | enumClone
  | structClone
  deriving DecidableEq, Repr, Inhabited

namespace ProductKind

def all : List ProductKind := [interface, proxy, fluent, enumClone, structClone]

def label : ProductKind → String
  | interface => "interface"
  | proxy => "proxy"
  | fluent => "fluent"
  | enumClone => "enum"
  | structClone => "struct"

def ofLabel? (word : String) : Option ProductKind := all.find? (·.label == word)

end ProductKind

structure FieldSpec where
  name : String
  type : TypeRef
  visibility : Visibility
  deriving DecidableEq, Repr

structure ParamSpec where
  name : String
  type : TypeRef
  deriving DecidableEq, Repr

inductive MethodKind where
  | abstractMethod
  | instanceMethod
  | constructor
  | staticMethod
  deriving DecidableEq, Repr

structure InterfaceBinding where
  interface : TypeName
  method : String
  deriving DecidableEq, Repr

structure MethodSpec where
  name : String
  visibility : Visibility
  kind : MethodKind
  params : List ParamSpec
  returns : Option TypeRef
  implements : Option InterfaceBinding
  specialName : Bool
  body : Option Body
  deriving DecidableEq, Repr

def MethodSpec.arity (m : MethodSpec) : Nat := m.params.length

structure PropertySpec where
  name : String
  type : TypeRef
  getter : Option String
  setter : Option String
  deriving DecidableEq, Repr

structure EnumSpec where
  underlying : Primitive
  literals : List Literal
  deriving DecidableEq, Repr

structure SynthesizedType where
  name : TypeName
  kind : ProductKind
  visibility : Visibility := .publicAccess
  isSealed : Bool := false
  source : TypeName
  interfaces : List TypeName := []
  members : List Member := []
  fields : List FieldSpec := []
  methods : List MethodSpec := []
  properties : List PropertySpec := []
  enumSpec : Option EnumSpec := none
  deriving DecidableEq, Repr

namespace SynthesizedType

def handle (t : SynthesizedType) : TypeRef := .synthesized t.name

def canonical (t : SynthesizedType) : String := t.name.canonical

def findMethod? (t : SynthesizedType) (name : String) (arity : Nat) : Option MethodSpec :=
  t.methods.find? fun m => m.name == name && m.arity == arity

def findProperty? (t : SynthesizedType) (name : String) : Option PropertySpec :=
  t.properties.find? (·.name == name)

end SynthesizedType

def Instruction.owner? : Instruction → Option TypeName
  | loadField f | storeField f => some f.owner
  | call m | callVirt m | newObj m => some m.owner
  | loadThis | loadArg _ | ret => none

/-- The names that a method mentions: parameters, result, binding and body. -/
def MethodSpec.mentionedNames (m : MethodSpec) : List TypeName :=
  m.params.flatMap (·.type.synthesizedNames) ++
    (m.returns.map TypeRef.synthesizedNames).getD [] ++
    (m.implements.map (·.interface)).toList ++
    (m.body.map fun b => b.instructions.filterMap Instruction.owner?).getD []

namespace SynthesizedType

/-- The names that a type mentions: interfaces, fields, properties and methods. -/
def mentionedNames (t : SynthesizedType) : List TypeName :=
  t.interfaces ++ t.fields.flatMap (·.type.synthesizedNames) ++
    t.properties.flatMap (·.type.synthesizedNames) ++ t.methods.flatMap MethodSpec.mentionedNames

/-- The names of the other types that a type needs, each once: all that it mentions but itself and
the root object. -/
def dependencies (t : SynthesizedType) : List TypeName :=
  (t.mentionedNames.filter fun name => name != t.name && name.canonical != rootObject).eraseDups

def memberTypes (t : SynthesizedType) : List TypeRef :=
  t.fields.map (·.type) ++ t.properties.map (·.type) ++
    t.methods.flatMap fun m => m.params.map (·.type) ++ m.returns.toList

/-- Whether no field, property, parameter or result points into the source catalog. -/
def isSelfContained (t : SynthesizedType) : Bool :=
  t.memberTypes.all TypeRef.isSelfContained

end SynthesizedType

end FluentWrappers.Synthesis
