import FluentWrappers.Artifact.Keyword
import FluentWrappers.Artifact.TypeDefinition
import FluentWrappers.Source.TypeRef
import FluentWrappers.Text.Basic

/-!
# Source types (`SPEC_FULL.md`, 10.5, `TypeDescriptor`)

A scanner describes each type of a model by a source type: its name and kind, where it was loaded
from, its base and its members. A member is a property with what decides whether and how wrappers show
it.
-/

namespace FluentWrappers

/-! ### Members -/

structure Member where
  name : String
  type : TypeRef
  visibility : Visibility := .publicAccess
  readable : Bool := true
  writable : Bool := true
  ignored : Bool := false
  getterName : Option String := none
  setterName : Option String := none
  suppressGetter : Option Bool := none
  deriving DecidableEq, Repr, Inhabited

namespace Member

/-- Whether synthesis uses the member: it is public, read and written, and not ignored (4.1). -/
def isEligible (m : Member) : Bool :=
  m.visibility == .publicAccess && m.readable && m.writable && !m.ignored

/-- Whether the fluent wrapper has a getter for the member, given the option of the type (10.3,
`suppress_getter`). -/
def hasFluentGetter (m : Member) (settersOnly : Bool) : Bool :=
  match m.suppressGetter with
  | some suppressed => !suppressed
  | none => !settersOnly

def fluentSetter (m : Member) : String :=
  (m.setterName.bind Text.notBlank?).getD m.name

def fluentGetter (m : Member) : String :=
  (m.getterName.bind Text.notBlank?).getD m.name

def withType (m : Member) (type : TypeRef) : Member :=
  { m with type }

end Member

/-! ### Source types -/

inductive SourceKind where
  | classType
  | interface
  | struct
  | enumeration (underlying : Primitive) (literals : List Literal)
  deriving DecidableEq, Repr

instance : Inhabited SourceKind := ⟨.classType⟩

inductive Origin where
  /-- The base runtime, whose types are used as they are, enumerations excepted. -/
  | runtime
  | artifact (name : String)
  deriving DecidableEq, Repr

instance : Inhabited Origin := ⟨.artifact ""⟩

structure TypeOptions where
  settersOnly : Bool := false
  staticFactory : Option String := none
  deriving DecidableEq, Repr, Inhabited

structure SourceType where
  name : TypeName
  kind : SourceKind := .classType
  visibility : Visibility := .publicAccess
  base : Option TypeName := none
  origin : Origin := .artifact ""
  members : List Member := []
  options : TypeOptions := {}
  deriving DecidableEq, Repr, Inhabited

namespace SourceKind

/-- Whether values of the kind are copied: structs and enumerations. -/
def isValueType : SourceKind → Bool
  | struct | enumeration _ _ => true
  | _ => false

end SourceKind

namespace SourceType

/-- A type without members that was loaded from the artifact named as its namespace. -/
def ofName (name : TypeName) (kind : SourceKind) : SourceType :=
  { name, kind, origin := .artifact name.namespaceName }

def canonical (t : SourceType) : String := t.name.canonical

/-- Whether the type comes with the base runtime. -/
def isRuntime (t : SourceType) : Bool := t.origin == .runtime

/-- The name of the artifact that the type was loaded from, else its namespace, else its name. -/
def originName (t : SourceType) : String :=
  let fallback := if t.name.namespaceName.isEmpty then t.name.simple else t.name.namespaceName
  match t.origin with
  | .artifact name => if name.isEmpty then fallback else name
  | .runtime => fallback

end SourceType

end FluentWrappers
