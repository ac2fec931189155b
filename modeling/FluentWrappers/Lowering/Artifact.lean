import FluentWrappers.Artifact.Container
import FluentWrappers.Lowering.Closure
import FluentWrappers.Lowering.Code
import FluentWrappers.Synthesis.Error

/-!
# From synthesized types to an artifact (`SPEC_FULL.md`, 10.7, `ArtifactBackend`)

Each type becomes a definition, bodies become code, and the artifact is verified. It is standalone if
the types are closed and lenient otherwise.
-/

namespace FluentWrappers

mutual
def TypeRef.signature : TypeRef → Signature
  | .primitive p => .primitive p
  | .string => .string
  | .object => .object
  | .named name | .synthesized name => .named name.canonical
  | .array element => .array element.signature
  | .generic definition args => .generic definition.canonical (TypeRef.signaturesOfAll args)

def TypeRef.signaturesOfAll : List TypeRef → List Signature
  | [] => []
  | t :: rest => t.signature :: TypeRef.signaturesOfAll rest
end

namespace Lowering

open Synthesis (FieldSpec ParamSpec PropertySpec MethodSpec MethodKind Body ProductKind
  SynthesizedType SynthesisError LoweringFault)

/-! ### Members -/

def kindFlags (m : MethodSpec) : UInt32 :=
  match m.kind with
  | .abstractMethod => MethodFlag.isAbstract ||| MethodFlag.isVirtual
  | .instanceMethod =>
    if m.implements.isSome then MethodFlag.isVirtual ||| MethodFlag.isFinal else 0
  | .constructor => MethodFlag.isConstructor
  | .staticMethod => MethodFlag.isStatic

/-- The flags of a method. -/
def methodFlags (m : MethodSpec) : UInt32 :=
  if m.specialName then kindFlags m ||| MethodFlag.hasSpecialName else kindFlags m

/-- The body that belongs to a method: none if it is abstract, one if not. -/
def bodyOf? (m : MethodSpec) : Option (Option Body) :=
  match m.kind, m.body with
  | .abstractMethod, none => some none
  | .abstractMethod, some _ => none
  | _, some body => some (some body)
  | _, none => none

def lowerMethod (table : List MemberReference) (owner : SynthesizedType) (m : MethodSpec) :
    Except LoweringFault Method :=
  match bodyOf? m with
  | none => .error (.bodyMismatch owner.canonical m.name)
  | some body => .ok {
      name := m.name
      visibility := m.visibility
      flags := methodFlags m
      params := m.params.map fun p => ⟨p.name, p.type.signature⟩
      returns := (m.returns.map TypeRef.signature).getD .void
      binding := m.implements.map fun b => ⟨b.interface.canonical, b.method⟩
      maxStack := (body.map (·.maxStack)).getD 0
      code := (body.map (bodyCode table)).getD [] }

def lowerField (f : FieldSpec) : Field := ⟨f.name, f.type.signature, f.visibility⟩

def lowerProperty (p : PropertySpec) : Property := ⟨p.name, p.type.signature, p.getter, p.setter⟩

/-! ### Types -/

def definitionKind : ProductKind → TypeKind
  | .interface => .interface
  | .proxy | .fluent => .classType
  | .structClone => .struct
  | .enumClone => .enumeration

def typeFlags (t : SynthesizedType) : UInt32 :=
  (if t.kind = .interface then TypeFlag.isAbstract else 0) |||
    (if t.isSealed then TypeFlag.isSealed else 0)

def lowerType (table : List MemberReference) (t : SynthesizedType) :
    Except LoweringFault TypeDefinition := do
  let methods ← t.methods.mapM (lowerMethod table t)
  return {
    name := t.canonical
    kind := definitionKind t.kind
    visibility := t.visibility
    flags := typeFlags t
    base := if definitionKind t.kind = .classType then some rootObject else none
    interfaces := t.interfaces.map (·.canonical)
    fields := t.fields.map lowerField
    methods
    properties := t.properties.map lowerProperty
    underlying := t.enumSpec.map (·.underlying)
    literals := (t.enumSpec.map (·.literals)).getD [] }

/-- The definitions of types that follow types of the given names; no name may come again. -/
def lowerTypes (table : List MemberReference) :
    List String → List SynthesizedType → Except LoweringFault (List TypeDefinition)
  | _, [] => .ok []
  | seen, t :: rest =>
    if seen.contains t.canonical then .error (.emittedTwice t.canonical)
    else do
      let first ← lowerType table t
      let others ← lowerTypes table (t.canonical :: seen) rest
      return first :: others

/-! ### Artifacts -/

/-- The artifact of types, before it is verified. -/
def assemble (runtime : RuntimeNames) (metadata : Metadata) (types : List SynthesizedType) :
    Except LoweringFault Artifact := do
  let table := referenceTable types
  let definitions ← lowerTypes table [] types
  return {
    flags := if isClosed runtime types then ArtifactFlag.standalone else ArtifactFlag.lenient
    memberRefs := table
    types := definitions
    runtimeRefs := runtimeRefs runtime types
    metadata }

/-- The verified artifact of types; what it says of foreign types is as in 10.7 (`STANDALONE`). -/
def lower (runtime : RuntimeNames) (metadata : Metadata) (types : List SynthesizedType) :
    Except SynthesisError Artifact := do
  let artifact ← (assemble runtime metadata types).mapError .lowering
  match artifact.verify with
  | .ok () => return artifact
  | .error cause => throw (.lowering (.unsound cause))

end Lowering

end FluentWrappers
