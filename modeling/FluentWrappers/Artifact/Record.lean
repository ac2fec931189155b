import FluentWrappers.Artifact.Container
import FluentWrappers.Artifact.Metadata
import FluentWrappers.Artifact.Opcode

/-!
# Artifacts as JSON

Signatures are alternatives; references, members, types and artifacts are records. Bytes are
hexadecimal texts and literal values decimal texts, for readers that hold numbers as floats.
-/

namespace FluentWrappers

namespace Primitive

def ofJson? (j : Json) : Option Primitive := j.bareAlternative?.bind ofName?

def toJson (p : Primitive) : Json := .text p.name

def overview (p : Primitive) : Json :=
  .object [("name", .text p.name), ("byte", .int p.byte.toNat), ("integral", .bool p.isIntegral),
    ("float", .bool p.isFloat)]

end Primitive

def Opcode.overview (op : Opcode) : Json :=
  .object [("name", .text op.name), ("byte", .int op.byte.toNat),
    ("operand_size", .int op.operandSize), ("references_member", .bool op.referencesMember),
    ("is_call", .bool op.isCall), ("is_terminator", .bool op.isTerminator)]

namespace Visibility

def ofJson? (j : Json) : Option Visibility := j.bareAlternative?.bind ofKeyword?

def toJson (v : Visibility) : Json := .text v.keyword

end Visibility

namespace Json

def word? (j : Json) : Option UInt32 := (j.nat? 0x100000000).map UInt32.ofNat

def halfWord? (j : Json) : Option UInt16 := (j.nat? 0x10000).map UInt16.ofNat

def bytes? (j : Json) : Option (List UInt8) := j.text?.bind Text.bytesOfHex?

def ofBytes (bytes : List UInt8) : Json := text (Text.hexOfBytes bytes)

def decimal? (j : Json) : Option Int64 := (j.text?.bind Text.intOfDecimal?).map Int64.ofInt

def ofDecimal (i : Int64) : Json := text (toString i.toInt)

end Json

namespace Signature

mutual
def ofJson? : Json → Option Signature
  | .text word =>
    match word with
    | "void" => some .void
    | "string" => some .string
    | "object" => some .object
    | _ => none
  | .object [(name, content)] =>
    match name with
    | "primitive" => (Primitive.ofJson? content).map .primitive
    | "named" => content.text?.map .named
    | "array" => (ofJson? content).map .array
    | "generic" => ofGeneric? content
    | _ => none
  | _ => none

def ofGeneric? : Json → Option Signature
  | .object fields => do
    let definition ← (fields.lookup "definition").bind Json.text?
    let args ← argsOfFields? fields
    return .generic definition args
  | _ => none

def argsOfFields? : List (String × Json) → Option (List Signature)
  | [] => some []
  | (name, content) :: rest => if name = "args" then argsOf? content else argsOfFields? rest

def argsOf? : Json → Option (List Signature)
  | .array items => ofAll? items
  | _ => none

def ofAll? : List Json → Option (List Signature)
  | [] => some []
  | j :: rest => do
    let s ← ofJson? j
    let others ← ofAll? rest
    return s :: others
end

mutual
def toJson : Signature → Json
  | .void => .text "void"
  | .string => .text "string"
  | .object => .text "object"
  | .primitive p => .object [("primitive", p.toJson)]
  | .named name => .object [("named", .text name)]
  | .array element => .object [("array", element.toJson)]
  | .generic definition args =>
    .object [("generic", .object [("definition", .text definition), ("args", .array (toJsonAll args))])]

def toJsonAll : List Signature → List Json
  | [] => []
  | s :: rest => s.toJson :: toJsonAll rest
end

end Signature

namespace MemberReference

def ofJson? (j : Json) : Option MemberReference := do
  let r ← j.record? ["kind", "owner", "name", "params", "returns", "static"]
  let kind ← r.required? "kind" fun
    | .text "field" => some .field
    | .text "method" => some .method
    | _ => none
  let owner ← r.required? "owner" Json.text?
  let name ← r.required? "name" Json.text?
  let paramCount ← r.withDefault? "params" 0 Json.halfWord?
  let returnsValue ← r.withDefault? "returns" false Json.bool?
  let isStatic ← r.withDefault? "static" false Json.bool?
  return { kind, owner, name, paramCount, returnsValue, isStatic }

def toJson (m : MemberReference) : Json :=
  let kind := match m.kind with
    | .field => "field"
    | .method => "method"
  .object [("kind", .text kind), ("owner", .text m.owner), ("name", .text m.name),
    ("params", .int m.paramCount.toNat), ("returns", .bool m.returnsValue),
    ("static", .bool m.isStatic)]

end MemberReference

namespace Field

def ofJson? (j : Json) : Option Field := do
  let r ← j.record? ["name", "type", "visibility"]
  let name ← r.required? "name" Json.text?
  let type ← r.required? "type" Signature.ofJson?
  let visibility ← r.withDefault? "visibility" .publicAccess Visibility.ofJson?
  return { name, type, visibility }

def toJson (f : Field) : Json :=
  .object [("name", .text f.name), ("type", f.type.toJson), ("visibility", f.visibility.toJson)]

end Field

namespace Parameter

def ofJson? (j : Json) : Option Parameter := do
  let r ← j.record? ["name", "type"]
  let name ← r.required? "name" Json.text?
  let type ← r.required? "type" Signature.ofJson?
  return { name, type }

def toJson (p : Parameter) : Json :=
  .object [("name", .text p.name), ("type", p.type.toJson)]

end Parameter

namespace MethodBinding

def ofJson? (j : Json) : Option MethodBinding := do
  let r ← j.record? ["interface", "method"]
  let interface ← r.required? "interface" Json.text?
  let method ← r.required? "method" Json.text?
  return { interface, method }

def toJson (b : MethodBinding) : Json :=
  .object [("interface", .text b.interface), ("method", .text b.method)]

end MethodBinding

namespace Method

def fieldNames : List String :=
  ["name", "visibility", "flags", "params", "returns", "overrides", "max_stack", "code"]

def ofJson? (j : Json) : Option Method := do
  let r ← j.record? fieldNames
  let name ← r.required? "name" Json.text?
  let visibility ← r.withDefault? "visibility" .publicAccess Visibility.ofJson?
  let flags ← r.withDefault? "flags" 0 Json.word?
  let params ← r.withDefault? "params" [] (Json.list? Parameter.ofJson?)
  let returns ← r.withDefault? "returns" .void Signature.ofJson?
  let binding ← r.optional? "overrides" MethodBinding.ofJson?
  let maxStack ← r.withDefault? "max_stack" 0 Json.halfWord?
  let code ← r.withDefault? "code" [] Json.bytes?
  return { name, visibility, flags, params, returns, binding, maxStack, code }

/-- The record of a method; every field is written. -/
def toJson (m : Method) : Json :=
  .object [("name", .text m.name), ("visibility", m.visibility.toJson), ("flags", .int m.flags.toNat),
    ("params", .array (m.params.map Parameter.toJson)), ("returns", m.returns.toJson),
    ("overrides", Json.ofOption MethodBinding.toJson m.binding),
    ("max_stack", .int m.maxStack.toNat), ("code", Json.ofBytes m.code)]

def overview (m : Method) : Json :=
  .object [("name", .text m.name), ("abstract", .bool m.isAbstract), ("static", .bool m.isStatic),
    ("constructor", .bool m.isConstructor), ("returns_value", .bool m.returnsValue),
    ("arity", .int m.arity), ("arg_slots", .int m.argSlots), ("code", Json.ofBytes m.code)]

end Method

namespace Property

def ofJson? (j : Json) : Option Property := do
  let r ← j.record? ["name", "type", "getter", "setter"]
  let name ← r.required? "name" Json.text?
  let type ← r.required? "type" Signature.ofJson?
  let getter ← r.optional? "getter" Json.text?
  let setter ← r.optional? "setter" Json.text?
  return { name, type, getter, setter }

def toJson (p : Property) : Json :=
  .object [("name", .text p.name), ("type", p.type.toJson), ("getter", Json.ofOption .text p.getter),
    ("setter", Json.ofOption .text p.setter)]

end Property

namespace Literal

def ofDecimalJson? (j : Json) : Option Literal := do
  let r ← j.record? ["name", "value"]
  let name ← r.required? "name" Json.text?
  let value ← r.required? "value" Json.decimal?
  return { name, value }

def toDecimalJson (l : Literal) : Json :=
  .object [("name", .text l.name), ("value", Json.ofDecimal l.value)]

end Literal

namespace TypeDefinition

def fieldNames : List String :=
  ["name", "kind", "visibility", "flags", "base", "interfaces", "fields", "methods", "properties",
    "underlying", "literals"]

def ofJson? (j : Json) : Option TypeDefinition := do
  let r ← j.record? fieldNames
  let name ← r.required? "name" Json.text?
  let kind ← r.withDefault? "kind" .classType fun j => j.text?.bind TypeKind.ofKeyword?
  let visibility ← r.withDefault? "visibility" .publicAccess Visibility.ofJson?
  let flags ← r.withDefault? "flags" 0 Json.word?
  let base ← r.optional? "base" Json.text?
  let interfaces ← r.withDefault? "interfaces" [] (Json.list? Json.text?)
  let fields ← r.withDefault? "fields" [] (Json.list? Field.ofJson?)
  let methods ← r.withDefault? "methods" [] (Json.list? Method.ofJson?)
  let properties ← r.withDefault? "properties" [] (Json.list? Property.ofJson?)
  let underlying ← r.optional? "underlying" Primitive.ofJson?
  let literals ← r.withDefault? "literals" [] (Json.list? Literal.ofDecimalJson?)
  return { name, kind, visibility, flags, base, interfaces, fields, methods, properties, underlying,
           literals }

/-- The record of a type; every field is written. -/
def toJson (t : TypeDefinition) : Json :=
  .object [("name", .text t.name), ("kind", .text t.kind.keyword),
    ("visibility", t.visibility.toJson), ("flags", .int t.flags.toNat),
    ("base", Json.ofOption .text t.base), ("interfaces", .array (t.interfaces.map .text)),
    ("fields", .array (t.fields.map Field.toJson)), ("methods", .array (t.methods.map Method.toJson)),
    ("properties", .array (t.properties.map Property.toJson)),
    ("underlying", Json.ofOption Primitive.toJson t.underlying),
    ("literals", .array (t.literals.map Literal.toDecimalJson))]

end TypeDefinition

namespace Artifact

def fieldNames : List String :=
  ["magic", "version", "flags", "member_refs", "types", "runtime_refs", "metadata"]

def ofJson? (j : Json) : Option Artifact := do
  let r ← j.record? fieldNames
  let mark ← r.withDefault? "magic" fileMark Json.bytes?
  let version ← r.withDefault? "version" formatVersion Json.word?
  let flags ← r.withDefault? "flags" 0 Json.word?
  let memberRefs ← r.withDefault? "member_refs" [] (Json.list? MemberReference.ofJson?)
  let types ← r.withDefault? "types" [] (Json.list? TypeDefinition.ofJson?)
  let runtimeRefs ← r.withDefault? "runtime_refs" [] (Json.list? Json.text?)
  let metadata ← r.withDefault? "metadata" {} Metadata.ofJson?
  return { mark, version, flags, memberRefs, types, runtimeRefs, metadata }

/-- The record of an artifact; every field is written. -/
def toJson (a : Artifact) : Json :=
  .object [("magic", Json.ofBytes a.mark), ("version", .int a.version.toNat),
    ("flags", .int a.flags.toNat), ("member_refs", .array (a.memberRefs.map MemberReference.toJson)),
    ("types", .array (a.types.map TypeDefinition.toJson)),
    ("runtime_refs", .array (a.runtimeRefs.map .text)), ("metadata", a.metadata.toJson)]

end Artifact

end FluentWrappers
