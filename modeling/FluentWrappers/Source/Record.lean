import FluentWrappers.Artifact.Record
import FluentWrappers.Source.Descriptor

/-!
# Source types as JSON (`SPEC_FULL.md`, 10.3, descriptor manifest)

Names are texts in canonical form. Type references, kinds and origins are alternatives; members,
literals, options and types are records.
-/

namespace FluentWrappers

namespace TypeName

def ofJson? (j : Json) : Option TypeName := j.text?.map parse

def toJson (n : TypeName) : Json := .text n.canonical

end TypeName

namespace TypeRef

mutual
def ofJson? : Json → Option TypeRef
  | .text name => ofBareName? name
  | .object [(name, content)] =>
    match name with
    | "primitive" => (Primitive.ofJson? content).map .primitive
    | "named" => (TypeName.ofJson? content).map .named
    | "synthesized" => (TypeName.ofJson? content).map .synthesized
    | "array" => (ofJson? content).map .array
    | "generic" => ofGeneric? content
    | _ =>
      match content with
      | .null => ofBareName? name
      | _ => none
  | _ => none

def ofBareName? : String → Option TypeRef
  | "string" => some .string
  | "object" => some .object
  | _ => none

def ofGeneric? : Json → Option TypeRef
  | .object fields =>
    if Json.repeatsKnown ["definition", "args"] fields then none
    else do
      let definition ← (fields.lookup "definition").bind TypeName.ofJson?
      let args ← argsOfFields? fields
      return .generic definition args
  | .array [definition, args] => do
    let definition ← TypeName.ofJson? definition
    let args ← argsOf? args
    return .generic definition args
  | _ => none

def argsOfFields? : List (String × Json) → Option (List TypeRef)
  | [] => none
  | (name, content) :: rest => if name = "args" then argsOf? content else argsOfFields? rest

def argsOf? : Json → Option (List TypeRef)
  | .array items => ofAll? items
  | _ => none

def ofAll? : List Json → Option (List TypeRef)
  | [] => some []
  | j :: rest => do
    let t ← ofJson? j
    let others ← ofAll? rest
    return t :: others
end

mutual
def toJson : TypeRef → Json
  | .primitive p => .object [("primitive", p.toJson)]
  | .string => .text "string"
  | .object => .text "object"
  | .named name => .object [("named", name.toJson)]
  | .array element => .object [("array", element.toJson)]
  | .generic definition args =>
    .object [("generic", .object [("definition", definition.toJson), ("args", .array (toJsonAll args))])]
  | .synthesized name => .object [("synthesized", name.toJson)]

def toJsonAll : List TypeRef → List Json
  | [] => []
  | t :: rest => t.toJson :: toJsonAll rest
end

end TypeRef

namespace Literal

def ofJson? (j : Json) : Option Literal := do
  let r ← j.record? ["name", "value"]
  let name ← r.required? "name" Json.text?
  let value ← r.required? "value" Json.int64?
  return ⟨name, value⟩

def toJson (l : Literal) : Json :=
  .object [("name", .text l.name), ("value", .int l.value.toInt)]

end Literal

namespace Origin

def ofJson? (j : Json) : Option Origin := do
  let (name, content) ← j.alternative?
  match name with
  | "runtime" =>
    match content with
    | none | some .null => some .runtime
    | some _ => none
  | "artifact" => do return .artifact (← (← content).text?)
  | _ => none

def toJson : Origin → Json
  | .runtime => .text "runtime"
  | .artifact name => .object [("artifact", .text name)]

end Origin

namespace SourceKind

def enumerationOfJson? (j : Json) : Option SourceKind := do
  let r ← j.record? ["underlying", "literals"]
  let underlying ← r.required? "underlying" Primitive.ofJson?
  let literals ← r.required? "literals" (Json.list? Literal.ofJson?)
  return .enumeration underlying literals

def ofJson? (j : Json) : Option SourceKind := do
  let (name, content) ← j.alternative?
  let bare (kind : SourceKind) : Option SourceKind :=
    match content with
    | none | some .null => some kind
    | some _ => none
  match name with
  | "class" => bare .classType
  | "interface" => bare .interface
  | "struct" => bare .struct
  | "enum" => do enumerationOfJson? (← content)
  | _ => none

def toJson : SourceKind → Json
  | .classType => .text "class"
  | .interface => .text "interface"
  | .struct => .text "struct"
  | .enumeration underlying literals =>
    .object [("enum", .object [("underlying", underlying.toJson),
      ("literals", .array (literals.map Literal.toJson))])]

end SourceKind

namespace Member

def fieldNames : List String :=
  ["name", "type", "visibility", "readable", "writable", "ignore", "getter_name", "setter_name",
    "suppress_getter"]

def ofJson? (j : Json) : Option Member := do
  let r ← j.record? fieldNames
  let name ← r.required? "name" Json.text?
  let type ← r.required? "type" TypeRef.ofJson?
  let visibility ← r.withDefault? "visibility" .publicAccess Visibility.ofJson?
  let readable ← r.withDefault? "readable" true Json.bool?
  let writable ← r.withDefault? "writable" true Json.bool?
  let ignored ← r.withDefault? "ignore" false Json.bool?
  let getterName ← r.optional? "getter_name" Json.text?
  let setterName ← r.optional? "setter_name" Json.text?
  let suppressGetter ← r.optional? "suppress_getter" Json.bool?
  return { name, type, visibility, readable, writable, ignored, getterName, setterName,
           suppressGetter }

/-- The record of a member; names and suppression are written only if given. -/
def toJson (m : Member) : Json :=
  .object ([("name", .text m.name), ("type", m.type.toJson), ("visibility", m.visibility.toJson),
    ("readable", .bool m.readable), ("writable", .bool m.writable), ("ignore", .bool m.ignored)] ++
    Json.present "getter_name" .text m.getterName ++ Json.present "setter_name" .text m.setterName ++
    Json.present "suppress_getter" .bool m.suppressGetter)

end Member

namespace TypeOptions

def ofJson? (j : Json) : Option TypeOptions := do
  let r ← j.record? ["setters_only", "static_factory"]
  let settersOnly ← r.withDefault? "setters_only" false Json.bool?
  let staticFactory ← r.optional? "static_factory" Json.text?
  return { settersOnly, staticFactory }

def toJson (o : TypeOptions) : Json :=
  .object [("setters_only", .bool o.settersOnly),
    ("static_factory", Json.ofOption .text o.staticFactory)]

end TypeOptions

namespace SourceType

def fieldNames : List String :=
  ["name", "kind", "visibility", "base", "origin", "members", "options"]

def ofJson? (j : Json) : Option SourceType := do
  let r ← j.record? fieldNames
  let name ← r.required? "name" TypeName.ofJson?
  let kind ← r.withDefault? "kind" .classType SourceKind.ofJson?
  let visibility ← r.withDefault? "visibility" .publicAccess Visibility.ofJson?
  let base ← r.optional? "base" TypeName.ofJson?
  let origin ← r.withDefault? "origin" (.artifact "") Origin.ofJson?
  let members ← r.withDefault? "members" [] (Json.list? Member.ofJson?)
  let options ← r.withDefault? "options" {} TypeOptions.ofJson?
  return { name, kind, visibility, base, origin, members, options }

/-- The record of a source type; the base is written only if there is one. -/
def toJson (t : SourceType) : Json :=
  .object ([("name", t.name.toJson), ("kind", t.kind.toJson), ("visibility", t.visibility.toJson)] ++
    Json.present "base" TypeName.toJson t.base ++
    [("origin", t.origin.toJson), ("members", .array (t.members.map Member.toJson)),
      ("options", t.options.toJson)])

def overview (t : SourceType) : Json :=
  let member (m : Member) : Json := .object [("eligible", .bool m.isEligible),
    ("setter", .text m.fluentSetter), ("getter", .text m.fluentGetter),
    ("getter_present", .array [.bool (m.hasFluentGetter false), .bool (m.hasFluentGetter true)])]
  .object [("json", t.toJson), ("canonical", .text t.canonical), ("runtime", .bool t.isRuntime),
    ("origin_name", .text t.originName), ("value_type", .bool t.kind.isValueType),
    ("members", .array (t.members.map member))]

end SourceType

end FluentWrappers
