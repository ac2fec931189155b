import FluentWrappers.Artifact.Metadata
import FluentWrappers.Synthesis.Type

/-!
# Listings (`SPEC_FULL.md`, 10.7, `ListingBackend`)

Synthesized types as readable declarations under a header of comments, with the bodies of methods if
wanted. Each line ends with a line feed; types are divided by an empty line.
-/

namespace FluentWrappers.Listing

open Synthesis (ProductKind FieldSpec PropertySpec MethodKind MethodSpec EnumSpec SynthesizedType)

abbrev Lines := List String

/-- The header: the artifact's name and what is known of five more texts. -/
def headerLines (m : Metadata) : Lines :=
  let described := [("title", m.title), ("version", m.version), ("company", m.company),
    ("copyright", m.copyright), ("guid", m.guid)]
  s!"// artifact {m.name}" ::
    described.filterMap (fun (label, value) => value.map fun value => s!"// {label}: {value}") ++ [""]

def kindKeyword : ProductKind → String
  | .interface => "interface"
  | .proxy | .fluent => "class"
  | .structClone => "struct"
  | .enumClone => "enum"

def sealedMark (t : SynthesizedType) : String :=
  if t.isSealed && (t.kind == .proxy || t.kind == .fluent) then "sealed " else ""

/-- What follows the name of a type: the primitive under an enumeration, or the interfaces. -/
def parents (t : SynthesizedType) : String :=
  match t.enumSpec with
  | some spec => s!" : {spec.underlying.name}"
  | none =>
    if t.interfaces.isEmpty then ""
    else " : " ++ ", ".intercalate (t.interfaces.map (·.canonical))

def literalLines (spec : EnumSpec) : Lines :=
  spec.literals.map fun l => s!"    {l.name} = {l.value.toInt},"

def fieldLine (f : FieldSpec) : String :=
  s!"    {f.visibility.keyword} {f.name}: {f.type.text};"

def propertyLine (p : PropertySpec) : String :=
  let accessors := (p.getter.map fun _ => "get;").toList ++ (p.setter.map fun _ => "set;").toList
  s!"    {p.name}: {p.type.text} \x7b " ++ " ".intercalate accessors ++ " \x7d"

def kindMark : MethodKind → String
  | .abstractMethod => " abstract"
  | .staticMethod => " static"
  | .instanceMethod | .constructor => ""

def methodHead (m : MethodSpec) : String :=
  let params := ", ".intercalate (m.params.map fun p => s!"{p.name}: {p.type.text}")
  let returns := (m.returns.map fun type => s!" -> {type.text}").getD ""
  let binding := (m.implements.map fun b =>
    s!" implements {b.interface.canonical}::{b.method}").getD ""
  s!"    {m.visibility.keyword}{kindMark m.kind} {m.name}({params}){returns}{binding}"

def methodLines (bodies : Bool) (m : MethodSpec) : Lines :=
  match m.body, bodies with
  | some body, true =>
    [methodHead m ++ " \x7b", s!"        ; max_stack {body.maxStack}"] ++
      body.instructions.map (fun i => s!"        {i.text}") ++ ["    \x7d"]
  | _, _ => [methodHead m ++ ";"]

def typeLines (bodies : Bool) (t : SynthesizedType) : Lines :=
  let head := s!"{t.visibility.keyword} {sealedMark t}{kindKeyword t.kind} {t.canonical}{parents t}"
  (head ++ " \x7b") :: (t.enumSpec.map literalLines).getD [] ++ t.fields.map fieldLine ++
    t.properties.map propertyLine ++ t.methods.flatMap (methodLines bodies) ++ ["\x7d"]

def listing (bodies : Bool) (metadata : Metadata) (types : List SynthesizedType) : String :=
  let blocks := types.map (typeLines bodies)
  String.join ((headerLines metadata ++ [""].intercalate blocks).map (· ++ "\n"))

end FluentWrappers.Listing
