import FluentWrappers.Source.Record
import FluentWrappers.Synthesis.Type

/-!
# Synthesized types as JSON

Types, members and bodies are records in which every field is written; instructions are texts.
-/

namespace FluentWrappers.Synthesis

def MethodKind.label : MethodKind → String
  | .abstractMethod => "abstract"
  | .instanceMethod => "instance"
  | .constructor => "constructor"
  | .staticMethod => "static"

def MethodKind.ofLabel? (word : String) : Option MethodKind :=
  [abstractMethod, instanceMethod, constructor, staticMethod].find? (·.label == word)

namespace Instruction

/-- The method that an instruction's record names: without a name it is a constructor, that of the
root object if so marked. -/
def methodOfRecord? (r : Json.Record) (owner : TypeName) : Option MethodTarget := do
  let name ← r.optional? "name" Json.text?
  let params ← r.withDefault? "params" 0 Json.halfWord?
  let returns ← r.withDefault? "returns" false Json.bool?
  let isStatic ← r.withDefault? "static" false Json.bool?
  let ofRoot ← r.withDefault? "root" false Json.bool?
  let method := match name with
    | some name => ⟨owner, name, params, returns, false⟩
    | none => if ofRoot then .rootConstructor else .constructor owner params
  return if isStatic then method.asStatic else method

/-- The instruction of a record: the mnemonic and the operand's parts. -/
def ofJson? (j : Json) : Option Instruction := do
  let r ← j.record? ["do", "v", "owner", "name", "params", "returns", "static", "root"]
  let owner ← r.withDefault? "owner" ⟨"", ""⟩ TypeName.ofJson?
  let field ← r.withDefault? "name" ⟨owner, ""⟩ fun name => name.text?.map (FieldTarget.mk owner)
  let method ← methodOfRecord? r owner
  match ← r.required? "do" Json.text? with
  | "ldthis" => return .loadThis
  | "ldarg" => return .loadArg (← r.withDefault? "v" 0 Json.halfWord?)
  | "ldfld" => return .loadField field
  | "stfld" => return .storeField field
  | "call" => return .call method
  | "callvirt" => return .callVirt method
  | "newobj" => return .newObj method
  | "ret" => return .ret
  | _ => none

def toJson (i : Instruction) : Json :=
  .object [("text", .text i.text), ("mnemonic", .text i.mnemonic),
    ("effect", .array [.int i.stackEffect.1, .int i.stackEffect.2])]

end Instruction

def FieldSpec.toJson (f : FieldSpec) : Json :=
  .object [("name", .text f.name), ("type", f.type.toJson), ("visibility", f.visibility.toJson)]

def ParamSpec.toJson (p : ParamSpec) : Json :=
  .object [("name", .text p.name), ("type", p.type.toJson)]

def InterfaceBinding.toJson (b : InterfaceBinding) : Json :=
  .object [("interface", b.interface.toJson), ("method", .text b.method)]

def Body.toJson (b : Body) : Json :=
  .object [("max_stack", .int b.maxStack.toNat),
    ("instrs", .array (b.instructions.map fun i => .text i.text))]

def MethodSpec.toJson (m : MethodSpec) : Json :=
  .object [("name", .text m.name), ("visibility", m.visibility.toJson), ("kind", .text m.kind.label),
    ("params", .array (m.params.map ParamSpec.toJson)),
    ("returns", Json.ofOption TypeRef.toJson m.returns),
    ("implements", Json.ofOption InterfaceBinding.toJson m.implements),
    ("special_name", .bool m.specialName), ("body", Json.ofOption Body.toJson m.body)]

def PropertySpec.toJson (p : PropertySpec) : Json :=
  .object [("name", .text p.name), ("type", p.type.toJson), ("getter", Json.ofOption .text p.getter),
    ("setter", Json.ofOption .text p.setter)]

def EnumSpec.toJson (e : EnumSpec) : Json :=
  .object [("underlying", e.underlying.toJson),
    ("literals", .array (e.literals.map Literal.toDecimalJson))]

def SynthesizedType.toJson (t : SynthesizedType) : Json :=
  .object [("name", t.name.toJson), ("kind", .text t.kind.label),
    ("visibility", t.visibility.toJson), ("sealed", .bool t.isSealed), ("source", t.source.toJson),
    ("interfaces", .array (t.interfaces.map TypeName.toJson)),
    ("members", .array (t.members.map Member.toJson)),
    ("fields", .array (t.fields.map FieldSpec.toJson)),
    ("methods", .array (t.methods.map MethodSpec.toJson)),
    ("properties", .array (t.properties.map PropertySpec.toJson)),
    ("enum", Json.ofOption EnumSpec.toJson t.enumSpec),
    ("dependencies", .array (t.dependencies.map TypeName.toJson)),
    ("self_contained", .bool t.isSelfContained)]

end FluentWrappers.Synthesis
