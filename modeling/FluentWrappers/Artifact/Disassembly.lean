import FluentWrappers.Artifact.Container
import FluentWrappers.Artifact.Opcode

/-!
# Disassembly (`SPEC_FULL.md`, 10.9, `fluentgen inspect`)

The declarations of an artifact as text, with the body of each method one operation a line. A body
that cannot be read to its end is listed up to the fault and closed by a line that marks it.
-/

namespace FluentWrappers

/-! ### Bodies -/

inductive CodeLine where
  | plain (offset : Nat) (op : Opcode)
  | withOperand (offset : Nat) (op : Opcode) (operand : UInt32)
  /-- The byte is no operation; the listing ends here. -/
  | invalid (offset : Nat) (byte : UInt8)
  /-- The operand is cut off; the listing ends here. -/
  | truncated (offset : Nat) (op : Opcode)
  deriving DecidableEq, Repr

namespace CodeLine

def isFault : CodeLine → Bool
  | invalid _ _ | truncated _ _ => true
  | _ => false

def ofCodeAt (offset : Nat) (code : List UInt8) : List CodeLine :=
  match code with
  | [] => []
  | byte :: rest =>
    match Opcode.ofByte? byte with
    | none => [invalid offset byte]
    | some op =>
      let operand := rest.take op.operandSize
      if operand.length < op.operandSize then [truncated offset op]
      else
        let line :=
          if op.operandSize = 0 then plain offset op
          else withOperand offset op (UInt32.ofNat (Binary.ofLittleEndian operand))
        line :: ofCodeAt (offset + 1 + op.operandSize) (rest.drop op.operandSize)
termination_by code.length
decreasing_by
  simp only [List.length_drop, List.length_cons]
  omega

def ofCode (code : List UInt8) : List CodeLine := ofCodeAt 0 code

end CodeLine

def MemberReference.text (m : MemberReference) : String :=
  match m.kind with
  | .field => s!"{m.owner}::{m.name}"
  | .method =>
    let mark := if m.isStatic then "static " else ""
    s!"{mark}{m.owner}::{m.name}/{m.paramCount}"

/-- The column of the offsets, in front of what a line shows. -/
def CodeLine.column (offset : Nat) : String :=
  "        " ++ Text.paddedDecimal 4 offset ++ "  "

/-- The text of a line; operands that index the table show what they refer to. -/
def CodeLine.text (refs : List MemberReference) (line : CodeLine) : String :=
  match line with
  | .plain offset op => column offset ++ op.name
  | .withOperand offset op operand =>
    if op.referencesMember then
      let target := match refs[operand.toNat]? with
        | some m => m.text
        | none => "<invalid ref>"
      column offset ++ s!"{op.name} #{operand} {target}"
    else column offset ++ s!"{op.name} {operand}"
  | .invalid offset byte => column offset ++ s!"<invalid 0x{Text.paddedHex 2 byte.toNat}>"
  | .truncated offset op => column offset ++ s!"{op.name} <truncated>"

/-! ### Declarations -/

/-- The lines of a method: its head and, if it has one, its body. -/
def Method.listing (refs : List MemberReference) (m : Method) : List String :=
  let params := ", ".intercalate (m.params.map fun p => s!"{p.name}: {p.type.text}")
  let modifiers := (if m.isStatic then " static" else "") ++ (if m.isAbstract then " abstract" else "")
  let implements := match m.binding with
    | some b => s!" implements {b.interface}::{b.method}"
    | none => ""
  let head := s!"    {m.visibility.keyword}{modifiers} {m.name}({params}) -> {m.returns.text}{implements}"
  if m.isAbstract then [head ++ ";"]
  else
    [head ++ " \x7b", s!"        ; max_stack {m.maxStack}"] ++
      (CodeLine.ofCode m.code).map (CodeLine.text refs) ++ ["    \x7d"]

def Property.listing (p : Property) : String :=
  let getter := match p.getter with
    | some name => s!" get={name}"
    | none => ""
  let setter := match p.setter with
    | some name => s!" set={name}"
    | none => ""
  s!"    property {p.name}: {p.type.text}{getter}{setter}"

def TypeDefinition.listing (refs : List MemberReference) (t : TypeDefinition) : List String :=
  let mark := if t.isSealed && t.kind == .classType then "sealed " else ""
  let supertypes := (t.underlying.map Primitive.name).toList ++ t.base.toList ++ t.interfaces
  let above := if supertypes.isEmpty then "" else " : " ++ ", ".intercalate supertypes
  [s!"{t.visibility.keyword} {mark}{t.kind.keyword} {t.name}{above} \x7b"] ++
    t.literals.map (fun l => s!"    {l.name} = {l.value.toInt}") ++
    t.fields.map (fun f => s!"    {f.visibility.keyword} field {f.name}: {f.type.text}") ++
    t.properties.map Property.listing ++ t.methods.flatMap (Method.listing refs) ++ ["\x7d"]

def Artifact.listing (a : Artifact) : List String :=
  let modes := (if hasFlag a.flags ArtifactFlag.standalone then ["standalone"] else []) ++
    (if hasFlag a.flags ArtifactFlag.lenient then ["lenient"] else [])
  [s!"; artifact {a.metadata.name} (format v{a.version})"] ++
    (if modes.isEmpty then [] else ["; flags: " ++ ", ".intercalate modes]) ++
    (a.metadata.guid.map fun guid => s!"; guid: {guid}").toList ++
    [s!"; {a.types.length} types, {a.memberRefs.length} member refs"] ++
    (if a.runtimeRefs.isEmpty then [] else ["; runtime: " ++ ", ".intercalate a.runtimeRefs]) ++
    a.types.flatMap fun t => "" :: t.listing a.memberRefs

def Artifact.text (a : Artifact) : String :=
  String.join (a.listing.map (· ++ "\n"))

end FluentWrappers
