import FluentWrappers.Artifact.MemberReference
import FluentWrappers.Artifact.Opcode
import FluentWrappers.Synthesis.Type

/-!
# The code of bodies (`SPEC_FULL.md`, 10.7, `ArtifactBackend`)

All bodies of an artifact share one table of references: each reference that an instruction makes
stands in it once, in the order of first use. The code of an instruction is its operation and its
operand, which is an argument or an index into the table.
-/

namespace FluentWrappers.Lowering

open Binary
open Synthesis (FieldTarget MethodTarget Instruction Body MethodSpec SynthesizedType)

/-! ### References -/

def fieldReference (f : FieldTarget) : MemberReference :=
  MemberReference.field f.owner.canonical f.name

def methodReference (m : MethodTarget) : MemberReference :=
  { MemberReference.method m.owner.canonical m.name m.params m.returns with isStatic := m.isStatic }

def referenceOf? : Instruction → Option MemberReference
  | .loadField f | .storeField f => some (fieldReference f)
  | .call m | .callVirt m | .newObj m => some (methodReference m)
  | .loadThis | .loadArg _ | .ret => none

def referencesOfMethod (m : MethodSpec) : List MemberReference :=
  match m.body with
  | some body => body.instructions.filterMap referenceOf?
  | none => []

/-- The table of all references that types make. -/
def referenceTable (types : List SynthesizedType) : List MemberReference :=
  (types.flatMap fun t => t.methods.flatMap referencesOfMethod).eraseDups

def indexIn (table : List MemberReference) (m : MemberReference) : UInt32 :=
  UInt32.ofNat (table.idxOf m)

/-! ### Code -/

def instructionCode (table : List MemberReference) : Instruction → List UInt8
  | .loadThis => Wire.loadArg 0
  | .loadArg index => Wire.loadArg index
  | .loadField f => Wire.onMember .loadField (indexIn table (fieldReference f))
  | .storeField f => Wire.onMember .storeField (indexIn table (fieldReference f))
  | .call m => Wire.onMember .call (indexIn table (methodReference m))
  | .callVirt m => Wire.onMember .callVirt (indexIn table (methodReference m))
  | .newObj m => Wire.onMember .newObj (indexIn table (methodReference m))
  | .ret => Wire.opcode .ret

def bodyCode (table : List MemberReference) (body : Body) : List UInt8 :=
  body.instructions.flatMap (instructionCode table)

end FluentWrappers.Lowering
