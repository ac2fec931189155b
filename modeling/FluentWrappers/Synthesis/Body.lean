import FluentWrappers.Artifact.Signature
import FluentWrappers.Source.Name

/-!
# Method bodies before they are encoded (`SPEC_FULL.md`, 10.7, `BodyBuilder`)

Bodies name fields and methods by their owners and not yet by indices. A body is built one
instruction at a time; the builder keeps the depth of the operand stack and refuses what would pop a
missing value or follow the return.
-/

namespace FluentWrappers.Synthesis

/-! ### Instructions -/

structure FieldTarget where
  owner : TypeName
  name : String
  deriving DecidableEq, Repr, Inhabited

structure MethodTarget where
  owner : TypeName
  name : String
  params : UInt16
  returns : Bool
  isStatic : Bool := false
  deriving DecidableEq, Repr, Inhabited

namespace MethodTarget

def constructor (owner : TypeName) (params : UInt16) : MethodTarget :=
  ⟨owner, constructorName, params, false, false⟩

def rootConstructor : MethodTarget :=
  constructor ⟨"", rootObject⟩ 0

def asStatic (m : MethodTarget) : MethodTarget :=
  { m with isStatic := true }

def text (m : MethodTarget) : String :=
  s!"{m.owner.canonical}::{m.name}/{m.params}"

end MethodTarget

inductive Instruction where
  | loadThis
  /-- Pushes an argument; the first is the receiver, if there is one. -/
  | loadArg (index : UInt16)
  | loadField (field : FieldTarget)
  | storeField (field : FieldTarget)
  | call (method : MethodTarget)
  | callVirt (method : MethodTarget)
  | newObj (method : MethodTarget)
  | ret
  deriving DecidableEq, Repr, Inhabited

namespace Instruction

def callEffect (m : MethodTarget) : Nat × Nat :=
  (m.params.toNat + (if m.isStatic then 0 else 1), if m.returns then 1 else 0)

/-- How many values an instruction pops and pushes. -/
def stackEffect : Instruction → Nat × Nat
  | loadThis | loadArg _ => (0, 1)
  | loadField _ => (1, 1)
  | storeField _ => (2, 0)
  | call m | callVirt m => callEffect m
  | newObj m => (m.params.toNat, 1)
  | ret => (0, 0)

def mnemonic : Instruction → String
  | loadThis => "ldthis"
  | loadArg _ => "ldarg"
  | loadField _ => "ldfld"
  | storeField _ => "stfld"
  | call _ => "call"
  | callVirt _ => "callvirt"
  | newObj _ => "newobj"
  | ret => "ret"

def text (i : Instruction) : String :=
  match i with
  | loadThis | ret => i.mnemonic
  | loadArg index => s!"{i.mnemonic} {index}"
  | loadField f | storeField f => s!"{i.mnemonic} {f.owner.canonical}::{f.name}"
  | call m | callVirt m | newObj m => s!"{i.mnemonic} {m.text}"

end Instruction

/-! ### Bodies -/

structure Body where
  instructions : List Instruction
  maxStack : UInt16
  deriving DecidableEq, Repr, Inhabited

inductive BuildFault where
  | afterReturn (refused : Instruction)
  | stackUnderflow (refused : Instruction) (depth : Nat)
  | noReturn
  | returnDepth (depth expected : Nat)
  deriving DecidableEq, Repr

def BuildFault.message : BuildFault → String
  | .afterReturn refused => s!"instruction {refused.text} emitted after return"
  | .stackUnderflow refused depth => s!"stack underflow at {refused.text} (depth {depth})"
  | .noReturn => "body does not end with return"
  | .returnDepth depth expected => s!"return with stack depth {depth} (expected {expected})"

structure BodyBuilder where
  latestFirst : List Instruction
  depth : Nat
  maxDepth : Nat
  returned : Bool
  deriving DecidableEq, Repr

namespace BodyBuilder

def empty : BodyBuilder := ⟨[], 0, 0, false⟩

def instructions (b : BodyBuilder) : List Instruction := b.latestFirst.reverse

def emit (b : BodyBuilder) (i : Instruction) : Except BuildFault BodyBuilder :=
  if b.returned then .error (.afterReturn i)
  else
    let (pops, pushes) := i.stackEffect
    if b.depth < pops then .error (.stackUnderflow i b.depth)
    else
      let depth := b.depth - pops + pushes
      .ok ⟨i :: b.latestFirst, depth, max b.maxDepth depth, i == .ret⟩

def emitTimes (b : BodyBuilder) (i : Instruction) : Nat → Except BuildFault Unit × BodyBuilder
  | 0 => (.ok (), b)
  | times + 1 =>
    match b.emit i with
    | .ok b => b.emitTimes i times
    | .error fault => (.error fault, b)

/-- The finished body of a method that returns a value or none (10.7: nothing is emitted after it). -/
def finish (b : BodyBuilder) (returnsValue : Bool) : Except BuildFault Body :=
  if !b.returned then .error .noReturn
  else
    let expected := if returnsValue then 1 else 0
    if b.depth ≠ expected then .error (.returnDepth b.depth expected)
    else .ok ⟨b.instructions, UInt16.ofNat b.maxDepth⟩

def build (instructions : List Instruction) (returnsValue : Bool) : Except BuildFault Body := do
  (← instructions.foldlM emit empty).finish returnsValue

@[simp] theorem instructions_empty : empty.instructions = [] := rfl

theorem instructions_emit {b c : BodyBuilder} {i : Instruction} (h : b.emit i = .ok c) :
    c.instructions = b.instructions ++ [i] := by
  simp only [emit] at h
  split at h
  · simp at h
  · split at h
    · simp at h
    · obtain rfl := Except.ok.inj h
      simp [instructions]

end BodyBuilder

end FluentWrappers.Synthesis
