import FluentWrappers.Artifact.Opcode
import FluentWrappers.Machine.Error
import FluentWrappers.Machine.Value

/-!
# Running methods (`SPEC_FULL.md`, 10.7, loader/interpreter)

A loaded artifact is one that passed the checks. Its methods run in frames: a frame holds the
arguments, the operand stack and the rest of the body, and one step executes one instruction. Calls
nest at most `maxCallDepth` deep. Changes to the heap last even when a run fails later.
-/

namespace FluentWrappers.Machine

open Binary

/-- The deepest call that still runs. -/
def maxCallDepth : Nat := 256

/-- An artifact that passed the checks. -/
structure Loaded where
  artifact : Artifact
  verified : artifact.verify = .ok ()

abbrev Run := ExceptT RunError (StateM Heap)

namespace Loaded

def load (artifact : Artifact) : Except RunError Loaded :=
  match h : artifact.verify with
  | .ok () => .ok ⟨artifact, h⟩
  | .error cause => .error (.verify cause)

def ofBytes (data : List UInt8) : Except RunError Loaded :=
  match Artifact.decode data with
  | .ok artifact => load artifact
  | .error cause => .error (.artifact cause)

/-! ### Types -/

/-- The type of a name, or the fault that there is none. -/
def lookup (m : Loaded) (name : String) : Except RunError TypeDefinition :=
  match m.artifact.findType? name with
  | some type => .ok type
  | none => .error (.unknownType name)

def baseOf? (m : Loaded) (type : TypeDefinition) : Option TypeDefinition :=
  match type.base with
  | some base => if base = rootObject then none else m.artifact.findType? base
  | none => none

/-- A type and at most `fuel` bases. -/
def hierarchyWithin (m : Loaded) : Nat → TypeDefinition → List TypeDefinition
  | 0, type => [type]
  | fuel + 1, type =>
    match m.baseOf? type with
    | some base => type :: hierarchyWithin m fuel base
    | none => [type]

/-- A type and its bases in the artifact. Bases that do not return to a type are no more than the
types of the artifact. -/
def hierarchy (m : Loaded) (type : TypeDefinition) : List TypeDefinition :=
  m.hierarchyWithin m.artifact.types.length type

/-! ### Instances -/

/-- What a field of a type holds at first; a struct is allocated by the given function. -/
def defaultValue (m : Loaded) (allocate : TypeDefinition → Run Nat) : Signature → Run Value
  | .primitive .bool => pure (.bool false)
  | .primitive p => pure (if p.isFloat then .float 0 else .int 0)
  | .named name =>
    match m.artifact.findType? name with
    | some type =>
      match type.kind with
      | .enumeration => pure (.int 0)
      | .struct => do return .object (← allocate type)
      | _ => pure .null
    | none => pure .null
  | _ => pure .null

/-- The fields of an instance: those already made and those that are still missing, in order. -/
def defaultFields (m : Loaded) (allocate : TypeDefinition → Run Nat) :
    List (String × Value) → List Field → Run (List (String × Value))
  | made, [] => pure made
  | made, f :: rest =>
    if (made.lookup f.name).isSome then defaultFields m allocate made rest
    else do
      let value ← m.defaultValue allocate f.type
      defaultFields m allocate (made ++ [(f.name, value)]) rest

def allocateWithin (m : Loaded) : Nat → TypeDefinition → Run Nat
  | 0, _ => throw (.callDepthExceeded (maxCallDepth + 1))
  | levels + 1, type => do
    let fields ← m.defaultFields (allocateWithin m levels) [] ((m.hierarchy type).flatMap (·.fields))
    modifyGet fun heap => (heap.allocate ⟨type.name, fields⟩).swap

/-- A new instance at a depth (10.7, loader/interpreter): the first field of each name along the bases,
with the default of its type. Structs in fields are allocated one level deeper. -/
def allocate (m : Loaded) (type : TypeDefinition) (depth : Nat) : Run Nat :=
  if maxCallDepth < depth then throw (.callDepthExceeded depth)
  else m.allocateWithin (maxCallDepth + 1 - depth) type

/-! ### Frames -/

structure Frame where
  method : Method
  args : List Value
  stack : List Value
  code : Reader

def Frame.start (method : Method) (args : List Value) : Frame :=
  ⟨method, args, [], Reader.ofBytes method.code⟩

/-- What an instruction comes to once it has taken its operands. -/
inductive Action where
  | next (frame : Frame)
  | done (result : Value)
  /-- To run a method for a reference and then go on with the frame. -/
  | call (frame : Frame) (member : MemberReference) (owner : TypeDefinition) (target : Method)
      (args : List Value)
  /-- To make an object and then go on with the frame. -/
  | construct (frame : Frame) (type : TypeDefinition) (args : List Value)

/-- What a step comes to: another frame or the result of the method. -/
inductive Progress where
  | next (frame : Frame)
  | done (result : Value)

/-- How a frame runs other methods and makes objects. -/
structure Callees where
  execute : TypeDefinition → Method → List Value → Run Value
  construct : TypeDefinition → List Value → Run Value

/-- A read of the rest of the body. -/
def Frame.read {α : Type} (frame : Frame) (item : Read α) : Run (α × Frame) :=
  match item frame.code with
  | (.ok value, code) => pure (value, { frame with code })
  | (.error fault, _) => throw (.decode fault.cause)

def Frame.push (frame : Frame) (value : Value) : Frame :=
  { frame with stack := value :: frame.stack }

def Frame.pop (frame : Frame) : Run (Value × Frame) :=
  match frame.stack with
  | value :: stack => pure (value, { frame with stack })
  | [] => throw .stackUnderflow

/-- The latest operands, the earliest of them first, and the frame without them. -/
def Frame.popMany (frame : Frame) (count : Nat) : Run (List Value × Frame) :=
  if count ≤ frame.stack.length then
    pure ((frame.stack.take count).reverse, { frame with stack := frame.stack.drop count })
  else throw .stackUnderflow

def Frame.pushArgument (frame : Frame) (index : Nat) : Run Frame :=
  match frame.args[index]? with
  | some value => pure (frame.push value)
  | none => throw (.invalidOperand (UInt32.ofNat index))

def instanceOf (value : Value) : Run (Nat × Instance) := do
  match value with
  | .object ref =>
    match (← get).get? ref with
    | some inst => pure (ref, inst)
    | none => throw .nullReference
  | _ => throw .nullReference

/-- The reference that the next operand selects, and the frame after the operand. -/
def readMember (m : Loaded) (frame : Frame) : Run (MemberReference × Frame) := do
  let (index, frame) ← frame.read Read.u32
  match m.artifact.memberRefs[index.toNat]? with
  | some member => pure (member, frame)
  | none => throw (.invalidOperand index)

/-- The method that a type itself has for a reference: one bound to the referenced method or else one
with its name and number of parameters and a body. -/
def ownTarget? (member : MemberReference) (t : TypeDefinition) : Option (TypeDefinition × Method) :=
  match t.findImplementation? member.owner member.name with
  | some found => some (t, found)
  | none =>
    match t.findMethod? member.name member.paramCount.toNat with
    | some found => if found.isAbstract then none else some (t, found)
    | none => none

/-- The method that a type has for a reference: the first along the bases. -/
def resolveVirtual (m : Loaded) (type : TypeDefinition) (member : MemberReference) :
    Except RunError (TypeDefinition × Method) :=
  match (m.hierarchy type).findSome? (ownTarget? member) with
  | some found => .ok found
  | none => .error (.methodNotFound type.name member.name member.paramCount.toNat)

def storeField (target value : Value) (name : String) : Run Unit := do
  let (ref, inst) ← instanceOf target
  match (← get).setField? ref name value with
  | some heap => set heap
  | none => throw (.fieldNotFound inst.typeName name)

/-- The frame after a call whose result counts only if the reference says so. -/
def Frame.afterCall (frame : Frame) (member : MemberReference) (result : Value) : Frame :=
  if member.returnsValue then frame.push result else frame

/-- Replaces the latest operand by the value of its field. -/
def loadField (frame : Frame) (member : MemberReference) : Run Action := do
  let (target, frame) ← frame.pop
  let (_, inst) ← instanceOf target
  match inst.get? member.name with
  | some value => return .next (frame.push value)
  | none => throw (.fieldNotFound inst.typeName member.name)

/-- Takes a value and an object and stores the value in a field. -/
def storeOperand (frame : Frame) (member : MemberReference) : Run Action := do
  let (value, frame) ← frame.pop
  let (target, frame) ← frame.pop
  storeField target value member.name
  return .next frame

/-- Calls the referenced method on its own type. The root constructor only takes its operands. -/
def callDirect (m : Loaded) (frame : Frame) (member : MemberReference) : Run Action := do
  let (args, frame) ← frame.popMany member.paramCount.toNat
  if member.isRootConstructor then
    let (_, frame) ← frame.pop
    return .next frame
  let (receiver, frame) ←
    if member.isStatic then pure ([], frame)
    else do
      let (receiver, frame) ← frame.pop
      pure ([receiver], frame)
  let owner ← m.lookup member.owner
  match owner.findMethod? member.name member.paramCount.toNat with
  | none => throw (.methodNotFound owner.name member.name member.paramCount.toNat)
  | some target => return .call frame member owner target (receiver ++ args)

/-- Calls the method that the receiver's type has for the reference. -/
def callVirtual (m : Loaded) (frame : Frame) (member : MemberReference) : Run Action := do
  let (args, frame) ← frame.popMany member.paramCount.toNat
  let (receiver, frame) ← frame.pop
  let (_, inst) ← instanceOf receiver
  let type ← m.lookup inst.typeName
  let (owner, target) ← m.resolveVirtual type member
  return .call frame member owner target (receiver :: args)

/-- Takes the arguments of a constructor and makes an object of the referenced type. -/
def instantiate (m : Loaded) (frame : Frame) (member : MemberReference) : Run Action := do
  let (args, frame) ← frame.popMany member.paramCount.toNat
  let owner ← m.lookup member.owner
  return .construct frame owner args

/-- Ends a method, with the latest operand if it returns a value. -/
def finish (frame : Frame) : Run Action :=
  if frame.method.returnsValue then do
    let (result, _) ← frame.pop
    return .done result
  else return .done .null

/-- Reads the next instruction of a frame and takes its operands. -/
def action (m : Loaded) (frame : Frame) : Run Action := do
  let (opcode, frame) ← frame.read Read.opcode
  match opcode with
  | .loadArg0 => return .next (← frame.pushArgument 0)
  | .loadArg1 => return .next (← frame.pushArgument 1)
  | .loadArg =>
    let (index, frame) ← frame.read Read.u16
    return .next (← frame.pushArgument index.toNat)
  | .loadField =>
    let (member, frame) ← m.readMember frame
    loadField frame member
  | .storeField =>
    let (member, frame) ← m.readMember frame
    storeOperand frame member
  | .call =>
    let (member, frame) ← m.readMember frame
    m.callDirect frame member
  | .callVirt =>
    let (member, frame) ← m.readMember frame
    m.callVirtual frame member
  | .newObj =>
    let (member, frame) ← m.readMember frame
    m.instantiate frame member
  | .ret => finish frame

/-- Executes the next instruction of a frame. -/
def step (m : Loaded) (callees : Callees) (frame : Frame) : Run Progress := do
  match ← m.action frame with
  | .next frame => return .next frame
  | .done result => return .done result
  | .call frame member owner target args =>
    let result ← callees.execute owner target args
    return .next (frame.afterCall member result)
  | .construct frame type args =>
    let made ← callees.construct type args
    return .next (frame.push made)

/-- Runs a frame for as many steps as the fuel allows. -/
def runFrame (m : Loaded) (callees : Callees) : Nat → Frame → Run Value
  | 0, frame => throw (.decode (.unexpectedEnd frame.code.position))
  | fuel + 1, frame => do
    match ← m.step callees frame with
    | .done result => return result
    | .next frame => runFrame m callees fuel frame

/-! ### Calls -/

/-- Makes an instance and finds its constructor. A struct needs none if there are no arguments. -/
def prepare (allocate : TypeDefinition → Run Nat) (type : TypeDefinition) (args : List Value) :
    Run (Value × Option Method) := do
  let instantiable := (type.kind == .classType || type.kind == .struct) &&
    !hasFlag type.flags TypeFlag.isAbstract
  if !instantiable then throw (.notInstantiable type.name)
  let made := Value.object (← allocate type)
  match (type.findMethod? constructorName args.length).filter (·.isConstructor) with
  | some constructor => return (made, some constructor)
  | none =>
    if args.isEmpty && type.kind == .struct then return (made, none)
    else throw (.methodNotFound type.name constructorName args.length)

def constructWith (execute : TypeDefinition → Method → List Value → Run Value)
    (allocate : TypeDefinition → Run Nat) (type : TypeDefinition) (args : List Value) :
    Run Value := do
  let (made, constructor) ← prepare allocate type args
  if let some constructor := constructor then
    let _ ← execute type constructor (made :: args)
  return made

/-- Runs a method at a depth that leaves the given number of levels. Every step takes a byte of the
body at least, so one step more than its bytes reaches the return or the fault. -/
def executeWithin (m : Loaded) : Nat → TypeDefinition → Method → List Value → Run Value
  | 0, _, _, _ => throw (.callDepthExceeded (maxCallDepth + 1))
  | levels + 1, type, method, args =>
    if method.isAbstract then throw (.abstractMethod type.name method.name)
    else
      let execute := executeWithin m levels
      let construct := constructWith
        (match levels with
          | 0 => fun _ _ _ => throw (.callDepthExceeded (maxCallDepth + 1))
          | below + 1 => executeWithin m below)
        (m.allocateWithin levels)
      m.runFrame ⟨execute, construct⟩ (method.code.length + 1) (Frame.start method args)

/-- Runs a method at the outermost level. -/
def execute (m : Loaded) (type : TypeDefinition) (method : Method) (args : List Value) :
    Run Value :=
  m.executeWithin (maxCallDepth + 1) type method args

def construct (m : Loaded) (type : TypeDefinition) (args : List Value) : Run Value :=
  constructWith (m.executeWithin maxCallDepth) (m.allocateWithin (maxCallDepth + 1)) type args

end Loaded

end FluentWrappers.Machine
