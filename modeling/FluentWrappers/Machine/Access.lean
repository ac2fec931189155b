import FluentWrappers.Machine.Run
import FluentWrappers.Text.Basic

/-!
# Using a loaded artifact (`SPEC_FULL.md`, 10.7, loader/interpreter)

Instances are made and their members used by name: methods, properties through their accessors,
static methods and the values of enumeration literals.
-/

namespace FluentWrappers.Machine

namespace Loaded

/-- Makes an instance of a named type by the constructor with as many parameters. -/
def newObject (m : Loaded) (typeName : String) (args : List Value) : Run Value := do
  m.construct (← m.lookup typeName) args

/-- The method of a type that can be invoked on instances by a name and a number of arguments. -/
def ownInstanceMethod? (name : String) (arity : Nat) (t : TypeDefinition) :
    Option (TypeDefinition × Method) :=
  match t.findMethod? name arity with
  | some found =>
    if found.isAbstract || found.isStatic || found.isConstructor then none else some (t, found)
  | none => none

/-- The instance method that the receiver's type or the nearest base has for a name and a number of
arguments. -/
def instanceMethod (m : Loaded) (receiver : Value) (name : String) (arity : Nat) :
    Run (TypeDefinition × Method) := do
  let (_, inst) ← instanceOf receiver
  let type ← m.lookup inst.typeName
  match (m.hierarchy type).findSome? (ownInstanceMethod? name arity) with
  | some found => return found
  | none => throw (.methodNotFound type.name name arity)

/-- Runs the instance method that a receiver has for a name and a number of arguments. -/
def invoke (m : Loaded) (receiver : Value) (name : String) (args : List Value) : Run Value := do
  let (owner, found) ← m.instanceMethod receiver name args.length
  m.execute owner found (receiver :: args)

def staticMethod (m : Loaded) (typeName name : String) (arity : Nat) :
    Except RunError (TypeDefinition × Method) := do
  let type ← m.lookup typeName
  match (type.findMethod? name arity).filter (·.isStatic) with
  | some found => return (type, found)
  | none => throw (.methodNotFound typeName name arity)

def invokeStatic (m : Loaded) (typeName name : String) (args : List Value) : Run Value := do
  let (type, found) ← m.staticMethod typeName name args.length
  m.execute type found args

/-- The name of an accessor of the property that the receiver's type or the nearest base has. -/
def accessorName (m : Loaded) (receiver : Value) (property : String) (accessor : Accessor) :
    Run String := do
  let (_, inst) ← instanceOf receiver
  let type ← m.lookup inst.typeName
  match (m.hierarchy type).findSome? (·.findProperty? property) with
  | none => throw (.propertyNotFound type.name property)
  | some found =>
    let name := match accessor with
      | .getter => found.getter
      | .setter => found.setter
    match name with
    | some name => return name
    | none => throw (.accessorMissing property accessor)

def getProperty (m : Loaded) (receiver : Value) (property : String) : Run Value := do
  let getter ← m.accessorName receiver property .getter
  m.invoke receiver getter []

def setProperty (m : Loaded) (receiver : Value) (property : String) (value : Value) :
    Run Unit := do
  let setter ← m.accessorName receiver property .setter
  let _ ← m.invoke receiver setter [value]

def enumValue (m : Loaded) (typeName literal : String) : Except RunError Value := do
  let type ← m.lookup typeName
  match type.literals.find? (·.name == literal) with
  | some found => .ok (.int found.value)
  | none => .error (.fieldNotFound typeName literal)

/-- A loaded artifact in a few words: its quoted name and the number of its types. -/
def summary (m : Loaded) : String :=
  let name := Text.quoted m.artifact.metadata.name
  s!"Vm \x7b artifact: {name}, types: {m.artifact.types.length} \x7d"

end Loaded

/-! ### Late-bound wrappers -/

/-- An object whose properties are set and read by name, whatever its type (10.7, dynamic fluent
wrapper). -/
structure LateBound where
  object : Value
  deriving DecidableEq, Repr

namespace LateBound

/-- Wraps an object; nothing else can be wrapped. -/
def wrap (object : Value) : Except RunError LateBound :=
  match object.object? with
  | some _ => .ok ⟨object⟩
  | none => .error .nullReference

def create (m : Loaded) (typeName : String) : Run LateBound := do
  return ⟨← m.newObject typeName []⟩

def set (m : Loaded) (w : LateBound) (property : String) (value : Value) : Run LateBound := do
  m.setProperty w.object property value
  return w

def get (m : Loaded) (w : LateBound) (property : String) : Run Value :=
  m.getProperty w.object property

end LateBound

end FluentWrappers.Machine
