import FluentWrappers.Artifact.TypeDefinition

/-!
# Values and the heap (`SPEC_FULL.md`, 10.7, loader/interpreter)

A running artifact computes with plain values and references to instances. Instances live in a heap
that only grows; a reference is the number of its instance, so two references are equal exactly if
they denote the same instance.
-/

namespace FluentWrappers.Machine

/-- A value of a running artifact. Floating-point numbers are kept as the bits of a double. -/
inductive Value where
  | null
  | bool (b : Bool)
  | int (i : Int64)
  | float (bits : UInt64)
  | text (s : String)
  | object (ref : Nat)
  deriving DecidableEq, Repr

instance : Inhabited Value := ⟨.null⟩

def isNaN (bits : UInt64) : Bool :=
  0x7ff0000000000000 < bits &&& 0x7fffffffffffffff

/-- Equality of doubles: no number differs from itself, and both zeros are equal. -/
def floatEq (a b : UInt64) : Bool :=
  !isNaN a && !isNaN b && (a == b || (a ||| b) &&& 0x7fffffffffffffff == 0)

namespace Value

/-- Equality of values as a program sees it. -/
def same : Value → Value → Bool
  | null, null => true
  | bool a, bool b => a == b
  | int a, int b => a == b
  | float a, float b => floatEq a b
  | text a, text b => a == b
  | object a, object b => a == b
  | _, _ => false

def kindName : Value → String
  | null => "null"
  | bool _ => "bool"
  | int _ => "int"
  | float _ => "float"
  | text _ => "string"
  | object _ => "object"

def isNull : Value → Bool
  | null => true
  | _ => false

def int? : Value → Option Int64
  | int i => some i
  | _ => none

def object? : Value → Option Nat
  | object ref => some ref
  | _ => none

end Value

/-- An instance: the name of its type and its fields. -/
structure Instance where
  typeName : String
  fields : List (String × Value)
  deriving DecidableEq, Repr, Inhabited

namespace Instance

def get? (i : Instance) (name : String) : Option Value :=
  i.fields.lookup name

def has (i : Instance) (name : String) : Bool :=
  (i.get? name).isSome

def set (i : Instance) (name : String) (value : Value) : Instance :=
  ⟨i.typeName, i.fields.map fun (key, old) => if key == name then (key, value) else (key, old)⟩

end Instance

/-- All instances, by their numbers. -/
structure Heap where
  cells : Array Instance
  deriving DecidableEq, Repr

namespace Heap

def empty : Heap := ⟨#[]⟩

def get? (h : Heap) (ref : Nat) : Option Instance := h.cells[ref]?

def allocate (h : Heap) (i : Instance) : Heap × Nat := (⟨h.cells.push i⟩, h.cells.size)

def setField? (h : Heap) (ref : Nat) (name : String) (value : Value) : Option Heap :=
  match h.get? ref with
  | none => none
  | some i => if i.has name then some ⟨h.cells.setIfInBounds ref (i.set name value)⟩ else none

end Heap

end FluentWrappers.Machine
