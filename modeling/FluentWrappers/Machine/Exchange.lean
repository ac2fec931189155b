import FluentWrappers.Binary.Wire
import FluentWrappers.Json.Value
import FluentWrappers.Machine.Value
import FluentWrappers.Text.Basic

/-!
# Values outside the machine

A program that uses the machine from outside sees values as JSON. It knows an object by a number:
objects are numbered in the order in which they were first shown to it. Integers are decimal texts
and doubles the hexadecimal digits of their bits.
-/

namespace FluentWrappers.Machine

/-- The heap and the references that were shown, in order. -/
structure Exchange where
  heap : Heap
  shown : List Nat
  deriving DecidableEq, Repr

namespace Exchange

def start : Exchange := ⟨Heap.empty, []⟩

/-- The value that JSON stands for, none for an object with a number that was not given. -/
def read? (e : Exchange) : Json → Option Value
  | .bool b => some (.bool b)
  | .object fields =>
    match fields with
    | [("int", .text digits)] => (Text.intOfDecimal? digits).map fun i => .int (Int64.ofInt i)
    | [("float", .text digits)] => (Text.bytesOfHex? digits).map fun bytes =>
      .float (UInt64.ofNat (Binary.ofLittleEndian bytes.reverse))
    | [("str", .text s)] => some (.text s)
    | ("obj", .int k) :: _ => if k < 0 then none else e.shown[k.toNat]?.map .object
    | _ => some .null
  | _ => some .null

/-- The number of a reference, which is a new one if the reference was not shown before. -/
def number (e : Exchange) (ref : Nat) : Nat × Exchange :=
  match e.shown.findIdx? (· == ref) with
  | some k => (k, e)
  | none => (e.shown.length, { e with shown := e.shown ++ [ref] })

/-- Writes a value; an object with the name of its type. -/
def write (e : Exchange) : Value → Json × Exchange
  | .null => (.null, e)
  | .bool b => (.bool b, e)
  | .int i => (.object [("int", .text (toString i.toInt))], e)
  | .float bits => (.object [("float", .text (Text.paddedHex 16 bits.toNat))], e)
  | .text s => (.object [("str", .text s)], e)
  | .object ref =>
    let (k, e) := e.number ref
    let type := ((e.heap.get? ref).map (·.typeName)).getD ""
    (.object [("obj", .int k), ("type", .text type)], e)

def writeAll (e : Exchange) : List Value → List Json × Exchange
  | [] => ([], e)
  | v :: rest =>
    let (first, e) := e.write v
    let (others, e) := e.writeAll rest
    (first :: others, e)

end Exchange

end FluentWrappers.Machine
