import FluentWrappers.Artifact.Primitive
import FluentWrappers.Binary.Reader
import FluentWrappers.Binary.Wire

/-!
# Type signatures (`SPEC_FULL.md`, 10.7, type table)

The type of a field, parameter, property or result as an artifact stores it. A signature is written
as a tag byte and its parts, so that its end can be found without a length.
-/

namespace FluentWrappers

def rootObject : String := "object"

def constructorName : String := ".ctor"

inductive Signature where
  /-- No value; the result of a method that returns none. -/
  | void
  | primitive (p : Primitive)
  | string
  | object
  | named (name : String)
  | array (element : Signature)
  | generic (definition : String) (args : List Signature)
  deriving Repr, Inhabited

namespace Signature

mutual
def decideEq : (s t : Signature) → Decidable (s = t)
  | .void, .void => isTrue rfl
  | .string, .string => isTrue rfl
  | .object, .object => isTrue rfl
  | .primitive p, .primitive q =>
    if h : p = q then isTrue (by rw [h]) else isFalse (by simp [h])
  | .named a, .named b => if h : a = b then isTrue (by rw [h]) else isFalse (by simp [h])
  | .array s, .array t =>
    match decideEq s t with
    | isTrue h => isTrue (by rw [h])
    | isFalse h => isFalse (by simp [h])
  | .generic d as, .generic e bs =>
    if h : d = e then
      match decideEqAll as bs with
      | isTrue g => isTrue (by rw [h, g])
      | isFalse g => isFalse (by simp [g])
    else isFalse (by simp [h])
  | .void, .primitive _ | .void, .string | .void, .object | .void, .named _ | .void, .array _
  | .void, .generic _ _ | .primitive _, .void | .primitive _, .string | .primitive _, .object
  | .primitive _, .named _ | .primitive _, .array _ | .primitive _, .generic _ _
  | .string, .void | .string, .primitive _ | .string, .object | .string, .named _
  | .string, .array _ | .string, .generic _ _ | .object, .void | .object, .primitive _
  | .object, .string | .object, .named _ | .object, .array _ | .object, .generic _ _
  | .named _, .void | .named _, .primitive _ | .named _, .string | .named _, .object
  | .named _, .array _ | .named _, .generic _ _ | .array _, .void | .array _, .primitive _
  | .array _, .string | .array _, .object | .array _, .named _ | .array _, .generic _ _
  | .generic _ _, .void | .generic _ _, .primitive _ | .generic _ _, .string
  | .generic _ _, .object | .generic _ _, .named _ | .generic _ _, .array _ =>
    isFalse (by intro h; cases h)

def decideEqAll : (ss ts : List Signature) → Decidable (ss = ts)
  | [], [] => isTrue rfl
  | [], _ :: _ => isFalse (by simp)
  | _ :: _, [] => isFalse (by simp)
  | s :: ss, t :: ts =>
    match decideEq s t with
    | isTrue h =>
      match decideEqAll ss ts with
      | isTrue g => isTrue (by rw [h, g])
      | isFalse g => isFalse (by simp [g])
    | isFalse h => isFalse (by simp [h])
end

instance : DecidableEq Signature := decideEq

def isVoid : Signature → Bool
  | void => true
  | _ => false

mutual
/-- The type names in a signature, from left to right, those of generic definitions included. -/
def names : Signature → List String
  | .named name => [name]
  | .array element => element.names
  | .generic definition args => definition :: namesOfAll args
  | _ => []

def namesOfAll : List Signature → List String
  | [] => []
  | s :: rest => s.names ++ namesOfAll rest
end

mutual
def text : Signature → String
  | .void => "void"
  | .primitive p => p.name
  | .string => "string"
  | .object => "object"
  | .named name => name
  | .array element => element.text ++ "[]"
  | .generic definition args => definition ++ "<" ++ ", ".intercalate (textsOfAll args) ++ ">"

def textsOfAll : List Signature → List String
  | [] => []
  | s :: rest => s.text :: textsOfAll rest
end

mutual
/-- The bytes of a signature: its tag and its parts. -/
def encode : Signature → List UInt8
  | .void => [0]
  | .primitive p => [1, p.byte]
  | .string => [2]
  | .object => [3]
  | .named name => 4 :: Binary.Wire.string name
  | .array element => 5 :: element.encode
  | .generic definition args =>
    6 :: (Binary.Wire.string definition ++ Binary.Wire.count args.length ++ encodeAll args)

def encodeAll : List Signature → List UInt8
  | [] => []
  | s :: rest => s.encode ++ encodeAll rest
end

/-- Reads what follows a tag; `nested` reads the signatures inside. -/
def decodeParts (nested : Binary.Read Signature) (tag : UInt8) (offset : Nat) :
    Binary.Read Signature :=
  match tag.toNat with
  | 0 => pure .void
  | 1 => return .primitive (← Binary.Read.tag .primitive Primitive.ofByte?)
  | 2 => pure .string
  | 3 => pure .object
  | 4 => return .named (← Binary.Read.string)
  | 5 => return .array (← nested)
  | 6 => do
    let definition ← Binary.Read.string
    let args ← Binary.Read.list nested
    return .generic definition args
  | _ => Binary.Read.refuse (.invalidTag .signature tag offset)

def decodeWithin : Nat → Binary.Read Signature
  | 0 => do Binary.Read.refuse (.unexpectedEnd (← Binary.Read.reader).position)
  | fuel + 1 => do
    let offset := (← Binary.Read.reader).position
    let tag ← Binary.Read.u8
    decodeParts (decodeWithin fuel) tag offset

/-- Reads a signature. Each level of nesting takes a byte, so the bytes left bound the depth. -/
def decode : Binary.Read Signature := do
  decodeWithin ((← Binary.Read.reader).remaining + 1)

theorem encodeAll_eq_flatMap (args : List Signature) : encodeAll args = args.flatMap encode := by
  induction args with
  | nil => rfl
  | cons s rest ih => simp [encodeAll, ih]

end Signature

end FluentWrappers
