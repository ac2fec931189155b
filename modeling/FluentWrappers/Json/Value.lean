import FluentWrappers.Text.Basic

/-!
# JSON values (`SPEC_FULL.md`, 10.3, descriptor manifest)

Values as a text gives them: objects keep the order of their fields and repeated names. Numbers
matter only as integers of sixty-four bits, so every other number is one value. Values are written
without blanks between tokens.
-/

namespace FluentWrappers

inductive Json where
  | null
  | bool (b : Bool)
  /-- A signed or unsigned integer of sixty-four bits. -/
  | int (i : Int)
  /-- A number that is no such integer. -/
  | fraction
  | text (s : String)
  | array (items : List Json)
  | object (fields : List (String × Json))
  /-- A well-formed value that nothing but a reader who skips it accepts: text with a lone
  surrogate, or a value nested too deep. -/
  | unreadable
  deriving Repr, Inhabited

namespace Json

def field? (j : Json) (name : String) : Option Json :=
  match j with
  | object fields => fields.lookup name
  | _ => none

def text? : Json → Option String
  | text s => some s
  | _ => none

def bool? : Json → Option Bool
  | bool b => some b
  | _ => none

def int? : Json → Option Int
  | int i => some i
  | _ => none

def nat? (bound : Nat) : Json → Option Nat
  | int i => if 0 ≤ i ∧ i < bound then some i.toNat else none
  | _ => none

def int64? : Json → Option Int64
  | int i => if -0x8000000000000000 ≤ i ∧ i < 0x8000000000000000 then some (Int64.ofInt i) else none
  | _ => none

def items? : Json → Option (List Json)
  | array items => some items
  | _ => none

/-- An optional value: null stands for none. -/
def optional? {α : Type} (item : Json → Option α) : Json → Option (Option α)
  | null => some none
  | j => (item j).map some

def list? {α : Type} (item : Json → Option α) (j : Json) : Option (List α) := do
  (← j.items?).mapM item

def fields : Json → List (String × Json)
  | object fields => fields
  | _ => []

def extend (j : Json) (more : List (String × Json)) : Json :=
  match j with
  | object fields => object (fields ++ more)
  | other => other

def ofOption {α : Type} (item : α → Json) : Option α → Json
  | some value => item value
  | none => null

end Json

end FluentWrappers

namespace FluentWrappers.Json

/-! ### Writing JSON -/

def renderChar (c : Char) : List Char :=
  if c = '"' then ['\\', '"']
  else if c = '\\' then ['\\', '\\']
  else if c = '\n' then ['\\', 'n']
  else if c = '\r' then ['\\', 'r']
  else if c = '\t' then ['\\', 't']
  else if c.toNat < 0x20 then '\\' :: 'u' :: (Text.paddedHex 4 c.toNat).toList
  else [c]

def renderText (s : String) : String :=
  String.ofList ('"' :: s.toList.flatMap renderChar ++ ['"'])

mutual
/-- The text of a value; what cannot be read back as it was is written as null. -/
def render : Json → String
  | .null | .fraction | .unreadable => "null"
  | .bool b => if b then "true" else "false"
  | .int i => toString i
  | .text s => renderText s
  | .array items => "[" ++ ",".intercalate (renderItems items) ++ "]"
  | .object fields => "\x7b" ++ ",".intercalate (renderFields fields) ++ "\x7d"

def renderItems : List Json → List String
  | [] => []
  | j :: rest => j.render :: renderItems rest

def renderFields : List (String × Json) → List String
  | [] => []
  | (name, j) :: rest => (renderText name ++ ":" ++ j.render) :: renderFields rest
end

end FluentWrappers.Json
