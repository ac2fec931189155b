import FluentWrappers.Json.Value
import FluentWrappers.Text.Basic

/-!
# Reading JSON (`SPEC_FULL.md`, 10.3, descriptor manifest)

A text is read as one value between blanks. Values nested deeper than `maxNesting` are checked for
their form and kept as unreadable.
-/

namespace FluentWrappers.Json

def maxNesting : Nat := 127

def isGap (c : Char) : Bool := c == ' ' || c == '\n' || c == '\t' || c == '\r'

def skipGaps (cs : List Char) : List Char := cs.dropWhile isGap

/-! ### Numbers -/

def digits? (cs : List Char) : Option (List Char × List Char) :=
  let digits := cs.takeWhile Char.isDigit
  if digits.isEmpty then none else some (digits, cs.dropWhile Char.isDigit)

def wholeDigits? (cs : List Char) : Option (List Char × List Char) :=
  match cs with
  | '0' :: rest =>
    match rest with
    | c :: _ => if c.isDigit then none else some (['0'], rest)
    | [] => some (['0'], rest)
  | _ => digits? cs

/-- Skips a point with its digits; whether there was one. -/
def skipPlaces? (cs : List Char) : Option (Bool × List Char) :=
  match cs with
  | '.' :: rest => (digits? rest).map fun (_, rest) => (true, rest)
  | _ => some (false, cs)

/-- Skips an exponent; whether there was one. -/
def skipExponent? (cs : List Char) : Option (Bool × List Char) :=
  match cs with
  | c :: rest =>
    if c = 'e' ∨ c = 'E' then
      let unsigned := match rest with
        | s :: after => if s = '+' ∨ s = '-' then after else rest
        | [] => rest
      (digits? unsigned).map fun (_, rest) => (true, rest)
    else some (false, cs)
  | [] => some (false, cs)

/-- An integer if it has sixty-four bits; minus zero is none. -/
def ofDigits (negative : Bool) (digits : List Char) : Json :=
  match Text.decimalValue? 0 digits with
  | none => fraction
  | some n =>
    if negative then if 0 < n ∧ n ≤ 0x8000000000000000 then int (-(n : Int)) else fraction
    else if n < 0x10000000000000000 then int n else fraction

def number? (cs : List Char) : Option (Json × List Char) := do
  let (negative, cs) := match cs with
    | '-' :: rest => (true, rest)
    | _ => (false, cs)
  let (digits, cs) ← wholeDigits? cs
  let (hasPlaces, cs) ← skipPlaces? cs
  let (hasExponent, cs) ← skipExponent? cs
  if hasPlaces || hasExponent then return (fraction, cs)
  else return (ofDigits negative digits, cs)

/-! ### Text -/

def escapeLetter? (c : Char) : Option Char :=
  match c with
  | '"' => some '"'
  | '\\' => some '\\'
  | '/' => some '/'
  | 'b' => some '\x08'
  | 'f' => some '\x0c'
  | 'n' => some '\n'
  | 'r' => some '\r'
  | 't' => some '\t'
  | _ => none

def unit? (a b c d : Char) : Option Nat := do
  let a ← Text.hexValue? a
  let b ← Text.hexValue? b
  let c ← Text.hexValue? c
  let d ← Text.hexValue? d
  return ((a * 16 + b) * 16 + c) * 16 + d

def isHighSurrogate (unit : Nat) : Bool := 0xd800 ≤ unit && unit ≤ 0xdbff

def isLowSurrogate (unit : Nat) : Bool := 0xdc00 ≤ unit && unit ≤ 0xdfff

/-- The characters of quoted text after its opening quote, latest first, and what follows the closing
quote. The characters are none if a surrogate stands alone. -/
def textFrom : Nat → Option (List Char) → List Char → Option (Option (List Char) × List Char)
  | 0, _, _ => none
  | fuel + 1, seen, cs =>
    match cs with
    | [] => none
    | '"' :: rest => some (seen, rest)
    | '\\' :: 'u' :: a :: b :: c :: d :: rest =>
      match unit? a b c d with
      | none => none
      | some unit =>
        if isLowSurrogate unit then textFrom fuel none rest
        else if isHighSurrogate unit then
          match rest with
          | '\\' :: 'u' :: a' :: b' :: c' :: d' :: after =>
            match unit? a' b' c' d' with
            | none => none
            | some low =>
              if isLowSurrogate low then
                let c := Char.ofNat (0x10000 + (unit - 0xd800) * 0x400 + (low - 0xdc00))
                textFrom fuel (seen.map (c :: ·)) after
              else textFrom fuel none rest
          | _ => textFrom fuel none rest
        else textFrom fuel (seen.map (Char.ofNat unit :: ·)) rest
    | '\\' :: e :: rest =>
      match escapeLetter? e with
      | some c => textFrom fuel (seen.map (c :: ·)) rest
      | none => none
    | c :: rest =>
      if c.toNat < 0x20 ∨ c = '\\' then none else textFrom fuel (seen.map (c :: ·)) rest

/-- Quoted text after its opening quote, none if it cannot be read, and what follows it. -/
def textAfterQuote? (cs : List Char) : Option (Option String × List Char) :=
  (textFrom (cs.length + 1) (some []) cs).map fun (found, rest) =>
    (found.map fun latestFirst => String.ofList latestFirst.reverse, rest)

/-! ### Values -/

abbrev Parsed := Option (Json × List Char)

def expect? (word : List Char) (cs : List Char) : Option (List Char) :=
  if word.isPrefixOf cs then some (cs.drop word.length) else none

/-- The items of an array after its opening bracket or a comma, latest first. -/
def itemsFrom (value : List Char → Parsed) : Nat → List Json → List Char →
    Option (List Json × List Char)
  | 0, _, _ => none
  | fuel + 1, seen, cs => do
    let (item, rest) ← value (skipGaps cs)
    match skipGaps rest with
    | ',' :: rest => itemsFrom value fuel (item :: seen) rest
    | ']' :: rest => some (item :: seen, rest)
    | _ => none

/-- The fields of an object after its opening brace or a comma, latest first; a name that cannot be
read makes all of them unreadable. -/
def fieldsFrom (value : List Char → Parsed) : Nat → Option (List (String × Json)) → List Char →
    Option (Option (List (String × Json)) × List Char)
  | 0, _, _ => none
  | fuel + 1, seen, cs =>
    match skipGaps cs with
    | '"' :: rest => do
      let (name, rest) ← textAfterQuote? rest
      match skipGaps rest with
      | ':' :: rest =>
        let (item, rest) ← value (skipGaps rest)
        let seen := match name, seen with
          | some name, some fields => some ((name, item) :: fields)
          | _, _ => none
        match skipGaps rest with
        | ',' :: rest => fieldsFrom value fuel seen rest
        | '\x7d' :: rest => some (seen, rest)
        | _ => none
      | _ => none
    | _ => none

/-- The value at the start of a text, inside `depth` arrays and objects. -/
def valueFrom : Nat → Nat → List Char → Parsed
  | 0, _, _ => none
  | fuel + 1, depth, cs =>
    let kept (j : Json) : Json := if depth < maxNesting then j else unreadable
    match cs with
    | 'n' :: _ => (expect? "null".toList cs).map fun rest => (null, rest)
    | 't' :: _ => (expect? "true".toList cs).map fun rest => (bool true, rest)
    | 'f' :: _ => (expect? "false".toList cs).map fun rest => (bool false, rest)
    | '"' :: rest =>
      (textAfterQuote? rest).map fun (found, rest) =>
        (match found with
          | some s => text s
          | none => unreadable, rest)
    | '[' :: rest =>
      match skipGaps rest with
      | ']' :: rest => some (kept (array []), rest)
      | _ =>
        (itemsFrom (valueFrom fuel (depth + 1)) rest.length [] rest).map fun (items, rest) =>
          (kept (array items.reverse), rest)
    | '\x7b' :: rest =>
      match skipGaps rest with
      | '\x7d' :: rest => some (kept (object []), rest)
      | _ =>
        (fieldsFrom (valueFrom fuel (depth + 1)) rest.length (some []) rest).map
          fun (fields, rest) =>
            (match fields with
              | some fields => kept (object fields.reverse)
              | none => unreadable, rest)
    | _ => number? cs

def parse? (source : String) : Option Json :=
  let cs := source.toList
  match valueFrom (cs.length + 1) 0 (skipGaps cs) with
  | some (j, rest) => if (skipGaps rest).isEmpty then some j else none
  | none => none

end FluentWrappers.Json
