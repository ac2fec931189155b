import FluentWrappers.Json.Value
import FluentWrappers.Text.Basic

/-!
# Numbers, dates and times in TOML (`SPEC_FULL.md`, 10.3, CLI configuration)

Integers have sixty-four bits and a sign; an underscore may stand between two digits. Of numbers with
a point or an exponent only those too large for a double of positive sign are refused.

A date, a time of day, or both with an optional offset are of interest by their form only: months have
the days that the calendar gives them, and a minute may have a leap second.
-/

namespace FluentWrappers.Toml

/-! ### Dates and times -/

def fixed? (width low high : Nat) (cs : List Char) : Option (Nat × List Char) := do
  let value ← Text.decimalValue? 0 (cs.take width)
  if (cs.take width).length = width ∧ low ≤ value ∧ value ≤ high then some (value, cs.drop width)
  else none

def after? (mark : Char) (cs : List Char) : Option (List Char) :=
  match cs with
  | c :: rest => if c = mark then some rest else none
  | [] => none

def isLeapYear (year : Nat) : Bool := year % 4 == 0 && (year % 100 != 0 || year % 400 == 0)

def daysOf (year month : Nat) : Nat :=
  if month = 2 then if isLeapYear year then 29 else 28
  else if month = 4 ∨ month = 6 ∨ month = 9 ∨ month = 11 then 30
  else 31

def skipDate? (cs : List Char) : Option (List Char) := do
  let (year, cs) ← fixed? 4 0 9999 cs
  let (month, cs) ← fixed? 2 1 12 (← after? '-' cs)
  let (_, cs) ← fixed? 2 1 (daysOf year month) (← after? '-' cs)
  return cs

def skipSecondPart (cs : List Char) : List Char :=
  match cs with
  | '.' :: d :: rest => if d.isDigit then rest.dropWhile Char.isDigit else cs
  | _ => cs

def skipTime? (cs : List Char) : Option (List Char) := do
  let (_, cs) ← fixed? 2 0 23 cs
  let (_, cs) ← fixed? 2 0 59 (← after? ':' cs)
  let (_, cs) ← fixed? 2 0 60 (← after? ':' cs)
  return skipSecondPart cs

def skipOffset? (cs : List Char) : Option (List Char) :=
  match cs with
  | c :: rest =>
    if c = 'Z' ∨ c = 'z' then some rest
    else if c = '+' ∨ c = '-' then do
      let (_, rest) ← fixed? 2 0 23 rest
      let (_, rest) ← fixed? 2 0 59 (← after? ':' rest)
      return rest
    else some cs
  | [] => some cs

def skipTimeOfDate? (cs : List Char) : Option (List Char) :=
  match cs with
  | c :: rest =>
    if c = 'T' ∨ c = 't' ∨ c = ' ' then (skipTime? rest).elim (some cs) skipOffset? else some cs
  | [] => some cs

def skipDateTime? (cs : List Char) : Option (List Char) :=
  match skipDate? cs with
  | some rest => skipTimeOfDate? rest
  | none => skipTime? cs

/-! ### Digits -/

/-- The digits at the start of a text, in which single underscores may stand, and the rest. -/
def digitsFrom (isDigit : Char → Bool) : List Char → List Char × List Char
  | '_' :: d :: rest =>
    if isDigit d then
      let (digits, rest) := digitsFrom isDigit rest
      (d :: digits, rest)
    else ([], '_' :: d :: rest)
  | c :: rest =>
    if isDigit c then
      let (digits, rest) := digitsFrom isDigit rest
      (c :: digits, rest)
    else ([], c :: rest)
  | [] => ([], [])

def digits? (isDigit : Char → Bool) (cs : List Char) : Option (List Char × List Char) :=
  match cs with
  | c :: _ => if isDigit c then some (digitsFrom isDigit cs) else none
  | [] => none

/-- The digits of a whole number: zero has no digit after it. -/
def wholeDigits? (cs : List Char) : Option (List Char × List Char) :=
  match cs with
  | '0' :: rest => some (['0'], rest)
  | _ => digits? Char.isDigit cs

/-! ### Integers -/

def integer? (i : Int) : Option Json :=
  if -0x8000000000000000 ≤ i ∧ i < 0x8000000000000000 then some (.int i) else none

def isDigitOf (base : Nat) (c : Char) : Bool :=
  match Text.hexValue? c with
  | some digit => digit < base
  | none => false

def based? (base : Nat) (cs : List Char) : Option (Json × List Char) := do
  let (digits, rest) ← digits? (isDigitOf base) cs
  let values ← digits.mapM Text.hexValue?
  let value := values.foldl (fun value digit => base * value + digit) 0
  return (← integer? value, rest)

/-! ### Numbers with a point or an exponent -/

/-- The least number that a double of positive sign cannot hold: it is rounded to infinity. -/
def doubleLimit : Nat := Nat.pow 2 1024 - Nat.pow 2 970

/-- Whether a number of decimal digits before a power of ten reaches the limit of doubles. -/
def reachesLimit (digits : Nat) (exponent : Int) : Bool :=
  let size : Int := (Nat.toDigits 10 digits).length + exponent
  if digits = 0 ∨ size < 309 then false
  else if 309 < size then true
  else doubleLimit * Nat.pow 10 (-exponent).toNat ≤ digits * Nat.pow 10 exponent.toNat

def places? (cs : List Char) : Option (Option (List Char) × List Char) :=
  match cs with
  | '.' :: rest => (digits? Char.isDigit rest).map fun (digits, rest) => (some digits, rest)
  | _ => some (none, cs)

def skipSign (cs : List Char) : Option Bool × List Char :=
  match cs with
  | '-' :: rest => (some true, rest)
  | '+' :: rest => (some false, rest)
  | _ => (none, cs)

def exponent? (cs : List Char) : Option (Option Int × List Char) :=
  match cs with
  | c :: rest =>
    if c = 'e' ∨ c = 'E' then do
      let (sign, rest) := skipSign rest
      let (digits, rest) ← digits? Char.isDigit rest
      let size ← Text.decimalValue? 0 digits
      return (some (if sign = some true then -(size : Int) else size), rest)
    else some (none, cs)
  | [] => some (none, cs)

def decimal? (negative : Bool) (cs : List Char) : Option (Json × List Char) := do
  let (whole, rest) ← wholeDigits? cs
  let (places, rest) ← places? rest
  let (exponent, rest) ← exponent? rest
  let digits ← Text.decimalValue? 0 (whole ++ places.getD [])
  if places.isNone && exponent.isNone then
    return (← integer? (if negative then -(digits : Int) else digits), rest)
  else if !negative && reachesLimit digits (exponent.getD 0 - (places.getD []).length) then none
  else return (.fraction, rest)

/-- A number; a sign goes with decimal numbers, with infinity and with what is no number. -/
def number? (cs : List Char) : Option (Json × List Char) :=
  match skipSign cs with
  | (none, '0' :: 'x' :: rest) => based? 16 rest
  | (none, '0' :: 'o' :: rest) => based? 8 rest
  | (none, '0' :: 'b' :: rest) => based? 2 rest
  | (_, 'i' :: 'n' :: 'f' :: rest) => some (.fraction, rest)
  | (_, 'n' :: 'a' :: 'n' :: rest) => some (.fraction, rest)
  | (sign, rest) => decimal? (sign == some true) rest

end FluentWrappers.Toml
