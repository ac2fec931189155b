import FluentWrappers.Text.Basic

/-!
# Gaps and quoted text in TOML (`SPEC_FULL.md`, 10.3, CLI configuration)

What may stand between the parts of a document: blanks, comments and the ends of lines.

Text in double quotes knows escapes, text in single quotes is taken as it stands. Three quotes open
text of many lines, which loses an end of line at its very start and has every other one as a line
feed.
-/

namespace FluentWrappers.Toml

/-! ### Gaps -/

def isBlank (c : Char) : Bool := c == ' ' || c == '\t'

/-- Whether a character may stand in comments and quoted text: a tab, or no control character of
ASCII. -/
def isPlain (c : Char) : Bool := c == '\t' || (0x20 ≤ c.toNat && c.toNat != 0x7f)

def skipBlanks (cs : List Char) : List Char := cs.dropWhile isBlank

def newline? : List Char → Option (List Char)
  | '\n' :: rest => some rest
  | '\r' :: '\n' :: rest => some rest
  | _ => none

def skipEmptyLines : List Char → List Char
  | '\r' :: '\n' :: rest => skipEmptyLines rest
  | c :: rest => if isBlank c || c == '\n' then skipEmptyLines rest else c :: rest
  | [] => []

/-- The text without leading blanks, ends of lines and comments; a flag tells whether it starts within
a comment. -/
def skipLines : Bool → List Char → List Char
  | _, '\r' :: '\n' :: rest => skipLines false rest
  | inComment, c :: rest =>
    if c == '\n' then skipLines false rest
    else if inComment then if isPlain c then skipLines true rest else c :: rest
    else if c == '#' then skipLines true rest
    else if isBlank c then skipLines false rest
    else c :: rest
  | _, [] => []

def skipComment (cs : List Char) : List Char :=
  match cs with
  | '#' :: rest => rest.dropWhile isPlain
  | _ => cs

/-- The text after a line of which at most blanks and a comment are left; the last line may end with
the text. -/
def lineEnd? (cs : List Char) : Option (List Char) :=
  match skipComment (skipBlanks cs) with
  | [] => some []
  | rest => newline? rest

def singleQuote : Char := '\x27'

/-! ### Escapes -/

def escapeLetter? (c : Char) : Option Char :=
  match c with
  | 'b' => some '\x08'
  | 't' => some '\t'
  | 'n' => some '\n'
  | 'f' => some '\x0c'
  | 'r' => some '\r'
  | '"' => some '"'
  | '\\' => some '\\'
  | _ => none

/-- The character of a code point; surrogates have none. -/
def scalar? (point : Nat) : Option Char :=
  if point.isValidChar then some (Char.ofNat point) else none

/-- The character whose code point is written in a number of hexadecimal digits. -/
def codePoint? (width : Nat) (cs : List Char) : Option (Char × List Char) := do
  let digits ← (cs.take width).mapM Text.hexValue?
  if digits.length < width then none
  else
    let c ← scalar? (digits.foldl (fun value digit => 16 * value + digit) 0)
    return (c, cs.drop width)

def escape? : List Char → Option (Char × List Char)
  | 'u' :: rest => codePoint? 4 rest
  | 'U' :: rest => codePoint? 8 rest
  | e :: rest => (escapeLetter? e).map (·, rest)
  | [] => none

/-! ### Text of one line -/

/-- The text after an opening quote, its characters latest first, and what follows the closing
quote. -/
def shortFrom (quote : Char) : Nat → List Char → List Char → Option (String × List Char)
  | 0, _, _ => none
  | fuel + 1, seen, cs =>
    match cs with
    | [] => none
    | c :: rest =>
      if c = quote then some (String.ofList seen.reverse, rest)
      else if c = '\\' ∧ quote = '"' then do
        let (c, rest) ← escape? rest
        shortFrom quote fuel (c :: seen) rest
      else if isPlain c then shortFrom quote fuel (c :: seen) rest
      else none

def short? (quote : Char) (cs : List Char) : Option (String × List Char) :=
  shortFrom quote (cs.length + 1) [] cs

/-! ### Text of many lines -/

/-- The text after opening quotes, its characters latest first, and what follows the closing quotes.
One or two quotes alone belong to the text, and so do up to two before the closing three. A backslash
at the end of a line takes away all blanks and ends of lines that follow. -/
def longFrom (quote : Char) : Nat → List Char → List Char → Option (String × List Char)
  | 0, _, _ => none
  | fuel + 1, seen, cs =>
    match cs with
    | [] => none
    | c :: rest =>
      if c = quote then
        let run := (cs.takeWhile (· == quote)).length
        if run < 3 then longFrom quote fuel (List.replicate run quote ++ seen) (cs.drop run)
        else
          let inside := min (run - 3) 2
          some (String.ofList (List.replicate inside quote ++ seen).reverse, cs.drop (inside + 3))
      else if c = '\\' ∧ quote = '"' then
        match newline? (skipBlanks rest) with
        | some rest => longFrom quote fuel seen (skipEmptyLines rest)
        | none => do
          let (c, rest) ← escape? rest
          longFrom quote fuel (c :: seen) rest
      else
        match newline? cs with
        | some rest => longFrom quote fuel ('\n' :: seen) rest
        | none => if isPlain c then longFrom quote fuel (c :: seen) rest else none

def long? (quote : Char) (cs : List Char) : Option (String × List Char) :=
  longFrom quote (cs.length + 1) [] ((newline? cs).getD cs)

def quoted? (cs : List Char) : Option (String × List Char) :=
  match cs with
  | c :: rest =>
    if c = '"' ∨ c = singleQuote then
      if [c, c].isPrefixOf rest then long? c (rest.drop 2) else short? c rest
    else none
  | [] => none

end FluentWrappers.Toml
