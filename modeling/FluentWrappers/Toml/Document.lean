import FluentWrappers.Toml.Number
import FluentWrappers.Toml.Quoted
import FluentWrappers.Toml.Table

/-!
# Reading TOML (`SPEC_FULL.md`, 10.3, CLI configuration)

A document is read line by line into a table, which is given as a value of JSON's sort. Values nest
at most seventy-nine deep, and keys have at most seventy-nine parts.
-/

namespace FluentWrappers.Toml

/-- The deepest nesting of arrays and inline tables, and the greatest number of parts of a key. -/
def maxNesting : Nat := 79

/-! ### Keys -/

def isBare (c : Char) : Bool := c.isAlphanum || c == '-' || c == '_'

def keyPart? (cs : List Char) : Option (String × List Char) :=
  match cs with
  | c :: rest =>
    if c = '"' ∨ c = singleQuote then short? c rest
    else if isBare c then some (String.ofList (cs.takeWhile isBare), cs.dropWhile isBare)
    else none
  | [] => none

def keyFrom : Nat → List Char → Option (List String × List Char)
  | 0, _ => none
  | fuel + 1, cs => do
    let (part, rest) ← keyPart? (skipBlanks cs)
    match skipBlanks rest with
    | '.' :: rest =>
      let (parts, rest) ← keyFrom fuel rest
      return (part :: parts, rest)
    | rest => return ([part], rest)

def key? (cs : List Char) : Option (List String × List Char) := keyFrom maxNesting cs

/-! ### Values -/

abbrev Parsed := Option (Json × List Char)

/-- The items of an array after its opening bracket or a comma, latest first. -/
def itemsFrom (value : List Char → Parsed) : Nat → List Json → List Char →
    Option (List Json × List Char)
  | 0, _, _ => none
  | fuel + 1, seen, cs =>
    match skipLines false cs with
    | ']' :: rest => some (seen, rest)
    | cs => do
      let (item, rest) ← value cs
      match skipLines false rest with
      | ',' :: rest => itemsFrom value fuel (item :: seen) rest
      | ']' :: rest => some (item :: seen, rest)
      | _ => none

def assignment? (value : List Char → Parsed) (cs : List Char) :
    Option ((List String × Json) × List Char) := do
  let (key, rest) ← key? cs
  match rest with
  | '=' :: rest =>
    let (j, rest) ← value (skipBlanks rest)
    return ((key, j), rest)
  | _ => none

def fieldsFrom (value : List Char → Parsed) : Nat → Fields → List Char →
    Option (Fields × List Char)
  | 0, _, _ => none
  | fuel + 1, fields, cs => do
    let ((key, j), rest) ← assignment? value cs
    let fields ← fields.insert? key j
    match skipBlanks rest with
    | ',' :: rest => fieldsFrom value fuel fields rest
    | '\x7d' :: rest => some (fields, rest)
    | _ => none

/-- A date or a time, which no record asks for: an object without any of their names. -/
def dateTimeValue : Json := .object []

/-- The value at the start of a text, in which so many more brackets may be open. -/
def valueFrom : Nat → List Char → Parsed
  | depth, cs =>
    match cs with
    | '"' :: _ => (quoted? cs).map fun (s, rest) => (.text s, rest)
    | '\x27' :: _ => (quoted? cs).map fun (s, rest) => (.text s, rest)
    | 't' :: 'r' :: 'u' :: 'e' :: rest => some (.bool true, rest)
    | 'f' :: 'a' :: 'l' :: 's' :: 'e' :: rest => some (.bool false, rest)
    | '[' :: rest =>
      match depth with
      | 0 => none
      | depth + 1 =>
        (itemsFrom (valueFrom depth) (rest.length + 1) [] rest).map fun (items, rest) =>
          (.array items.reverse, rest)
    | '\x7b' :: rest =>
      match depth with
      | 0 => none
      | depth + 1 =>
        match skipBlanks rest with
        | '\x7d' :: rest => some (.object [], rest)
        | _ =>
          (fieldsFrom (valueFrom depth) (rest.length + 1) [] rest).map fun (fields, rest) =>
            (fields.toJson, rest)
    | _ =>
      match skipDateTime? cs with
      | some rest => some (dateTimeValue, rest)
      | none => number? cs

def value? (cs : List Char) : Parsed := valueFrom maxNesting cs

/-! ### Documents -/

structure Document where
  root : Fields
  path : List String

namespace Document

def empty : Document := ⟨[], []⟩

def assign? (d : Document) (key : List String) (j : Json) : Option Document := do
  return { d with root := ← d.root.changeAt (Fields.insert? key j) d.path }

def enter? (d : Document) (path : List String) (change : String → Fields → Option Fields) :
    Option Document := do
  let key ← path.getLast?
  return ⟨← d.root.changeAt (change key) path.dropLast, path⟩

def header? (d : Document) (cs : List Char) : Option (Document × List Char) :=
  match cs with
  | '[' :: rest => do
    let (path, rest) ← key? rest
    match rest with
    | ']' :: ']' :: rest => return (← d.enter? path Fields.addTable?, ← lineEnd? rest)
    | _ => none
  | _ => do
    let (path, rest) ← key? cs
    match rest with
    | ']' :: rest => return (← d.enter? path Fields.openTable?, ← lineEnd? rest)
    | _ => none

def line? (d : Document) (cs : List Char) : Option (Document × List Char) :=
  match skipBlanks cs with
  | '[' :: rest => d.header? rest
  | cs =>
    match lineEnd? cs with
    | some rest => some (d, rest)
    | none => do
      let ((key, j), rest) ← assignment? value? cs
      return (← d.assign? key j, ← lineEnd? rest)

def readLines : Nat → Document → List Char → Option Document
  | 0, _, _ => none
  | fuel + 1, d, cs =>
    if cs.isEmpty then some d
    else do
      let (d, rest) ← d.line? cs
      readLines fuel d rest

end Document

def skipByteOrderMark (cs : List Char) : List Char :=
  match cs with
  | '\ufeff' :: rest => rest
  | _ => cs

def parse? (source : String) : Option Json :=
  let cs := skipByteOrderMark source.toList
  (Document.empty.readLines (cs.length + 1) cs).map (·.root.toJson)

end FluentWrappers.Toml
