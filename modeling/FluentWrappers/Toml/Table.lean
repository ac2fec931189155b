import FluentWrappers.Json.Value

/-!
# Tables in the making (`SPEC_FULL.md`, 10.3, CLI configuration)

A table is filled by headers and by dotted keys. Neither may take up what the other has finished: a
header names a table once, and dotted keys grow only tables that dotted keys have made.
-/

namespace FluentWrappers.Toml

inductive Origin where
  | header
  /-- A longer header leads through it. -/
  | implied
  | dotted
  deriving DecidableEq, Repr

inductive Item where
  | value (j : Json)
  | table (origin : Origin) (fields : List (String × Item))
  /-- Tables that headers add one after the other; only the latest can still grow. -/
  | tables (earlier : List Json) (latest : List (String × Item))

abbrev Fields := List (String × Item)

/-! ### Finished tables -/

mutual

def Item.toJson : Item → Json
  | .value j => j
  | .table _ fields => .object (fieldsToJson fields)
  | .tables earlier latest => .array (earlier ++ [.object (fieldsToJson latest)])

def fieldsToJson : List (String × Item) → List (String × Json)
  | [] => []
  | (key, item) :: rest => (key, item.toJson) :: fieldsToJson rest

end

def Fields.toJson (fields : Fields) : Json := .object (fieldsToJson fields)

/-! ### Growing tables -/

def Fields.replace (key : String) (item : Item) (fields : Fields) : Fields :=
  fields.map fun (name, old) => if name = key then (name, item) else (name, old)

/-- Adds a value under a dotted key. The table that takes the value has to be the first of the key's
path or one that dotted keys have made. -/
def Fields.insert? : List String → Json → Fields → Option Fields
  | [], _, _ => none
  | [key], j, fields =>
    if (fields.lookup key).isSome then none else some (fields ++ [(key, .value j)])
  | key :: next :: path, j, fields =>
    match fields.lookup key with
    | none => do
      return fields ++ [(key, .table .dotted (← insert? (next :: path) j []))]
    | some (.table .dotted inner) => do
      return fields.replace key (.table .dotted (← insert? (next :: path) j inner))
    | some (.table .implied inner) => do
      if path.isEmpty then none
      else return fields.replace key (.table .implied (← insert? (next :: path) j inner))
    | some (.tables earlier latest) => do
      if path.isEmpty then none
      else return fields.replace key (.tables earlier (← insert? (next :: path) j latest))
    | some (.table .header _) => none
    | some (.value _) => none

/-- Changes the table that a header's path leads to; tables on the way are made if need be. -/
def Fields.changeAt (change : Fields → Option Fields) : List String → Fields → Option Fields
  | [], fields => change fields
  | key :: path, fields =>
    match fields.lookup key with
    | none => do
      return fields ++ [(key, .table .implied (← changeAt change path []))]
    | some (.table origin inner) => do
      return fields.replace key (.table origin (← changeAt change path inner))
    | some (.tables earlier latest) => do
      return fields.replace key (.tables earlier (← changeAt change path latest))
    | some (.value _) => none

/-- Names a table in a header, unless it is there and no longer header led through it. -/
def Fields.openTable? (key : String) (fields : Fields) : Option Fields :=
  match fields.lookup key with
  | none => some (fields ++ [(key, .table .header [])])
  | some (.table .implied inner) => some (fields.replace key (.table .header inner))
  | some _ => none

def Fields.addTable? (key : String) (fields : Fields) : Option Fields :=
  match fields.lookup key with
  | none => some (fields ++ [(key, .tables [] [])])
  | some (.tables earlier latest) =>
    some (fields.replace key (.tables (earlier ++ [Fields.toJson latest]) []))
  | some _ => none

end FluentWrappers.Toml
