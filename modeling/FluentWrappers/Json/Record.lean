import FluentWrappers.Json.Value

/-!
# Records and alternatives in JSON (`SPEC_FULL.md`, 10.3, descriptor manifest)

A record is an object that holds each of its known names at most once; unknown names are skipped.
The values may also stand in an array, in the order of the names. An alternative is its name alone
or an object with that one name.
-/

namespace FluentWrappers.Json

structure Record where
  fields : List (String × Json)

def repeatsKnown (names : List String) : List (String × Json) → Bool
  | [] => false
  | (name, _) :: rest =>
    (names.contains name && (rest.lookup name).isSome) || repeatsKnown names rest

def record? (names : List String) : Json → Option Record
  | object fields => if repeatsKnown names fields then none else some ⟨fields⟩
  | array items => if names.length < items.length then none else some ⟨names.zip items⟩
  | _ => none

namespace Record

def required? {α : Type} (r : Record) (name : String) (item : Json → Option α) : Option α :=
  match r.fields.lookup name with
  | some j => item j
  | none => none

def withDefault? {α : Type} (r : Record) (name : String) (default : α) (item : Json → Option α) :
    Option α :=
  match r.fields.lookup name with
  | some j => item j
  | none => some default

def optional? {α : Type} (r : Record) (name : String) (item : Json → Option α) :
    Option (Option α) :=
  r.withDefault? name none (Json.optional? item)

end Record

/-- The name of an alternative and, unless the name stands alone, its content. -/
def alternative? : Json → Option (String × Option Json)
  | text name => some (name, none)
  | object [(name, content)] => some (name, some content)
  | _ => none

def bareAlternative? (j : Json) : Option String := do
  let (name, content) ← j.alternative?
  match content with
  | none => some name
  | some null => some name
  | some _ => none

def present {α : Type} (name : String) (item : α → Json) : Option α → List (String × Json)
  | some value => [(name, item value)]
  | none => []

end FluentWrappers.Json
