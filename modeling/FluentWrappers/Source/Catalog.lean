import FluentWrappers.Source.Descriptor
import FluentWrappers.Synthesis.Error

/-!
# The source catalog (`SPEC_FULL.md`, 4.1 and 10.5, `SourceCatalog`)

All source types that a scanner knows, in the order in which they were added, and the generic
definitions of the base runtime that may be applied to synthesized types. Types are looked up through
an index that has their positions under their canonical names. Canonical names are distinct, and so
are the names of the members of each type.

A source type has the members of its bases, root first, and then its own. A member declared again
takes the place of the inherited one. Only eligible members are kept.
-/

namespace FluentWrappers

open Synthesis (SynthesisError)

/-- Source types in order, and the position of each under its canonical name. Of types that share a
name the first has it. -/
structure SourceTable where
  types : List SourceType
  index : List (String × Nat)
  inStep : ∀ canonical, index.lookup canonical = types.findIdx? (·.canonical == canonical)
  deriving DecidableEq, Repr

namespace SourceTable

theorem lookup_zipIdx (types : List SourceType) (start : Nat) (canonical : String) :
    ((types.map SourceType.canonical).zipIdx start).lookup canonical =
      (types.findIdx? (·.canonical == canonical)).map (· + start) := by
  induction types generalizing start with
  | nil => rfl
  | cons t rest ih =>
    rw [List.map_cons, List.zipIdx_cons, List.lookup_cons, List.findIdx?_cons, ih, Bool.beq_comm]
    cases t.canonical == canonical with
    | true => simp
    | false =>
      rw [if_neg Bool.false_ne_true, Option.map_map]
      exact congrArg (Option.map · _) (funext fun i => by simp only [Function.comp]; omega)

def ofTypes (types : List SourceType) : SourceTable where
  types := types
  index := (types.map SourceType.canonical).zipIdx
  inStep canonical := by simpa using lookup_zipIdx types 0 canonical

instance : Coe (List SourceType) SourceTable := ⟨ofTypes⟩

/-- The table with one more type at its end. -/
def push (table : SourceTable) (t : SourceType) : SourceTable where
  types := table.types ++ [t]
  index := table.index ++ [(t.canonical, table.types.length)]
  inStep canonical := by
    rw [List.lookup_append, List.findIdx?_append, table.inStep]
    congr 1
    rw [List.lookup_cons, List.findIdx?_cons, Bool.beq_comm]
    cases t.canonical == canonical with
    | true => simp
    | false => rfl

end SourceTable

structure SourceCatalog where
  table : SourceTable
  runtimeGenerics : List String
  deriving DecidableEq, Repr

namespace SourceCatalog

/-- The generic definitions that every catalog knows. -/
def standardGenerics : List String := [
  "System.Collections.Generic.List",
  "System.Collections.Generic.Dictionary",
  "System.Collections.Generic.HashSet",
  "System.Collections.Generic.IEnumerable",
  "System.Nullable"]

def empty : SourceCatalog := ⟨.ofTypes [], standardGenerics⟩

abbrev types (c : SourceCatalog) : List SourceType := c.table.types

abbrev index (c : SourceCatalog) : List (String × Nat) := c.table.index

/-- The type of a canonical name. -/
def getByName? (c : SourceCatalog) (canonical : String) : Option SourceType :=
  (c.index.lookup canonical).bind fun position => c.types[position]?

def get? (c : SourceCatalog) (name : TypeName) : Option SourceType :=
  c.getByName? name.canonical

/-- The type of a name, which must be known. -/
def require (c : SourceCatalog) (name : TypeName) : Except SynthesisError SourceType :=
  match c.get? name with
  | some type => .ok type
  | none => .error (.unknownType name.canonical)

def contains (c : SourceCatalog) (canonical : String) : Bool :=
  (c.index.lookup canonical).isSome

/-- Adds a type, unless its name is known or it repeats the name of a member (10.5). -/
def add (t : SourceType) : ExceptT SynthesisError (StateM SourceCatalog) Unit := do
  let c ← get
  if c.contains t.canonical then throw (.configuration (.typeRegisteredTwice t.canonical))
  else
    match firstRepeated? [] (t.members.map (·.name)) with
    | some member => throw (.configuration (.memberDeclaredTwice member t.canonical))
    | none => set { c with table := c.table.push t }

/-- The catalog with one more type, for callers that give the catalog up if the type cannot be added. -/
def insert (c : SourceCatalog) (t : SourceType) : Except SynthesisError SourceCatalog :=
  let (added, c) := add t c
  added.map fun () => c

def ofTypes (types : List SourceType) : Except SynthesisError SourceCatalog :=
  types.foldlM insert empty

def registerGeneric (c : SourceCatalog) (definition : String) : SourceCatalog :=
  if c.runtimeGenerics.contains definition then c
  else { c with runtimeGenerics := c.runtimeGenerics ++ [definition] }

def isRuntimeGeneric (c : SourceCatalog) (definition : TypeName) : Bool :=
  c.runtimeGenerics.contains definition.canonical

theorem getByName?_eq_find? (c : SourceCatalog) (canonical : String) :
    c.getByName? canonical = c.types.find? (·.canonical == canonical) := by
  rw [getByName?, c.table.inStep, List.find?_eq_bind_findIdx?_getElem?]

end SourceCatalog

/-! ### Members with inheritance -/

/-- The members with one more, in the place of one of the same name if there is one (10.5, extractor
order). -/
def addMember (members : List Member) (m : Member) : List Member :=
  if members.any (·.name == m.name) then
    members.map fun old => if old.name == m.name then m else old
  else members ++ [m]

namespace SourceCatalog

/-- A type and its bases in the catalog, most derived first, unless a name comes again. No more bases
than the fuel are followed. -/
def chainWithin (c : SourceCatalog) : Nat → List String → SourceType →
    Except SynthesisError (List SourceType)
  | fuel, seen, t =>
    if seen.contains t.canonical then .error (.configuration (.inheritanceCycle t.canonical))
    else
      match t.base.bind c.get? with
      | none => .ok [t]
      | some base =>
        match fuel with
        | 0 => .error (.configuration (.inheritanceCycle base.canonical))
        | fuel + 1 => do
          let chain ← chainWithin c fuel (t.canonical :: seen) base
          return t :: chain

/-- A type and its bases in the catalog. With more steps than the catalog has types a name comes
again. -/
def chain (c : SourceCatalog) (t : SourceType) : Except SynthesisError (List SourceType) :=
  c.chainWithin (c.types.length + 1) [] t

/-- The eligible members of a type and of its bases (4.1). -/
def extract (c : SourceCatalog) (t : SourceType) : Except SynthesisError (List Member) := do
  let chain ← c.chain t
  let members := chain.reverse.foldl (fun members t => t.members.foldl addMember members) []
  return members.filter Member.isEligible

end SourceCatalog

end FluentWrappers
