import FluentWrappers.Source.Catalog
import FluentWrappers.Synthesis.Type

/-!
# Closed sets of types (`SPEC_FULL.md`, 10.7, `STANDALONE`)

A set of types is closed if it defines or the base runtime provides everything that the types
mention: interfaces, and the types of fields, properties, parameters and results. Mentions are
followed in order up to the first that nothing provides; the names of the base runtime that were met
until then are recorded.
-/

namespace FluentWrappers.Lowering

open Synthesis (MethodSpec SynthesizedType)

structure RuntimeNames where
  types : List String := []
  generics : List String := []
  deriving DecidableEq, Repr

def runtimeNames (c : SourceCatalog) : RuntimeNames :=
  ⟨(c.types.filter SourceType.isRuntime).map SourceType.canonical, c.runtimeGenerics⟩

inductive Mention where
  /-- A type made by synthesis: the set must define it. -/
  | made (name : String)
  /-- A type of the catalog: the set or the base runtime may define it. -/
  | named (name : String)
  /-- A generic definition: the base runtime must provide it. -/
  | definition (name : String)
  deriving DecidableEq, Repr

mutual
/-- What a type reference mentions, from left to right. -/
def mentionsOf : TypeRef → List Mention
  | .synthesized name => [.made name.canonical]
  | .named name => [.named name.canonical]
  | .array element => mentionsOf element
  | .generic definition args => .definition definition.canonical :: mentionsOfAll args
  | .primitive _ | .string | .object => []

def mentionsOfAll : List TypeRef → List Mention
  | [] => []
  | t :: rest => mentionsOf t ++ mentionsOfAll rest
end

/-- What a type mentions: its interfaces first. -/
def mentionsOfType (t : SynthesizedType) : List Mention :=
  t.interfaces.map (fun name => .made name.canonical) ++ t.memberTypes.flatMap mentionsOf

namespace Mention

/-- Whether a set that defines the given names, or the base runtime, provides what is mentioned. -/
def isProvided (runtime : RuntimeNames) (defined : List String) : Mention → Bool
  | made name => defined.contains name
  | named name => defined.contains name || runtime.types.contains name
  | definition name => runtime.generics.contains name

/-- The name of the base runtime that a provided mention relies on. -/
def runtimeName? (defined : List String) : Mention → Option String
  | made _ => none
  | named name => if defined.contains name then none else some name
  | definition name => some name

end Mention

def mentionsOfTypes (types : List SynthesizedType) : List Mention :=
  types.flatMap mentionsOfType

def isClosed (runtime : RuntimeNames) (types : List SynthesizedType) : Bool :=
  (mentionsOfTypes types).all (Mention.isProvided runtime (types.map (·.canonical)))

def ascending (names : List String) : List String :=
  (names.mergeSort fun a b => decide (a ≤ b)).eraseDups

/-- The names of the base runtime that types rely on before the first mention that nothing provides,
in ascending order. -/
def runtimeRefs (runtime : RuntimeNames) (types : List SynthesizedType) : List String :=
  let defined := types.map (·.canonical)
  ascending (((mentionsOfTypes types).takeWhile (Mention.isProvided runtime defined)).filterMap
    (Mention.runtimeName? defined))

end FluentWrappers.Lowering
