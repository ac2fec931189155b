import FluentWrappers.Options
import FluentWrappers.Source.Catalog
import FluentWrappers.Synthesis.Cache

/-!
# Sessions and productions (`SPEC_FULL.md`, 4.6 and 10.6)

A session holds the types of one build in a cache of its own. What a build keeps of it is the closure
of the types it asked for: these and every completed type they depend on.

A production makes one type under its key. The keys of the productions that are under way form the
scope; a production that needs one of them refers to it by name and does not start it again.
-/

namespace FluentWrappers.Synthesis

structure Session where
  cache : Cache
  deriving DecidableEq, Repr

/-- The names reached from pending ones, besides those reached already, by following dependencies
through types; of two types of one name the later counts. -/
def reachFrom (types : List SynthesizedType) (pending reached : List TypeName) : List TypeName :=
  match pending with
  | [] => reached
  | name :: rest =>
    match _h : types.reverse.find? (·.name == name) with
    | none => reachFrom types rest reached
    | some t =>
      if _fresh : reached.contains name then reachFrom types rest reached
      else reachFrom types (t.dependencies ++ rest) (name :: reached)
termination_by ((types.filter fun t => !reached.contains t.name).length, pending.length)
decreasing_by
  · exact Prod.Lex.right _ (by simp)
  · exact Prod.Lex.right _ (by simp)
  · apply Prod.Lex.left
    have isName : t.name = name := by simpa using List.find?_some _h
    have member : t ∈ types := by simpa using List.mem_of_find?_eq_some _h
    have unseen : t ∈ types.filter fun t => !reached.contains t.name := by
      simpa [isName, member] using _fresh
    have smaller : (types.filter fun t => !(name :: reached).contains t.name) =
        (types.filter fun t => !reached.contains t.name).filter fun t => !(t.name == name) := by
      rw [List.filter_filter]
      congr 1
      funext u
      by_cases same : u.name = name <;> simp [same]
    rw [smaller]
    exact List.length_filter_lt_length_iff_exists.2 ⟨t, unseen, by simp [isName]⟩

namespace Session

def start (waitTimeoutMs : UInt64) : Session := ⟨Cache.empty waitTimeoutMs⟩

def types (s : Session) : List SynthesizedType := s.cache.types

def isCancelled (s : Session) : Bool := s.cache.cancelled

def cancel (s : Session) : Session := ⟨s.cache.cancel⟩

/-- The completed types that can be reached from roots, in the order of completion (10.7: what a build
writes). -/
def closure (s : Session) (roots : List TypeName) : List SynthesizedType :=
  let reached := reachFrom s.types roots []
  s.types.filter fun t => reached.contains t.name

end Session

/-! ### Productions -/

structure Progress where
  session : Session
  scope : List CacheKey
  deriving DecidableEq, Repr

/-- A step of synthesis: what it changes lasts also if it fails. -/
abbrev Synth := ExceptT SynthesisError (StateM Progress)

instance : MonadStateOf Cache (StateM Progress) where
  get := do return (← getThe Progress).session.cache
  set cache := modifyThe Progress fun p => { p with session := ⟨cache⟩ }
  modifyGet f := modifyGetThe Progress fun p =>
    let (a, cache) := f p.session.cache
    (a, { p with session := ⟨cache⟩ })

structure Synthesizer where
  catalog : SourceCatalog
  options : EngineOptions
  deriving DecidableEq, Repr

def attempt {α : Type} (step : Synth α) : Synth (Except SynthesisError α) :=
  fun p =>
    let (result, p) := step p
    (.ok result, p)

def inScope (key : CacheKey) : Synth Bool := do
  return (← getThe Progress).scope.contains key

def outcomeOf (produce : Synth (Option SynthesizedType)) : StateM Progress Outcome := do
  match ← produce.run with
  | .ok type => return .produced type
  | .error error => return .failed error

/-- The type of a key: the cached one or else the one now produced, with the key in the scope (4.6). -/
def memoize (key : CacheKey) (produce : Synth (Option SynthesizedType)) :
    Synth (Option SynthesizedType) := do
  if (← getThe Progress).session.isCancelled then throw .cancelled
  modifyThe Progress fun p => { p with scope := key :: p.scope }
  let answer ← (Cache.getOrCreate 0 key (outcomeOf produce) : StateM Progress Answer)
  modifyThe Progress fun p => { p with scope := p.scope.tail }
  match answer with
  | .found result => return result.map (·.type)
  | .failed error => throw error
  | .unwound => throw (.dependencyFailed key.text Cache.unwoundReason)

/-- A way to have the type of a key, given the production of it. -/
abbrev Memo := CacheKey → Synth (Option SynthesizedType) → Synth (Option SynthesizedType)

namespace Synthesizer

def memberFailure (source : SourceType) (m : Member) : SynthesisError → SynthesisError
  | .cancelled => .cancelled
  | .dereference owner member type reason => .dereference owner member type reason
  | other => .dereference source.canonical m.name m.type.text other.message

/-- A member with its type made independent of the source. Unless failures end everything, a member
whose type resists keeps it (4.4, failure policy). -/
def resolveMember (s : Synthesizer) (dereference : TypeRef → Synth TypeRef) (source : SourceType)
    (m : Member) : Synth Member := do
  match ← attempt (dereference m.type) with
  | .ok type => return m.withType type
  | .error error =>
    if error = .cancelled || s.options.failFast then throw (memberFailure source m error)
    else return m

/-- The eligible members of a source type with their types made independent, none if there are none. -/
def resolveMembers (s : Synthesizer) (dereference : TypeRef → Synth TypeRef) (source : SourceType) :
    Synth (Option (List Member)) := do
  let members ← s.catalog.extract source
  if members.isEmpty then return none
  else if !s.options.dereference then return some members
  else return some (← members.mapM (s.resolveMember dereference source))

end Synthesizer

end FluentWrappers.Synthesis
