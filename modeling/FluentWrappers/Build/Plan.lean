import FluentWrappers.Build.Engine

/-!
# Build plans (`SPEC_FULL.md`, 10.8, `BuildPlan`)

A plan collects types and settings step by step and then builds them with an engine of its own. It
takes one handler for failures and one for old artifacts that cannot be removed.
-/

namespace FluentWrappers.Build

open Synthesis (SynthesisError)

/-- A build that is being put together, with the result of its latest execution. -/
structure Plan where
  engine : Engine
  catalog : SourceCatalog := .empty
  selected : List TypeName := []
  path : Option String := none
  metadata : Metadata := {}
  handlesErrors : Bool := false
  deleteSubscription : Option Nat := none
  result : Option BuildResult := none
  deriving DecidableEq, Repr

namespace Plan

def withEngine (engine : Engine) : Plan := { engine }

def create (options : EngineOptions) : Except SynthesisError Plan := do
  return withEngine (← Engine.create options)

def addDependencies (p : Plan) (types : List SourceType) : Except SynthesisError Plan := do
  return { p with catalog := ← types.foldlM SourceCatalog.insert p.catalog }

/-- The plan with further types known and the candidates among them selected (10.8, `scan`). -/
def scan (p : Plan) (types : List SourceType) : Except SynthesisError Plan := do
  let known ← p.addDependencies types
  return { known with selected := p.selected ++ (types.filter isCandidate).map (·.name) }

def onError (p : Plan) : Except SynthesisError Plan :=
  if p.handlesErrors then .error (.configuration .errorHandlerRegistered)
  else .ok { p with handlesErrors := true }

def onDeleteError (p : Plan) : Except SynthesisError Plan :=
  if p.deleteSubscription.isSome then .error (.configuration .deleteHandlerRegistered)
  else
    let (id, engine) := p.engine.subscribe .deleteConflict
    .ok { p with engine, deleteSubscription := some id }

def latestResult (p : Plan) : Except SynthesisError BuildResult :=
  match p.result with
  | some result => .ok result
  | none => .error (.configuration .planNotExecuted)

def reset (p : Plan) : Except SynthesisError Plan := do
  let _ ← p.latestResult
  let (done, engine) := p.engine.reset
  done
  return { p with engine, result := none }

def request (p : Plan) (freshGuid : String) : BuildRequest :=
  { catalog := p.catalog, types := p.selected, path := p.path, metadata := p.metadata, freshGuid }

def tellError {m : Type → Type} [Monad m] (p : Plan) (handle : Event → m Unit)
    (error : Option SynthesisError) : m Unit :=
  match error, p.handlesErrors with
  | some error, true => handle (.critical error)
  | _, _ => return ()

/-- Builds the selected types. Without any, the failure goes to the handler, or it is the answer if
there is no handler (10.8, `execute`). -/
def execute {m : Type → Type} [Monad m] [FileSystem m] (p : Plan) (handle : Event → m Unit)
    (freshGuid : String) : m (Except SynthesisError BuildResult × Plan) := do
  if p.selected.isEmpty then
    let error : SynthesisError := .configuration .noTypesSelected
    if !p.handlesErrors then return (.error error, p)
    p.tellError handle (some error)
    let result := .failed 0 error
    return (.ok result, { p with result := some result })
  let deliver (id : Nat) (event : Event) : StateT Engine m Unit :=
    if p.deleteSubscription = some id then handle event else return ()
  let (result, engine) ← (build deliver (p.request freshGuid)).run p.engine
  p.tellError handle result.error?
  return (.ok result, { p with engine, result := some result })

end Plan

end FluentWrappers.Build
