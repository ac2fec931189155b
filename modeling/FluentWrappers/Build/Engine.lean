import FluentWrappers.Build.Request
import FluentWrappers.Files.Tree
import FluentWrappers.Lowering.Artifact
import FluentWrappers.Synthesis.Synthesizer

/-!
# Engines (`SPEC_FULL.md`, 4.7 and 10.8)

An engine runs one build at a time and keeps the session of the latest. Subscribers hear of failures
that end a build and of old artifacts that cannot be removed; they are called while the build is still
running, so a build that a subscriber starts is refused.
-/

namespace FluentWrappers.Build

open Synthesis (Session Synthesizer Wrappers SynthesisError SynthesizedType)

/-! ### Events -/

/-- What subscribers hear of. -/
inductive Channel where
  | critical
  /-- Old artifacts that cannot be removed. -/
  | deleteConflict
  deriving DecidableEq, Repr

/-- Something that subscribers hear of. -/
inductive Event where
  | critical (error : SynthesisError)
  | deleteConflict (path : String) (error : SynthesisError)
  deriving DecidableEq, Repr

namespace Event

def channel : Event → Channel
  | critical _ => .critical
  | deleteConflict _ _ => .deleteConflict

def error : Event → SynthesisError
  | critical error => error
  | deleteConflict _ error => error

end Event

/-- A subscription by its number. -/
structure Subscription where
  id : Nat
  channel : Channel
  deriving DecidableEq, Repr

/-! ### Engines -/

/-- An engine and all sessions that were opened with it. -/
structure Engine where
  options : EngineOptions
  busy : Bool
  subscriptions : List Subscription
  nextSubscription : Nat
  sessions : List Session
  current : Option Nat
  deriving DecidableEq, Repr

namespace Engine

def create (options : EngineOptions) : Except SynthesisError Engine := do
  return ⟨← options.validate, false, [], 1, [], none⟩

def subscribe (e : Engine) (channel : Channel) : Nat × Engine :=
  (e.nextSubscription, { e with
    subscriptions := e.subscriptions ++ [⟨e.nextSubscription, channel⟩]
    nextSubscription := e.nextSubscription + 1 })

/-- Ends a subscription; whether there was one. -/
def unsubscribe (e : Engine) (id : Nat) : Bool × Engine :=
  (e.subscriptions.any (·.id == id),
    { e with subscriptions := e.subscriptions.filter (·.id != id) })

/-- The numbers of the subscriptions to a channel, in the order in which they were made. -/
def subscribers (e : Engine) (channel : Channel) : List Nat :=
  (e.subscriptions.filter (·.channel == channel)).map (·.id)

def openSession (e : Engine) : Nat × Engine :=
  (e.sessions.length, { e with sessions := e.sessions ++ [.start e.options.waitTimeoutMs] })

def session? (e : Engine) : Option Session := e.current.bind (e.sessions[·]?)

def cancelSession (e : Engine) (id : Nat) : Engine :=
  { e with sessions := e.sessions.modify id Session.cancel }

def cancel (e : Engine) : Engine := e.current.elim e e.cancelSession

def reset (e : Engine) : Except SynthesisError Unit × Engine :=
  if e.busy then (.error .concurrentBuild, e) else (.ok (), { e with current := none })

end Engine

/-! ### The making of an artifact -/

/-- An artifact with what a result says of it. -/
structure Product where
  artifact : Artifact
  types : List SynthesizedType
  produced : Nat
  deriving DecidableEq, Repr

def wrapperNames (w : Wrappers) : List TypeName := [w.interface.name, w.proxy.name, w.fluent.name]

def lowerRequest (r : BuildRequest) (first : TypeName) (session : Session) (made : List Wrappers) :
    Except SynthesisError Product := do
  if made.isEmpty then throw (.emptyResult r.types.length)
  let types := session.closure (made.flatMap wrapperNames)
  let metadata ← r.filledMetadata first
  let artifact ← Lowering.lower (Lowering.runtimeNames r.catalog) metadata types
  return ⟨artifact, types, made.length⟩

def makeProduct (o : EngineOptions) (r : BuildRequest) (session : Session) :
    Except SynthesisError Product × Session :=
  match r.types with
  | [] => (.error (.configuration .noTypesSelected), session)
  | first :: _ =>
    let s : Synthesizer := ⟨r.catalog, o⟩
    let (made, session) := Synthesizer.run session (r.types.mapM fun name => do
      s.synthesize (← r.catalog.require name))
    (made.bind fun made => lowerRequest r first session (made.filterMap id), session)

/-! ### Builds -/

section Builds

variable {m : Type → Type} [Monad m] [FileSystem m] [MonadStateOf Engine m]

/-- Tells every subscriber of an event's channel, by its number (10.8, notifications). -/
def notify (deliver : Nat → Event → m Unit) (event : Event) : m Unit := do
  (← getThe Engine).subscribers event.channel |>.forM (deliver · event)

def writeFault (path : String) (fault : FileFault) : SynthesisError :=
  .artifactWrite path fault.message

/-- Removes an old artifact if the options allow it, and makes the folders above a path (10.8, overwrite
policy). -/
def preparePath (deliver : Nat → Event → m Unit) (overwrite : Bool) (path : String) :
    ExceptT SynthesisError m Unit := do
  if ← (FileSystem.contains path : m Bool) then
    if !overwrite then throw (.artifactExists path)
    match ← (FileSystem.remove path : m _) with
    | .ok () => pure ()
    | .error fault =>
      ExceptT.lift (notify deliver (.deleteConflict path (writeFault path fault)))
      throw (writeFault path fault)
  match (Path.parent? path).filter (!·.isEmpty) with
  | none => return ()
  | some folder =>
    let made ← (FileSystem.makeFolders folder : m _)
    ExceptT.mk (pure (made.mapError (writeFault path)))

def writeProduct (deliver : Nat → Event → m Unit) (o : EngineOptions) (r : BuildRequest)
    (p : Product) : ExceptT SynthesisError m Written := do
  let metadata := p.artifact.metadata
  let path := r.path.getD (defaultPath o metadata.name)
  preparePath deliver o.overwrite path
  let written ← (FileSystem.write path p.artifact.encode : m _)
  ExceptT.mk (pure (written.mapError (writeFault path)))
  return { path, requested := r.types.length, produced := p.produced,
           synthesized := p.types.map (·.canonical), metadata }

/-- Runs a request in a session (4.7). -/
def runRequest (deliver : Nat → Event → m Unit) (r : BuildRequest) (id : Nat) :
    ExceptT SynthesisError m Written := do
  let e ← getThe Engine
  let session := e.sessions[id]?.getD (.start e.options.waitTimeoutMs)
  let (product, session) := makeProduct e.options r session
  modifyThe Engine fun e => { e with sessions := e.sessions.set id session }
  writeProduct deliver e.options r (← ExceptT.mk (pure product))

/-- Builds in a session of the caller's (`build_in_session`, 10.8). -/
def buildInSession (deliver : Nat → Event → m Unit) (r : BuildRequest) (id : Nat) :
    m BuildResult := do
  if (← getThe Engine).busy then return .failed r.types.length .concurrentBuild
  modifyThe Engine fun e => { e with busy := true, current := some id }
  let result ← match ← (runRequest deliver r id).run with
    | .ok w => pure (.written w)
    | .error error => do
      notify deliver (.critical error)
      pure (.failed r.types.length error)
  modifyThe Engine fun e => { e with busy := false }
  return result

/-- Builds in a new session (`build`, 10.8). -/
def build (deliver : Nat → Event → m Unit) (r : BuildRequest) : m BuildResult := do
  let id ← modifyGetThe Engine (·.openSession)
  buildInSession deliver r id

end Builds

end FluentWrappers.Build
