import FluentWrappers.Artifact.Disassembly
import FluentWrappers.Build.Engine
import FluentWrappers.Command.Arguments
import FluentWrappers.Command.Project
import FluentWrappers.Listing

/-!
# Running commands (`SPEC_FULL.md`, 10.9)

A command reads and writes files and leaves a status and two texts: what it has to tell, and what went
wrong. A command line that is not well formed has a status of its own.
-/

namespace FluentWrappers.Command

open Build Synthesis

/-! ### Errors -/

inductive CommandError where
  | manifestUnreadable (path reason : String)
  | manifestInvalid (path : String)
  | configurationUnreadable (path reason : String)
  | configurationInvalid (path : String)
  | optionsInvalid (cause : SynthesisError)
  | catalogInvalid (cause : SynthesisError)
  | typeMissing (name : String)
  | buildFailed (cause : SynthesisError)
  | artifactUnreadable (path reason : String)
  | artifactInvalid (path : String) (cause : ArtifactError)
  | verificationFailed (path : String) (cause : VerifyError)
  deriving DecidableEq, Repr

/-- The text of a file's fault with the text of its own cause, if it has one. -/
def causeChain (e : ArtifactError) : String :=
  match e with
  | .decode cause => s!"{e.message}: {cause.message}"
  | _ => e.message

def CommandError.message : CommandError → String
  | manifestUnreadable path reason => s!"cannot read manifest {path}: {reason}"
  | manifestInvalid path => s!"invalid manifest {path}: not a manifest in JSON"
  | configurationUnreadable path reason => s!"cannot read config {path}: {reason}"
  | configurationInvalid path => s!"invalid config {path}: not a configuration in TOML"
  | optionsInvalid cause => s!"invalid options: {cause.message}"
  | catalogInvalid cause => cause.message
  | typeMissing name => s!"type {name} is not in the manifest"
  | buildFailed cause => s!"build failed: {cause.message}"
  | artifactUnreadable path reason => s!"cannot read {path}: {reason}"
  | artifactInvalid path cause => s!"cannot decode {path}: {causeChain cause}"
  | verificationFailed path cause => s!"{path} failed verification: {cause.message}"

/-! ### Transcripts -/

structure Transcript where
  output : String := ""
  errors : String := ""
  deriving DecidableEq, Repr

structure Exit where
  status : UInt8
  output : String
  errors : String
  deriving DecidableEq, Repr

section Commands

variable {m : Type → Type} [Monad m] [FileSystem m]

abbrev CommandT (m : Type → Type) := ExceptT CommandError (StateT Transcript m)

def tell (text : String) : CommandT m Unit :=
  modifyThe Transcript fun t => { t with output := t.output ++ text }

def orFail {ε α : Type} (error : ε → CommandError) (result : Except ε α) : CommandT m α :=
  ExceptT.mk (pure (result.mapError error))

/-! ### Reading files -/

def readBytes (error : String → CommandError) (path : String) : CommandT m (List UInt8) := do
  let content ← (FileSystem.read path : m _)
  orFail (fun fault => error (FileFault.message fault)) content

def readText (error : String → CommandError) (path : String) : CommandT m String := do
  match Text.ofUtf8? (← readBytes error path) with
  | some text => return text
  | none => throw (error "stream did not contain valid UTF-8")

def readManifest (path : String) : CommandT m Manifest := do
  match Manifest.parse? (← readText (.manifestUnreadable path) path) with
  | some manifest => return manifest
  | none => throw (.manifestInvalid path)

def readConfiguration (path : String) : CommandT m Configuration := do
  match Configuration.parse? (← readText (.configurationUnreadable path) path) with
  | some configuration => return configuration
  | none => throw (.configurationInvalid path)

/-- The configuration at a given path, else the one beside the manifest, else none of its own. -/
def findConfiguration (given : Option String) (manifest : String) : CommandT m Configuration := do
  match given with
  | some path => readConfiguration path
  | none =>
    match (Path.parent? manifest).map (Path.join · Configuration.fileName) with
    | none => return {}
    | some path => if ← (FileSystem.isFile path : m _) then readConfiguration path else return {}

def readArtifact (path : String) : CommandT m Artifact := do
  let bytes ← readBytes (.artifactUnreadable path) path
  orFail (.artifactInvalid path) (Artifact.decode bytes)

/-! ### Building -/

def BuildArguments.apply (a : BuildArguments) (o : EngineOptions) : EngineOptions :=
  let o := a.fluentPrefix.elim o o.withFluentPrefix
  let o := a.proxySuffix.elim o o.withProxySuffix
  let o := a.objectProperty.elim o o.withObjectProperty
  let o := a.interfacePrefix.elim o o.withInterfacePrefix
  { o with
    outputDir := a.outDir.or o.outputDir
    overwrite := a.overwrite || o.overwrite
    dereference := !a.noDereference && o.dereference
    failFast := !a.lenient && o.failFast
    appendHash := !a.noHash && o.appendHash }

def warn (_ : Nat) : Event → StateT Engine (StateT Transcript m) Unit
  | .critical _ => pure ()
  | .deleteConflict path error => modifyThe Transcript fun t => { t with
      errors := t.errors ++ s!"warning: cannot replace {path}: {error.message}\n" }

def writtenListing (w : Written) (session : Session) : String :=
  Listing.listing true w.metadata (session.types.filter (w.synthesized.contains ·.canonical))

def summary (w : Written) : String :=
  let skipped := w.requested - w.produced
  s!"Built {w.produced} of {w.requested} types ({w.synthesized.length} synthesized)\n  {w.path}\n" ++
    if 0 < skipped then s!"  skipped {skipped} types with no eligible members\n" else ""

def runBuild (freshGuid : String) (a : BuildArguments) : CommandT m Unit := do
  let manifest ← readManifest a.manifest
  let configuration ← findConfiguration a.config a.manifest
  let engine ← orFail .optionsInvalid (Engine.create (a.apply configuration.options))
  let catalog ← orFail .catalogInvalid manifest.catalog
  let metadata := manifest.metadata.orElse configuration.metadata
  let types ← orFail .typeMissing (manifest.select a.types)
  let request : BuildRequest := { catalog, types, path := a.file, metadata, freshGuid }
  let start := (engine.subscribe .deleteConflict).2
  let (result, engine) ← ((build warn request).run start : StateT Transcript m _)
  match result with
  | .failed _ cause => throw (.buildFailed cause)
  | .written w =>
    if let some session := engine.session? then
      if a.listing then tell (writtenListing w session ++ "\n")
    tell (summary w)

/-! ### Looking at artifacts -/

def runInspect (path : String) : CommandT m Unit := do
  tell (← readArtifact path).text

def runVerify (path : String) : CommandT m Unit := do
  let artifact ← readArtifact path
  orFail (.verificationFailed path) artifact.verify
  let mode := if hasFlag artifact.flags ArtifactFlag.standalone then "standalone" else "lenient"
  let types := artifact.types.length
  tell s!"ok {path}: {types} types, {artifact.memberRefs.length} member refs ({mode})\n"

/-! ### Command lines -/

def versionLine : String := "fluentgen 0.2.0\n"

def usage : String :=
  "Usage: fluentgen [OPTIONS] build <MANIFEST> | inspect <ARTIFACT> | verify <ARTIFACT>\n"

def runTask (freshGuid : String) : Task → CommandT m Unit
  | .build a => runBuild freshGuid a
  | .inspect path => runInspect path
  | .verify path => runVerify path

/-- Runs a command line. The identifier is for an artifact that would have none. -/
def run (freshGuid : String) (arguments : List String) : m Exit := do
  match task arguments with
  | .error .help => return ⟨0, usage, ""⟩
  | .error .version => return ⟨0, versionLine, ""⟩
  | .error .misuse => return ⟨2, "", usage⟩
  | .ok t =>
    let (result, told) ← (runTask freshGuid t).run.run {}
    match result with
    | .ok () => return ⟨0, told.output, told.errors⟩
    | .error e => return ⟨1, told.output, told.errors ++ s!"error: {e.message}\n"⟩

end Commands

end FluentWrappers.Command
