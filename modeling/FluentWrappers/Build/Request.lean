import FluentWrappers.Artifact.Metadata
import FluentWrappers.Checksum
import FluentWrappers.Files.Path
import FluentWrappers.Options
import FluentWrappers.Report
import FluentWrappers.Source.Catalog
import FluentWrappers.Text.Basic

/-!
# Build requests and results (`SPEC_FULL.md`, 6 and 10.8, `BuildResult`)

What to build: the types that are known, those to make wrappers for, and what the artifact says about
itself. What a request leaves open is filled in from the first type and the options: an artifact is named
after the artifact that its types come from, and its file after it, with a hash of the name if wanted. A
build ends with an artifact that was written, or with the failure that ended it.
-/

namespace FluentWrappers.Build

/-! ### Identifiers -/

/-- Six bits of an identifier tell that its bytes are random. -/
def markRandom (bytes : List UInt8) : List UInt8 :=
  (bytes.modify 6 fun b => (b &&& 0x0f) ||| 0x40).modify 8 fun b => (b &&& 0x3f) ||| 0x80

def groups (bytes : List UInt8) : List Nat → List (List UInt8)
  | [] => []
  | size :: sizes => bytes.take size :: groups (bytes.drop size) sizes

def guidText (bytes : List UInt8) : String :=
  "-".intercalate ((groups (markRandom bytes) [4, 2, 2, 2, 6]).map Text.hexOfBytes)

/-! ### Names of artifacts and their files -/

def fileExtension : String := "fga"

def defaultArtifactName (origin : String) : String := origin ++ ".Fluent"

/-- The default file name, with the checksum of the artifact's name if wanted (10.8, output path). -/
def defaultFileName (artifactName : String) (appendHash : Bool) : String :=
  if appendHash then
    let hash := Text.hex (Checksum.crc32 (Text.utf8 artifactName)).toNat
    artifactName ++ "." ++ hash ++ "." ++ fileExtension
  else artifactName ++ "." ++ fileExtension

/-! ### Requests -/

open Synthesis (SynthesisError)

/-- Whether wrappers can be asked for: the type is not of the base runtime and no enumeration. -/
def isCandidate (t : SourceType) : Bool :=
  match t.kind with
  | .enumeration _ _ => false
  | _ => !t.isRuntime

structure BuildRequest where
  catalog : SourceCatalog
  types : List TypeName
  /-- The path of the artifact; by default it follows from the artifact's name. -/
  path : Option String := none
  metadata : Metadata := {}
  freshGuid : String
  deriving DecidableEq, Repr

namespace BuildRequest

def all (catalog : SourceCatalog) (freshGuid : String) : BuildRequest :=
  { catalog, types := (catalog.types.filter isCandidate).map (·.name), freshGuid }

def filledMetadata (r : BuildRequest) (first : TypeName) : Except SynthesisError Metadata := do
  let source ← r.catalog.require first
  let name := if Text.isBlank r.metadata.name then defaultArtifactName source.originName
    else r.metadata.name
  return { r.metadata with name, guid := some (r.metadata.guid.getD r.freshGuid) }

end BuildRequest

def defaultPath (o : EngineOptions) (artifactName : String) : String :=
  let file := defaultFileName artifactName o.appendHash
  match o.outputDir with
  | some folder => Path.join folder file
  | none => file

/-! ### Results -/

structure Written where
  path : String
  requested : Nat
  produced : Nat
  synthesized : List String
  metadata : Metadata
  deriving DecidableEq, Repr

inductive BuildResult where
  | written (w : Written)
  | failed (requested : Nat) (error : SynthesisError)
  deriving DecidableEq, Repr

namespace BuildResult

def error? : BuildResult → Option SynthesisError
  | written _ => none
  | failed _ error => some error

def path? : BuildResult → Option String
  | written w => some w.path
  | failed _ _ => none

def message : BuildResult → String
  | written w =>
    s!"Built {w.produced} of {w.requested} types ({w.synthesized.length} synthesized) into {w.path}"
  | failed _ error => s!"Build failed: {error.message}"

/-- The result as a JSON object. The summary is left out if it would hold a system's own words. -/
def report (r : BuildResult) : Json :=
  match r with
  | written w => .object [("succeeded", .bool true), ("path", .text w.path), ("error", .null),
      ("requested", .int w.requested), ("produced", .int w.produced),
      ("synthesized", .array (w.synthesized.map .text)), ("metadata", w.metadata.toJson),
      ("message", .text r.message)]
  | failed requested error => .object [("succeeded", .bool false), ("path", .null),
      ("error", error.report), ("requested", .int requested), ("produced", .int 0),
      ("synthesized", .array []), ("metadata", .null),
      ("message", match error with
        | .artifactWrite _ _ => .null
        | _ => .text r.message)]

end BuildResult

end FluentWrappers.Build
