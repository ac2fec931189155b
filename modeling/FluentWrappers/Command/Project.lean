import FluentWrappers.Artifact.Metadata
import FluentWrappers.Build.Request
import FluentWrappers.Json.Parse
import FluentWrappers.Options
import FluentWrappers.Source.Record
import FluentWrappers.Text.Basic
import FluentWrappers.Toml.Document

/-!
# Projects (`SPEC_FULL.md`, 10.3, CLI configuration)

A project is a manifest, with a configuration beside it. The manifest is what a scanner of sources
writes: metadata of the artifact to build, all types that it found, and further generic definitions of
the base runtime. The configuration keeps defaults for the options of builds and the metadata of
artifacts.
-/

namespace FluentWrappers

/-! ### Configurations -/

def Metadata.orElse (m fallback : Metadata) : Metadata where
  name := if Text.isBlank m.name then fallback.name else m.name
  title := m.title.or fallback.title
  description := m.description.or fallback.description
  configuration := m.configuration.or fallback.configuration
  product := m.product.or fallback.product
  version := m.version.or fallback.version
  fileVersion := m.fileVersion.or fallback.fileVersion
  company := m.company.or fallback.company
  copyright := m.copyright.or fallback.copyright
  trademark := m.trademark.or fallback.trademark
  culture := m.culture.or fallback.culture
  neutralLanguage := m.neutralLanguage.or fallback.neutralLanguage
  guid := m.guid.or fallback.guid
  visible := m.visible || fallback.visible

namespace Command

structure Configuration where
  options : EngineOptions := {}
  metadata : Metadata := {}
  deriving DecidableEq, Repr

namespace Configuration

def fileName : String := "fluentgen.toml"

/-- A value without the items of an array that no field of a record is left for. -/
def cutTo (names : List String) (j : Json) : Json :=
  match j with
  | .array items => .array (items.take names.length)
  | other => other

/-- The configuration of a record; every field has a default. -/
def ofJson? (j : Json) : Option Configuration := do
  let r ← j.record? ["engine", "metadata"]
  let options ← r.withDefault? "engine" {} fun j =>
    EngineOptions.ofJson? (cutTo EngineOptions.fieldNames j)
  let metadata ← r.withDefault? "metadata" {} fun j =>
    Metadata.ofJson? (cutTo Metadata.fieldNames j)
  return ⟨options, metadata⟩

def parse? (source : String) : Option Configuration := (Toml.parse? source).bind ofJson?

end Configuration

end Command

end FluentWrappers

namespace FluentWrappers.Command

/-! ### Manifests -/

open Synthesis (SynthesisError)

structure Manifest where
  metadata : Metadata
  types : List SourceType
  runtimeGenerics : List String
  deriving DecidableEq, Repr

namespace Manifest

def fieldNames : List String := ["metadata", "types", "runtime_generics"]

def ofJson? (j : Json) : Option Manifest := do
  let r ← j.record? fieldNames
  let metadata ← r.withDefault? "metadata" {} Metadata.ofJson?
  let types ← r.required? "types" (Json.list? SourceType.ofJson?)
  let runtimeGenerics ← r.withDefault? "runtime_generics" [] (Json.list? Json.text?)
  return ⟨metadata, types, runtimeGenerics⟩

def parse? (source : String) : Option Manifest := (Json.parse? source).bind ofJson?

def catalog (m : Manifest) : Except SynthesisError SourceCatalog := do
  return m.runtimeGenerics.foldl SourceCatalog.registerGeneric (← SourceCatalog.ofTypes m.types)

def named (m : Manifest) (canonical : String) : Except String TypeName :=
  match m.types.find? (·.canonical == canonical) with
  | some t => .ok t.name
  | none => .error canonical

/-- The types to make wrappers for: those named, or every candidate if none is. The error is a name
that the manifest does not have. -/
def select (m : Manifest) (names : List String) : Except String (List TypeName) :=
  if names.isEmpty then .ok ((m.types.filter Build.isCandidate).map (·.name))
  else names.mapM m.named

end Manifest

end FluentWrappers.Command
