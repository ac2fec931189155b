import FluentWrappers.Binary.Reader
import FluentWrappers.Binary.Wire
import FluentWrappers.Json.Record

/-!
# Metadata (`SPEC_FULL.md`, 10.3, `ArtifactMetadata`)

What an artifact says about itself: its name, twelve optional texts and whether foreign component
models see its types. As JSON it is a record of which every field has a default.
-/

namespace FluentWrappers

open Binary

structure Metadata where
  name : String := ""
  title : Option String := none
  description : Option String := none
  configuration : Option String := none
  product : Option String := none
  version : Option String := none
  fileVersion : Option String := none
  company : Option String := none
  copyright : Option String := none
  trademark : Option String := none
  culture : Option String := none
  neutralLanguage : Option String := none
  guid : Option String := none
  visible : Bool := false
  deriving DecidableEq, Repr, Inhabited

namespace Metadata

def optionalTexts (m : Metadata) : List (Option String) :=
  [m.title, m.description, m.configuration, m.product, m.version, m.fileVersion, m.company,
    m.copyright, m.trademark, m.culture, m.neutralLanguage, m.guid]

def encode (m : Metadata) : List UInt8 :=
  Wire.string m.name ++ m.optionalTexts.flatMap (Wire.optional Wire.string) ++ Wire.bool m.visible

def decode : Read Metadata := do
  let name ← Read.string
  let title ← Read.optional Read.string
  let description ← Read.optional Read.string
  let configuration ← Read.optional Read.string
  let product ← Read.optional Read.string
  let version ← Read.optional Read.string
  let fileVersion ← Read.optional Read.string
  let company ← Read.optional Read.string
  let copyright ← Read.optional Read.string
  let trademark ← Read.optional Read.string
  let culture ← Read.optional Read.string
  let neutralLanguage ← Read.optional Read.string
  let guid ← Read.optional Read.string
  let visible ← Read.bool
  return ⟨name, title, description, configuration, product, version, fileVersion, company,
    copyright, trademark, culture, neutralLanguage, guid, visible⟩

end Metadata

end FluentWrappers

namespace FluentWrappers.Metadata

/-! ### Metadata as JSON -/

def fieldNames : List String :=
  ["name", "title", "description", "configuration", "product", "version", "file_version", "company",
    "copyright", "trademark", "culture", "neutral_language", "guid", "visible"]

def ofJson? (j : Json) : Option Metadata := do
  let r ← j.record? fieldNames
  let name ← r.withDefault? "name" "" Json.text?
  let title ← r.optional? "title" Json.text?
  let description ← r.optional? "description" Json.text?
  let configuration ← r.optional? "configuration" Json.text?
  let product ← r.optional? "product" Json.text?
  let version ← r.optional? "version" Json.text?
  let fileVersion ← r.optional? "file_version" Json.text?
  let company ← r.optional? "company" Json.text?
  let copyright ← r.optional? "copyright" Json.text?
  let trademark ← r.optional? "trademark" Json.text?
  let culture ← r.optional? "culture" Json.text?
  let neutralLanguage ← r.optional? "neutral_language" Json.text?
  let guid ← r.optional? "guid" Json.text?
  let visible ← r.withDefault? "visible" false Json.bool?
  return ⟨name, title, description, configuration, product, version, fileVersion, company,
    copyright, trademark, culture, neutralLanguage, guid, visible⟩

/-- The record of metadata; every field is written. -/
def toJson (m : Metadata) : Json :=
  .object [
    ("name", .text m.name),
    ("title", Json.ofOption .text m.title),
    ("description", Json.ofOption .text m.description),
    ("configuration", Json.ofOption .text m.configuration),
    ("product", Json.ofOption .text m.product),
    ("version", Json.ofOption .text m.version),
    ("file_version", Json.ofOption .text m.fileVersion),
    ("company", Json.ofOption .text m.company),
    ("copyright", Json.ofOption .text m.copyright),
    ("trademark", Json.ofOption .text m.trademark),
    ("culture", Json.ofOption .text m.culture),
    ("neutral_language", Json.ofOption .text m.neutralLanguage),
    ("guid", Json.ofOption .text m.guid),
    ("visible", .bool m.visible)]

end FluentWrappers.Metadata
