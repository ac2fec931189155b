import FluentWrappers.Json.Record
import FluentWrappers.Synthesis.Error
import FluentWrappers.Text.Unicode

/-!
# Options of an engine (`SPEC_FULL.md`, 10.3, `EngineOptions`)

Options choose the names of synthesized types, how member types are treated, and where artifacts go.
Names are sanitised: only word characters stay, and digits at the start are dropped.
-/

namespace FluentWrappers

open Synthesis (SynthesisError ConfigurationFault)

def sanitizeName (name : String) : String :=
  String.ofList ((name.toList.filter Text.isWordChar).dropWhile Char.isDigit)

structure EngineOptions where
  interfacePrefix : String := "I"
  proxySuffix : String := "Proxy"
  fluentPrefix : String := "Fluent"
  /-- The name of the property through which a fluent wrapper shows what it wraps. -/
  objectProperty : String := "Object"
  dereference : Bool := true
  failFast : Bool := true
  overwrite : Bool := false
  appendHash : Bool := true
  outputDir : Option String := none
  waitTimeoutMs : UInt64 := 30000
  deriving DecidableEq, Repr

instance : Inhabited EngineOptions := ⟨{}⟩

namespace EngineOptions

/-! ### Changing options -/

def withInterfacePrefix (o : EngineOptions) (name : String) : EngineOptions :=
  { o with interfacePrefix := sanitizeName name }

def withProxySuffix (o : EngineOptions) (name : String) : EngineOptions :=
  { o with proxySuffix := sanitizeName name }

def withFluentPrefix (o : EngineOptions) (name : String) : EngineOptions :=
  { o with fluentPrefix := sanitizeName name }

def withObjectProperty (o : EngineOptions) (name : String) : EngineOptions :=
  { o with objectProperty := sanitizeName name }

/-- The options with another wait; one that sixty-four bits cannot hold is the longest. -/
def withWaitTimeout (o : EngineOptions) (milliseconds : Nat) : EngineOptions :=
  { o with waitTimeoutMs := UInt64.ofNat (min milliseconds 0xffffffffffffffff) }

/-! ### Validation -/

def sanitized (o : EngineOptions) : EngineOptions :=
  { o with
    interfacePrefix := sanitizeName o.interfacePrefix
    proxySuffix := sanitizeName o.proxySuffix
    fluentPrefix := sanitizeName o.fluentPrefix
    objectProperty := sanitizeName o.objectProperty }

/-- What is wrong with options whose names are sanitised, given the accessor name before that
(`validate`, 10.3). -/
def fault? (o : EngineOptions) (givenAccessor : String) : Option ConfigurationFault :=
  if o.objectProperty.isEmpty then some (.accessorNameEmpty givenAccessor)
  else if o.interfacePrefix.isEmpty && o.proxySuffix.isEmpty then some .affixesEmpty
  else if o.interfacePrefix = o.fluentPrefix then some (.samePrefixes o.interfacePrefix)
  else if o.waitTimeoutMs = 0 then some .timeoutZero
  else none

def validate (o : EngineOptions) : Except SynthesisError EngineOptions :=
  match o.sanitized.fault? o.objectProperty with
  | some fault => .error (.configuration fault)
  | none => .ok o.sanitized

/-! ### Options as JSON -/

def fieldNames : List String :=
  ["interface_prefix", "proxy_suffix", "fluent_prefix", "object_property", "dereference",
    "fail_fast", "overwrite", "append_hash", "output_dir", "wait_timeout_ms"]

/-- The options of a record; every field has a default. -/
def ofJson? (j : Json) : Option EngineOptions := do
  let standard : EngineOptions := {}
  let r ← j.record? fieldNames
  let interfacePrefix ← r.withDefault? "interface_prefix" standard.interfacePrefix Json.text?
  let proxySuffix ← r.withDefault? "proxy_suffix" standard.proxySuffix Json.text?
  let fluentPrefix ← r.withDefault? "fluent_prefix" standard.fluentPrefix Json.text?
  let objectProperty ← r.withDefault? "object_property" standard.objectProperty Json.text?
  let dereference ← r.withDefault? "dereference" standard.dereference Json.bool?
  let failFast ← r.withDefault? "fail_fast" standard.failFast Json.bool?
  let overwrite ← r.withDefault? "overwrite" standard.overwrite Json.bool?
  let appendHash ← r.withDefault? "append_hash" standard.appendHash Json.bool?
  let outputDir ← r.optional? "output_dir" Json.text?
  let waitTimeoutMs ← r.withDefault? "wait_timeout_ms" standard.waitTimeoutMs fun j =>
    (j.nat? 0x10000000000000000).map UInt64.ofNat
  return { interfacePrefix, proxySuffix, fluentPrefix, objectProperty, dereference, failFast,
           overwrite, appendHash, outputDir, waitTimeoutMs }

/-- The record of options; every field is written. -/
def toJson (o : EngineOptions) : Json :=
  .object [
    ("interface_prefix", .text o.interfacePrefix),
    ("proxy_suffix", .text o.proxySuffix),
    ("fluent_prefix", .text o.fluentPrefix),
    ("object_property", .text o.objectProperty),
    ("dereference", .bool o.dereference),
    ("fail_fast", .bool o.failFast),
    ("overwrite", .bool o.overwrite),
    ("append_hash", .bool o.appendHash),
    ("output_dir", Json.ofOption .text o.outputDir),
    ("wait_timeout_ms", .int o.waitTimeoutMs.toNat)]

end EngineOptions

end FluentWrappers
