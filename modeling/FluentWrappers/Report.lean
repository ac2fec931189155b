import FluentWrappers.Json.Value
import FluentWrappers.Machine.Error
import FluentWrappers.Synthesis.Error

/-!
# Reports of failures (`SPEC_FULL.md`, 7)

A failure as a JSON object for programs that react to it: the kind of its cause, its text, and what
else belongs to the kind.
-/

namespace FluentWrappers

def failureReport (kind message : String) (more : List (String × Json)) : Json :=
  .object ([("error", .text kind), ("message", .text message)] ++ more)

namespace Binary.DecodeError

def kind : DecodeError → String
  | .unexpectedEnd _ => "UnexpectedEnd"
  | .invalidUtf8 _ => "InvalidUtf8"
  | .invalidOpcode _ _ => "InvalidOpcode"
  | .invalidTag _ _ _ => "InvalidTag"

def report (e : DecodeError) : Json := failureReport e.kind e.message []

end Binary.DecodeError

namespace ArtifactError

def kind : ArtifactError → String
  | .decode _ => "DecodeError"
  | .invalidMark _ => "InvalidMagic"
  | .unsupportedVersion _ => "UnsupportedVersion"
  | .checksumMismatch _ _ => "ChecksumMismatch"
  | .hashMismatch => "HashMismatch"
  | .trailingBytes _ => "TrailingBytes"

/-- The report of a file's fault, with the kind of the failed read behind it. -/
def report (e : ArtifactError) : Json :=
  let cause := match e with
    | .decode cause => [("cause", Json.text cause.kind)]
    | _ => []
  failureReport e.kind e.message cause

end ArtifactError

def BodyFault.kind : BodyFault → String
  | .invalidOpcode _ _ => "InvalidOpcode"
  | .undecodable _ => "DecodeError"
  | .bodyMismatch => "BodyMismatch"
  | .fallOffEnd => "FallOffEnd"
  | .badReturn _ _ => "BadReturn"
  | .stackUnderflow _ => "StackUnderflow"
  | .stackOverflow _ _ => "StackOverflow"
  | .invalidMemberRef _ _ => "InvalidMemberRef"
  | .invalidArgRef _ _ _ => "InvalidArgRef"

namespace VerifyError

def kind : VerifyError → String
  | .header _ => "ArtifactValidation"
  | .duplicateType _ => "DuplicateType"
  | .unresolvedMember _ _ => "UnresolvedMember"
  | .invalidEnum _ => "InvalidEnum"
  | .unresolvedInterface _ _ => "UnresolvedInterface"
  | .missingImplementation _ _ _ => "MissingImplementation"
  | .unresolvedOverride _ _ _ => "UnresolvedOverride"
  | .foreignReference _ _ => "ForeignReference"
  | .body _ fault => fault.kind

def report (e : VerifyError) : Json := failureReport e.kind e.message []

end VerifyError

namespace Machine.RunError

def kind : RunError → String
  | .artifact _ => "Artifact"
  | .verify _ => "Verify"
  | .decode _ => "Decode"
  | .unknownType _ => "UnknownType"
  | .notInstantiable _ => "NotInstantiable"
  | .methodNotFound _ _ _ => "MethodNotFound"
  | .fieldNotFound _ _ => "FieldNotFound"
  | .propertyNotFound _ _ => "PropertyNotFound"
  | .accessorMissing _ _ => "AccessorMissing"
  | .nullReference => "NullReference"
  | .abstractMethod _ _ => "TypeError"
  | .stackUnderflow => "StackUnderflow"
  | .callDepthExceeded _ => "CallDepthExceeded"
  | .invalidOperand _ => "InvalidOperand"

def report (e : RunError) : Json :=
  let cause := match e with
    | .verify cause => [("cause", Json.text cause.kind)]
    | .decode cause => [("cause", Json.text cause.kind)]
    | _ => []
  failureReport e.kind e.message cause

end Machine.RunError

namespace Synthesis.SynthesisError

def kind : SynthesisError → String
  | .configuration _ => "Configuration"
  | .concurrentBuild => "ConcurrentBuild"
  | .dereference _ _ _ _ => "Dereference"
  | .artifactExists _ => "ArtifactExists"
  | .artifactWrite _ _ => "ArtifactWrite"
  | .emptyResult _ => "EmptyResult"
  | .unknownType _ => "UnknownType"
  | .cancelled => "Cancelled"
  | .waitTimeout _ => "WaitTimeout"
  | .dependencyFailed _ _ => "DependencyFailed"
  | .lowering _ => "Lowering"
  | .nestingExhausted => "NestingExhausted"

/-- The report of a failed synthesis or build. A path that cannot be written and a key that was
waited for stand in the place of the text. -/
def report (e : SynthesisError) : Json :=
  let told := match e with
    | .artifactWrite path _ => ("path", Json.text path)
    | .waitTimeout key => ("name", Json.text key)
    | e => ("message", Json.text e.message)
  .object [("error", .text e.kind), told, ("build_level", .bool e.isBuildLevel)]

end Synthesis.SynthesisError

end FluentWrappers
