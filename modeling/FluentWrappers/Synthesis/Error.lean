import FluentWrappers.Synthesis.Body
import FluentWrappers.Text.Basic
import FluentWrappers.Verification.Types

/-!
# Faults of synthesis and builds (`SPEC_FULL.md`, 7 and 10.2, `SynthesisError`)

Every way in which a synthesis or a build can fail, with its text.
-/

namespace FluentWrappers.Synthesis

inductive ConfigurationFault where
  | accessorNameEmpty (given : String)
  | affixesEmpty
  | samePrefixes (common : String)
  | timeoutZero
  | typeRegisteredTwice (type : String)
  | memberDeclaredTwice (member type : String)
  | inheritanceCycle (type : String)
  | methodDeclaredTwice (type method : String) (arity : Nat)
  | noTypesSelected
  | errorHandlerRegistered
  | deleteHandlerRegistered
  | planNotExecuted
  deriving DecidableEq, Repr

def ConfigurationFault.message : ConfigurationFault → String
  | .accessorNameEmpty given =>
    s!"wrapped-object accessor name {Text.quoted given} is empty after sanitisation"
  | .affixesEmpty => "interface prefix and proxy suffix cannot both be empty"
  | .samePrefixes common => s!"interface and fluent prefixes are both {Text.quoted common}"
  | .timeoutZero => "wait timeout must be positive"
  | .typeRegisteredTwice type => s!"type {type} is registered twice"
  | .memberDeclaredTwice member type => s!"member {member} is declared twice in {type}"
  | .inheritanceCycle type => s!"inheritance cycle through {type}"
  | .methodDeclaredTwice type method arity => s!"{type} would declare {method}/{arity} twice"
  | .noTypesSelected => "no types selected"
  | .errorHandlerRegistered => "error handler already registered"
  | .deleteHandlerRegistered => "delete error handler already registered"
  | .planNotExecuted => "plan has not been executed"

inductive LoweringFault where
  | body (fault : BuildFault)
  | emittedTwice (type : String)
  | bodyMismatch (type method : String)
  | unsound (cause : VerifyError)
  /-- A fault that a producer states in words of its own. -/
  | stated (text : String)
  deriving DecidableEq, Repr

def LoweringFault.message : LoweringFault → String
  | .body fault => fault.message
  | .emittedTwice type => s!"type {type} is emitted twice"
  | .bodyMismatch type method => s!"{type}::{method} has a body that does not match its kind"
  | .unsound cause => cause.message
  | .stated text => text

inductive SynthesisError where
  | configuration (fault : ConfigurationFault)
  | concurrentBuild
  | dereference (owner member type reason : String)
  | artifactExists (path : String)
  | artifactWrite (path reason : String)
  | emptyResult (requested : Nat)
  | unknownType (name : String)
  | cancelled
  | waitTimeout (key : String)
  | dependencyFailed (name reason : String)
  | lowering (fault : LoweringFault)
  /-- More productions are nested than there are keys; the bound on nesting rules it out. -/
  | nestingExhausted
  deriving DecidableEq, Repr

namespace SynthesisError

def message : SynthesisError → String
  | configuration fault => s!"Configuration error: {fault.message}"
  | concurrentBuild => "A build is already in progress"
  | dereference owner member type reason =>
    s!"Cannot dereference member {owner}.{member} of type {type}: {reason}"
  | artifactExists path => s!"Artifact already exists: {path}"
  | artifactWrite path reason => s!"Cannot write artifact {path}: {reason}"
  | emptyResult requested => s!"No type was produced ({requested} requested)"
  | unknownType name => s!"Unknown type: {name}"
  | cancelled => "Build cancelled"
  | waitTimeout key => s!"Timed out waiting for {key}"
  | dependencyFailed name reason => s!"Synthesis of {name} failed: {reason}"
  | lowering fault => s!"Lowering failed: {fault.message}"
  | nestingExhausted => "Nesting exhausted"

/-- Whether a build reports the failure as its own and not as that of one type. -/
def isBuildLevel : SynthesisError → Bool
  | configuration _ | concurrentBuild | artifactExists _ | artifactWrite _ _ | emptyResult _
  | lowering _ => true
  | _ => false

end SynthesisError

end FluentWrappers.Synthesis
