import FluentWrappers.Verification.Types

/-!
# Faults of a running artifact (`SPEC_FULL.md`, 10.2, `VmError`)

Why an artifact cannot be loaded or a run cannot go on.
-/

namespace FluentWrappers.Machine

/-- The two accessors of a property. -/
inductive Accessor where
  | getter
  | setter
  deriving DecidableEq, Repr

def Accessor.text : Accessor → String
  | .getter => "getter"
  | .setter => "setter"

inductive RunError where
  | artifact (cause : ArtifactError)
  | verify (cause : VerifyError)
  | decode (cause : Binary.DecodeError)
  | unknownType (name : String)
  | notInstantiable (name : String)
  | methodNotFound (type method : String) (arity : Nat)
  | fieldNotFound (type field : String)
  | propertyNotFound (type property : String)
  | accessorMissing (property : String) (accessor : Accessor)
  | nullReference
  | abstractMethod (type method : String)
  | stackUnderflow
  | callDepthExceeded (depth : Nat)
  | invalidOperand (index : UInt32)
  deriving DecidableEq, Repr

def RunError.message : RunError → String
  | .artifact cause => s!"Artifact error: {cause.message}"
  | .verify cause => s!"Verification failed: {cause.message}"
  | .decode cause => s!"Decode error: {cause.message}"
  | .unknownType name => s!"Unknown type: {name}"
  | .notInstantiable name => s!"Type {name} cannot be instantiated"
  | .methodNotFound type method arity => s!"Method {type}::{method}/{arity} not found"
  | .fieldNotFound type field => s!"Field {type}::{field} not found"
  | .propertyNotFound type property => s!"Property {type}::{property} not found"
  | .accessorMissing property accessor => s!"Property {property} has no {accessor.text}"
  | .nullReference => "Null reference"
  | .abstractMethod type method =>
    s!"Type error: cannot execute abstract method {type}::{method}"
  | .stackUnderflow => "Stack underflow"
  | .callDepthExceeded depth => s!"Call depth {depth} exceeded"
  | .invalidOperand index => s!"Invalid operand {index}"

end FluentWrappers.Machine
