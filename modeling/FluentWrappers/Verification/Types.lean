import FluentWrappers.Verification.Body

/-!
# Checking artifacts (`SPEC_FULL.md`, 10.7, verifier)

An artifact is sound if its header is right, its type names are distinct, its member references
resolve, and every type has what its kind asks for: an integral primitive under an enumeration,
implementations for listed interfaces, no foreign names in a standalone artifact, sound bodies.
-/

namespace FluentWrappers

/-- Why an artifact is not sound. -/
inductive VerifyError where
  | header (fault : HeaderFault)
  | duplicateType (name : String)
  | unresolvedMember (owner name : String)
  | invalidEnum (name : String)
  | unresolvedInterface (type interface : String)
  | missingImplementation (type interface method : String)
  | unresolvedOverride (method interface target : String)
  | foreignReference (owner name : String)
  | body (method : String) (fault : BodyFault)
  deriving DecidableEq, Repr

def VerifyError.message : VerifyError → String
  | .header fault => s!"Artifact validation error: {fault.message}"
  | .duplicateType name => s!"Duplicate type definition: {name}"
  | .unresolvedMember owner name => s!"Unresolved member reference {owner}::{name}"
  | .invalidEnum name => s!"Enum {name} has no integral underlying type"
  | .unresolvedInterface type interface =>
    s!"Type {type} implements unresolved interface {interface}"
  | .missingImplementation type interface method =>
    s!"Type {type} does not implement {interface}::{method}"
  | .unresolvedOverride method interface target =>
    s!"Method {method} overrides unknown {interface}::{target}"
  | .foreignReference owner name =>
    s!"Standalone artifact references foreign type {name} from {owner}"
  | .body method fault => fault.message method

/-- The first name that an earlier name of the list equals. -/
def firstRepeated? (seen : List String) : List String → Option String
  | [] => none
  | name :: rest => if seen.contains name then some name else firstRepeated? (name :: seen) rest

namespace Artifact

/-- A reference must name a member of a type of the artifact, the root constructor excepted. -/
def checkMemberRef (a : Artifact) (m : MemberReference) : Except VerifyError Unit :=
  if m.isRootConstructor then .ok ()
  else
    match a.findType? m.owner with
    | none => .error (.unresolvedMember m.owner m.name)
    | some owner =>
      let found := match m.kind with
        | .field => (owner.findField? m.name).isSome
        | .method => match owner.findMethod? m.name m.paramCount.toNat with
          | some found => found.isStatic == m.isStatic && found.returnsValue == m.returnsValue
          | none => false
      if found then .ok () else .error (.unresolvedMember m.owner m.name)

/-- A listed interface must be one, and a type that is none must implement its abstract methods (10.7). -/
def checkInterface (a : Artifact) (t : TypeDefinition) (name : String) : Except VerifyError Unit :=
  match a.findType? name with
  | none => .error (.unresolvedInterface t.name name)
  | some interface =>
    if interface.kind ≠ .interface then .error (.unresolvedInterface t.name name)
    else if t.kind = .interface then .ok ()
    else
      match interface.methods.find? fun m =>
        m.isAbstract && (t.findImplementation? name m.name).isNone with
      | some missing => .error (.missingImplementation t.name name missing.name)
      | none => .ok ()

/-- Whether a binding of a method with a number of parameters names an abstract method of a listed
interface. -/
def bindingResolves (a : Artifact) (t : TypeDefinition) (b : MethodBinding) (arity : Nat) : Bool :=
  t.interfaces.contains b.interface &&
    match (a.findType? b.interface).bind (·.findMethod? b.method arity) with
    | some target => target.isAbstract
    | none => false

/-- The binding of a method, if it has one, must resolve (10.7: every override binding). -/
def checkBinding (a : Artifact) (t : TypeDefinition) (m : Method) : Except VerifyError Unit :=
  match m.binding with
  | none => .ok ()
  | some b =>
    if a.bindingResolves t b m.arity then .ok ()
    else .error (.unresolvedOverride s!"{t.name}::{m.name}" b.interface b.method)

/-- Checks the listed interfaces of a type and then the bindings of its methods. -/
def checkInterfaces (a : Artifact) (t : TypeDefinition) : Except VerifyError Unit := do
  t.interfaces.forM (a.checkInterface t)
  t.methods.forM (a.checkBinding t)

end Artifact

namespace TypeDefinition

/-- The signatures of a type: those of fields, of properties, and of methods with the result after
the parameters. -/
def signatures (t : TypeDefinition) : List Signature :=
  t.fields.map (·.type) ++ t.properties.map (·.type) ++
    t.methods.flatMap fun m => m.params.map (·.type) ++ [m.returns]

/-- Whether an enumeration has an integral primitive under it. -/
def hasIntegralUnderlying (t : TypeDefinition) : Bool :=
  match t.underlying with
  | some p => p.isIntegral
  | none => false

/-- The names that a type refers to: those in its signatures and its base, the root excepted. -/
def referredNames (t : TypeDefinition) : List String :=
  t.signatures.flatMap Signature.names ++ t.base.toList.filter (· != rootObject)

end TypeDefinition

namespace Artifact

def checkStandalone (a : Artifact) (t : TypeDefinition) : Except VerifyError Unit :=
  match t.referredNames.find? fun name => !a.resolves name with
  | some foreign => .error (.foreignReference t.name foreign)
  | none => .ok ()

def checkMethod (a : Artifact) (t : TypeDefinition) (m : Method) : Except VerifyError Unit :=
  match m.checkBody a.memberRefs with
  | .ok () => .ok ()
  | .error fault => .error (.body s!"{t.name}::{m.name}" fault)

def checkType (a : Artifact) (t : TypeDefinition) : Except VerifyError Unit := do
  if t.kind = .enumeration ∧ t.hasIntegralUnderlying = false then throw (.invalidEnum t.name)
  a.checkInterfaces t
  if hasFlag a.flags ArtifactFlag.standalone then a.checkStandalone t
  t.methods.forM (a.checkMethod t)

/-- Checks a whole artifact. -/
def verify (a : Artifact) : Except VerifyError Unit := do
  if let some fault := a.headerFault? then throw (.header fault)
  if let some name := firstRepeated? [] (a.types.map (·.name)) then throw (.duplicateType name)
  a.memberRefs.forM a.checkMemberRef
  a.types.forM a.checkType

end Artifact

end FluentWrappers
