import FluentWrappers.Synthesis.Shape

/-!
# Synthesis (`SPEC_FULL.md`, 4.2 to 4.6 and 10.6)

For a source type synthesis makes an interface, a proxy and a fluent wrapper. Member types are made
independent of the source on the way: primitives, text and objects stay, enumerations and structs are
cloned, other types give way to their interfaces, arrays and registered generic types are rebuilt.

All of it is defined once, for any way in which the types of keys are had. The calls from outside have
them from the cache of the session. A session can be cancelled from elsewhere while types are being made,
and a call finds out where it next asks for the type of a key, be it its first or one far down in nested
productions: a cancellation that can come at any of these places is another way to have them.
-/

namespace FluentWrappers.Synthesis

structure Wrappers where
  interface : SynthesizedType
  proxy : SynthesizedType
  fluent : SynthesizedType
  deriving DecidableEq, Repr

def noMembers (source : SourceType) : SynthesisError :=
  .dependencyFailed source.canonical "no eligible members"

abbrev MemberResolver := SourceType → Synth (Option (List Member))

namespace Synthesizer

/-! ### Single types -/

section

variable (s : Synthesizer) (memo : Memo) (members : MemberResolver)

/-- The interface of a source type; none if the source has no eligible members (4.2). -/
def interfaceVia (source : SourceType) : Synth (Option SynthesizedType) :=
  let name := interfaceName s.options source.name
  memo ⟨.interface, name.canonical⟩ do
    match ← members source with
    | none => return none
    | some members => return some (interfaceType name source members)

/-- The proxy of a source type, bound to an interface if one is given; none if the source has no
eligible members (4.3). -/
def proxyVia (source : SourceType) (interface : Option TypeName) : Synth (Option SynthesizedType) :=
  let name := proxyName s.options source.name
  memo ⟨.proxy, name.canonical⟩ do
    match ← members source with
    | none => return none
    | some members => return some (← proxyType name source members interface)

/-- The fluent wrapper of a proxy; none if the proxy has no members (4.5). -/
def fluentVia (proxy interface : SynthesizedType) (options : TypeOptions) :
    Synth (Option SynthesizedType) :=
  let name := fluentName s.options proxy.name
  memo ⟨.fluent, name.canonical⟩ do
    if proxy.members.isEmpty then return none
    else
      let context := ⟨name, interface.name, proxy.name, s.options.objectProperty⟩
      return some (← fluentType context proxy options)

/-- The interface, proxy and fluent wrapper of a source type, none if it has no eligible members (4.7). -/
def synthesizeWith (source : SourceType) : Synth (Option Wrappers) := do
  match ← s.interfaceVia memo members source with
  | none => return none
  | some interface =>
    match ← s.proxyVia memo members source (some interface.name) with
    | none => return none
    | some proxy =>
      match ← s.fluentVia memo proxy interface source.options with
      | none => return none
      | some fluent => return some ⟨interface, proxy, fluent⟩

/-! ### Member types -/

/-- The name of a source type's interface, which is made unless it is being made (10.6, cycle
breaking). -/
def ensureInterfaceVia (source : SourceType) : Synth TypeName := do
  let name := interfaceName s.options source.name
  if ← inScope ⟨.interface, name.canonical⟩ then return name
  else
    match ← s.interfaceVia memo members source with
    | some interface => return interface.name
    | none => throw (noMembers source)

/-- Makes the proxy of a source type unless it is being made. -/
def ensureProxyVia (source : SourceType) (interface : TypeName) : Synth Unit := do
  let name := proxyName s.options source.name
  if ← inScope ⟨.proxy, name.canonical⟩ then return ()
  else
    let _ ← s.proxyVia memo members source (some interface)

/-- The reference to a clone, which must have been made. -/
def cloneReference (source : SourceType) : Option SynthesizedType → Synth TypeRef
  | some clone => return clone.handle
  | none => throw (noMembers source)

/-- The clone of an enumeration (10.6). -/
def cloneEnumVia (source : SourceType) (underlying : Primitive) (literals : List Literal) :
    Synth TypeRef := do
  let clone ← memo ⟨.enumClone, source.canonical⟩ do
    return some (enumType source underlying literals)
  cloneReference source clone

/-- The clone of a struct, made after its interface and proxy unless it is being made (10.6). -/
def cloneStructVia (source : SourceType) : Synth TypeRef := do
  let interface ← s.ensureInterfaceVia memo members source
  s.ensureProxyVia memo members source interface
  let key : CacheKey := ⟨.structClone, source.canonical⟩
  if ← inScope key then return .synthesized source.name
  else
    let clone ← memo key do
      match ← members source with
      | none => return none
      | some members => return some (← structType source members)
    cloneReference source clone

def referenceInterfaceVia (source : SourceType) : Synth TypeRef := do
  let interface ← s.ensureInterfaceVia memo members source
  s.ensureProxyVia memo members source interface
  return .synthesized interface

/-- What stands for a type of the catalog, with the members of further types resolved as given. -/
def replaceNamedVia (name : TypeName) : Synth TypeRef := do
  let source ← s.catalog.require name
  match source.kind with
  | .enumeration underlying literals => cloneEnumVia memo source underlying literals
  | kind =>
    if source.isRuntime then return .named name
    else if kind = .struct then s.cloneStructVia memo members source
    else s.referenceInterfaceVia memo members source

end

mutual
/-- What stands for a type, given what stands for types of the catalog (the table of 4.4). -/
def replaceType (s : Synthesizer) (named : TypeName → Synth TypeRef) : TypeRef → Synth TypeRef
  | .named name => named name
  | .array element => return .array (← s.replaceType named element)
  | .generic definition args =>
    if s.catalog.isRuntimeGeneric definition then
      return .generic definition (← s.replaceTypes named args)
    else throw (.unknownType definition.canonical)
  | .primitive p => return .primitive p
  | .string => return .string
  | .object => return .object
  | .synthesized name => return .synthesized name

def replaceTypes (s : Synthesizer) (named : TypeName → Synth TypeRef) :
    List TypeRef → Synth (List TypeRef)
  | [] => return []
  | t :: rest => do
    let first ← s.replaceType named t
    let others ← s.replaceTypes named rest
    return first :: others
end

/-- The number of types that can be under way at once: an interface, a proxy and a clone for each
source type and for one outside the catalog. -/
def nestingBound (s : Synthesizer) : Nat := 3 * s.catalog.types.length + 4

section

variable (s : Synthesizer) (memo : Memo) (bottom : TypeName → Synth TypeRef)

/-- What stands for a type of the catalog, with no more than `fuel` types under way. Where there would be
more, it is what the bottom says. -/
def dereferenceNamedOver : Nat → TypeName → Synth TypeRef
  | 0 => bottom
  | fuel + 1 => s.replaceNamedVia memo (s.resolveMembers (s.replaceType (dereferenceNamedOver fuel)))

def dereferenceOver (type : TypeRef) : Synth TypeRef :=
  s.replaceType (s.dereferenceNamedOver memo bottom s.nestingBound) type

def membersOver : MemberResolver := s.resolveMembers (s.dereferenceOver memo bottom)

def synthesizeOver (source : SourceType) : Synth (Option Wrappers) :=
  s.synthesizeWith memo (s.membersOver memo bottom) source

end

/-! ### Calls through a memo -/

/-- The bottom that no call comes to. -/
def nestingExhausted (_ : TypeName) : Synth TypeRef := throw .nestingExhausted

section

variable (s : Synthesizer) (memo : Memo)

def dereferenceNamedVia : Nat → TypeName → Synth TypeRef :=
  s.dereferenceNamedOver memo nestingExhausted

def dereferenceVia (type : TypeRef) : Synth TypeRef := s.dereferenceOver memo nestingExhausted type

def membersVia : MemberResolver := s.membersOver memo nestingExhausted

def synthesizeVia (source : SourceType) : Synth (Option Wrappers) :=
  s.synthesizeOver memo nestingExhausted source

end

/-! ### Calls from outside -/

section

variable (s : Synthesizer)

def dereference (type : TypeRef) : Synth TypeRef := s.dereferenceVia memoize type

def members : MemberResolver := s.membersVia memoize

def interface (source : SourceType) : Synth (Option SynthesizedType) :=
  s.interfaceVia memoize s.members source

def proxy (source : SourceType) (interface : Option TypeName) : Synth (Option SynthesizedType) :=
  s.proxyVia memoize s.members source interface

def fluent (proxy interface : SynthesizedType) (options : TypeOptions) :
    Synth (Option SynthesizedType) :=
  s.fluentVia memoize proxy interface options

def synthesize (source : SourceType) : Synth (Option Wrappers) := s.synthesizeVia memoize source

end

def run {α : Type} (session : Session) (step : Synth α) : Except SynthesisError α × Session :=
  let (result, progress) := step ⟨session, []⟩
  (result, progress.session)

end Synthesizer

/-! ### Cancelled synthesis -/

/-- Whether the session has been cancelled by the time a progress asks for the type of a key. -/
abbrev Interruption := CacheKey → Progress → Bool

/-- The type of a key as ever, after a cancellation that may have come. -/
def memoizeAmid (interruption : Interruption) : Memo := fun key produce => do
  modifyThe Progress fun p =>
    if interruption key p then { p with session := p.session.cancel } else p
  memoize key produce

/-! ### Kinds of calls -/

/-- A call of synthesis. -/
inductive Call where
  | synthesize (source : SourceType)
  | interface (source : SourceType)
  | proxy (source : SourceType) (interface : Option TypeName)
  | fluent (proxy interface : SynthesizedType) (options : TypeOptions)
  | dereference (type : TypeRef)

/-- The progress after a call that has the types of keys in some way, however the call ended. -/
def Call.afterVia (memo : Memo) (s : Synthesizer) (p : Progress) : Call → Progress
  | synthesize source => (s.synthesizeVia memo source p).2
  | interface source => (s.interfaceVia memo (s.membersVia memo) source p).2
  | proxy source bound => (s.proxyVia memo (s.membersVia memo) source bound p).2
  | fluent wrapped shown options => (s.fluentVia memo wrapped shown options p).2
  | dereference type => (s.dereferenceVia memo type p).2

/-- The progress after a call, however the call ended. -/
def Call.after (s : Synthesizer) (p : Progress) (call : Call) : Progress :=
  call.afterVia memoize s p

end FluentWrappers.Synthesis
