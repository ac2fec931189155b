import FluentWrappers.Synthesis.Error
import FluentWrappers.Synthesis.Type

/-!
# The type cache (`SPEC_FULL.md`, 4.6)

Every type is made through a cache that binds each key once. The first caller of a key claims a slot
and makes the type; others wait for that slot. A complete slot is never bound again. A failed slot
gives its key free, and those who waited for it learn the reason.

Each operation here is one atomic step; callers on different threads interleave them in any order.
-/

namespace FluentWrappers.Synthesis

/-- What is made and under which canonical name. -/
structure CacheKey where
  kind : ProductKind
  name : String
  deriving DecidableEq, Repr, Inhabited

def CacheKey.text (k : CacheKey) : String := s!"{k.kind.label} {k.name}"

/-- A type that was made, with its place in the order of completion. -/
structure Completed where
  serial : Nat
  type : SynthesizedType
  deriving DecidableEq, Repr

/-- The state of an attempt to make a type. -/
inductive SlotState where
  /-- The caller of the number is making the type. -/
  | inProgress (owner : Nat)
  /-- The attempt ended with a type or with the answer that there is none. -/
  | complete (result : Option Completed)
  | failed (reason : String)
  deriving DecidableEq, Repr

/-- All attempts so far, the one that each key is bound to, and the completed types in order. -/
structure Cache where
  slots : List SlotState
  bindings : List (CacheKey × Nat)
  types : List SynthesizedType
  cancelled : Bool
  waitTimeoutMs : UInt64
  deriving DecidableEq, Repr

/-- How a caller's attempt ended. -/
inductive Outcome where
  | produced (type : Option SynthesizedType)
  | failed (error : SynthesisError)
  /-- The caller was torn down before it came to an end. -/
  | unwound
  deriving DecidableEq, Repr

inductive Answer where
  | found (result : Option Completed)
  | failed (error : SynthesisError)
  | unwound
  deriving DecidableEq, Repr

/-- What a caller who did not claim a slot sees. -/
inductive Look where
  | answer (a : Answer)
  /-- Another caller is still at work. -/
  | wait
  deriving DecidableEq, Repr

namespace Cache

def empty (waitTimeoutMs : UInt64) : Cache := ⟨[], [], [], false, waitTimeoutMs⟩

def slotOf? (c : Cache) (key : CacheKey) : Option Nat := c.bindings.lookup key

def stateOf? (c : Cache) (key : CacheKey) : Option SlotState :=
  (c.slotOf? key).bind (c.slots[·]?)

def contains (c : Cache) (key : CacheKey) : Bool := (c.slotOf? key).isSome

def get? (c : Cache) (key : CacheKey) : Option Completed :=
  match c.stateOf? key with
  | some (.complete result) => result
  | _ => none

/-- The reason for which a caller does not wait for itself. -/
def reentryReason : String := "re-entered while its synthesis is in progress"

/-- The reason that others learn if a caller was torn down. -/
def unwoundReason : String := "producer did not finish"

/-! ### Steps -/

/-- Claims a key for a caller: the slot and whether it is a new one of the caller (4.6). -/
def claim (c : Cache) (caller : Nat) (key : CacheKey) : Cache × Nat × Bool :=
  match c.slotOf? key with
  | some slot => (c, slot, false)
  | none =>
    let slot := c.slots.length
    ({ c with
        slots := c.slots ++ [.inProgress caller]
        bindings := c.bindings ++ [(key, slot)] }, slot, true)

/-- Ends an attempt with a type or with the answer that there is none. -/
def publish (c : Cache) (slot : Nat) (type : Option SynthesizedType) :
    Cache × Option Completed :=
  let result := type.map fun t => ⟨c.types.length, t⟩
  ({ c with
      slots := c.slots.set slot (.complete result)
      types := c.types ++ type.toList }, result)

/-- Ends an attempt with a failure and gives its key free. -/
def release (c : Cache) (key : CacheKey) (slot : Nat) (reason : String) : Cache :=
  { c with
    slots := c.slots.set slot (.failed reason)
    bindings := c.bindings.filter (· != (key, slot)) }

/-- Cancels: from now on nobody waits (5). -/
def cancel (c : Cache) : Cache := { c with cancelled := true }

/-- What a caller sees of a slot that it did not claim; never a type that is still being made (4.6). -/
def look (c : Cache) (caller : Nat) (key : CacheKey) (slot : Nat) : Look :=
  match c.slots[slot]? with
  | some (.complete result) => .answer (.found result)
  | some (.failed reason) => .answer (.failed (.dependencyFailed key.text reason))
  | some (.inProgress owner) =>
    if owner = caller then .answer (.failed (.dependencyFailed key.text reentryReason))
    else if c.cancelled then .answer (.failed .cancelled)
    else .wait
  | none => .wait

def timeout (key : CacheKey) : Answer := .failed (.waitTimeout key.text)

/-- Ends the attempt of a slot as its caller did. -/
def settle (c : Cache) (key : CacheKey) (slot : Nat) : Outcome → Cache × Answer
  | .produced type =>
    let (c, result) := c.publish slot type
    (c, .found result)
  | .failed error => (c.release key slot error.message, .failed error)
  | .unwound => (c.release key slot unwoundReason, .unwound)

/-- The whole of one caller's request. Between its own steps nobody else acts, so a slot that another
caller holds is waited for in vain. -/
def getOrCreate {m : Type → Type} [Monad m] [MonadStateOf Cache m] (caller : Nat) (key : CacheKey)
    (produce : m Outcome) : m Answer := do
  let (slot, isNew) ← modifyGet fun c : Cache =>
    let (c, slot, isNew) := c.claim caller key
    ((slot, isNew), c)
  if isNew then
    let outcome ← produce
    modifyGet fun c : Cache => (c.settle key slot outcome).swap
  else
    match (← getThe Cache).look caller key slot with
    | .answer a => return a
    | .wait => return timeout key

end Cache

end FluentWrappers.Synthesis
