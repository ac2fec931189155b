import FluentWrappers.Synthesis.Cache

/-!
# Callers on several threads (`SPEC_FULL.md`, 5)

Callers who share a cache: some hold a slot and are still at work, others wait for a slot. A waiter
gets its answer as soon as its slot is settled or the cache is cancelled.
-/

namespace FluentWrappers.Synthesis

/-- A caller at work on a slot that it claimed. -/
structure Holder where
  key : CacheKey
  slot : Nat
  caller : Nat
  deriving DecidableEq, Repr

/-- A caller who waits for a slot, with the answer if it already has one. -/
structure Waiter where
  key : CacheKey
  slot : Nat
  answer : Option Answer
  deriving DecidableEq, Repr

namespace Waiter

/-- What the waiter gets in the end; without an answer its wait lasted too long. -/
def outcome (w : Waiter) : Answer := w.answer.getD (Cache.timeout w.key)

end Waiter

/-- A cache and its callers. Callers are numbered; the number zero is left for one who neither holds
nor waits. -/
structure Callers where
  cache : Cache
  holders : List Holder
  waiters : List Waiter
  nextCaller : Nat
  deriving DecidableEq, Repr

namespace Callers

def start (waitTimeoutMs : UInt64) : Callers := ⟨Cache.empty waitTimeoutMs, [], [], 1⟩

def newCaller (c : Callers) : Nat × Callers := (c.nextCaller, { c with nextCaller := c.nextCaller + 1 })

/-- A waiter after a look at its slot. -/
def Waiter.look (c : Callers) (w : Waiter) : Waiter :=
  match w.answer, c.cache.look c.nextCaller w.key w.slot with
  | none, .answer a => { w with answer := some a }
  | _, _ => w

/-- Lets every waiter look at its slot. -/
def wake (c : Callers) : Callers := { c with waiters := c.waiters.map (Waiter.look c) }

def cancel (c : Callers) : Callers := wake { c with cache := c.cache.cancel }

/-- A new caller claims a key and stays at work. -/
def hold (c : Callers) (key : CacheKey) : Callers :=
  let (caller, c) := c.newCaller
  let (cache, slot, _) := c.cache.claim caller key
  { c with cache, holders := ⟨key, slot, caller⟩ :: c.holders }

def holder? (c : Callers) (key : CacheKey) : Option Holder := c.holders.find? (·.key == key)

def wait (c : Callers) (key : CacheKey) : Callers :=
  match c.cache.slotOf? key with
  | some slot => wake { c with waiters := c.waiters ++ [⟨key, slot, none⟩] }
  | none => c

/-- A holder comes to an end: its answer. -/
def finish (c : Callers) (h : Holder) (outcome : Outcome) : Answer × Callers :=
  let (cache, answer) := c.cache.settle h.key h.slot outcome
  (answer, wake { c with cache, holders := c.holders.filter (· != h) })

def dismiss (c : Callers) (sort : Waiter → Bool) : List Answer × Callers :=
  let (gone, left) := c.waiters.partition sort
  (gone.map Waiter.outcome, { c with waiters := left })

end Callers

instance : MonadStateOf Cache (StateM Callers) where
  get := do return (← getThe Callers).cache
  set cache := modifyThe Callers fun c => { c with cache }
  modifyGet f := modifyGetThe Callers fun c =>
    let (a, cache) := f c.cache
    (a, { c with cache })

end FluentWrappers.Synthesis
