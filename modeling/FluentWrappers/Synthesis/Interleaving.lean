import FluentWrappers.Synthesis.Cache
import Mathlib.Logic.Function.Basic
import Mathlib.Logic.Relation

/-!
# Threads at the cache (`SPEC_FULL.md`, 4.6 and 5)

Any number of threads request types of one cache, also from within the making of another type. Each
step of a request is taken under one lock, and the steps of the threads follow one another in any order.
The end of an attempt takes two of them: a type is listed before its slot is complete, and a failed key
is free before its slot is failed.
-/

namespace FluentWrappers.Synthesis

namespace Cache

variable (c : Cache)

/-- Lists a type and gives it its number. -/
def record (type : Option SynthesizedType) : Cache × Option Completed :=
  ({ c with types := c.types ++ type.toList }, type.map fun t => ⟨c.types.length, t⟩)

def complete (slot : Nat) (result : Option Completed) : Cache :=
  { c with slots := c.slots.set slot (.complete result) }

/-- Gives a key free, if it is still bound to the slot. -/
def unbind (key : CacheKey) (slot : Nat) : Cache :=
  { c with bindings := c.bindings.filter (· != (key, slot)) }

def fail (slot : Nat) (reason : String) : Cache :=
  { c with slots := c.slots.set slot (.failed reason) }

end Cache

/-- A request for a key and the slot that the key was bound to at the time. -/
structure Attempt where
  key : CacheKey
  slot : Nat
  deriving DecidableEq, Repr

/-- How a producer ended without an outcome. -/
inductive Failure where
  | error (error : SynthesisError)
  | unwound
  deriving DecidableEq, Repr

namespace Failure

/-- What those learn who wait for the producer. -/
def reason : Failure → String
  | error e => e.message
  | unwound => Cache.unwoundReason

/-- What the producer's own caller learns. -/
def answer : Failure → Answer
  | error e => .failed e
  | unwound => .unwound

end Failure

/-- Where a thread stands in the cache's code. -/
inductive Activity where
  /-- In no code of the cache: the innermost producer of the thread runs, if there is one. -/
  | running
  /-- At a slot that was claimed before. -/
  | waiting (attempt : Attempt)
  /-- The type is listed, its slot is not complete yet. -/
  | completing (attempt : Attempt) (result : Option Completed)
  /-- The key is free, its slot is not failed yet. -/
  | failing (attempt : Attempt) (failure : Failure)
  deriving DecidableEq, Repr

structure Thread where
  /-- The attempts whose producers run on the thread, the innermost first. -/
  productions : List Attempt
  activity : Activity
  deriving DecidableEq, Repr

/-- The cache and its threads, with the history of all that was done. -/
structure World where
  cache : Cache
  threads : Nat → Thread
  /-- The key that each slot was claimed for. -/
  claims : List CacheKey
  /-- The types listed, each with the attempt that made it. -/
  listed : List (Attempt × SynthesizedType)
  /-- The attempts that failed and gave their keys free. -/
  released : List Attempt
  /-- All answers that requests were given. -/
  answers : List (Attempt × Answer)

namespace World

def start (waitTimeoutMs : UInt64) : World where
  cache := Cache.empty waitTimeoutMs
  threads _ := ⟨[], .running⟩
  claims := []
  listed := []
  released := []
  answers := []

variable (s : World) (t : Nat)

/-- A thread goes on to another place. -/
def goTo (thread : Thread) : World :=
  { s with threads := Function.update s.threads t thread }

/-- A thread is given an answer and runs on. -/
def give (productions : List Attempt) (attempt : Attempt) (answer : Answer) : World :=
  { s.goTo t ⟨productions, .running⟩ with answers := s.answers ++ [(attempt, answer)] }

end World

/-- What one thread does in one step. -/
inductive Turn (t : Nat) (s : World) : World → Prop
  /-- A request binds a free key to a new slot, and its producer starts to run. -/
  | claim {productions : List Attempt} (key : CacheKey) {cache : Cache} {slot : Nat}
      (place : s.threads t = ⟨productions, .running⟩)
      (new : s.cache.claim t key = (cache, slot, true)) :
      Turn t s
        { s.goTo t ⟨⟨key, slot⟩ :: productions, .running⟩ with
          cache := cache
          claims := s.claims ++ [key] }
  /-- A request finds its key bound. -/
  | join {productions : List Attempt} (key : CacheKey) {cache : Cache} {slot : Nat}
      (place : s.threads t = ⟨productions, .running⟩)
      (old : s.cache.claim t key = (cache, slot, false)) :
      Turn t s { s.goTo t ⟨productions, .waiting ⟨key, slot⟩⟩ with cache := cache }
  /-- The innermost producer ends with a type, which is listed, or with the answer that there is
  none. -/
  | record {attempt : Attempt} {productions : List Attempt} (type : Option SynthesizedType)
      (place : s.threads t = ⟨attempt :: productions, .running⟩) :
      Turn t s
        { s.goTo t ⟨productions, .completing attempt (s.cache.record type).2⟩ with
          cache := (s.cache.record type).1
          listed := s.listed ++ type.toList.map (attempt, ·) }
  | complete {attempt : Attempt} {productions : List Attempt} {result : Option Completed}
      (place : s.threads t = ⟨productions, .completing attempt result⟩) :
      Turn t s
        { s.give t productions attempt (.found result) with
          cache := s.cache.complete attempt.slot result }
  /-- The innermost producer fails or is torn down, and its key is given free. -/
  | unbind {attempt : Attempt} {productions : List Attempt} (failure : Failure)
      (place : s.threads t = ⟨attempt :: productions, .running⟩) :
      Turn t s
        { s.goTo t ⟨productions, .failing attempt failure⟩ with
          cache := s.cache.unbind attempt.key attempt.slot
          released := s.released ++ [attempt] }
  | fail {attempt : Attempt} {productions : List Attempt} {failure : Failure}
      (place : s.threads t = ⟨productions, .failing attempt failure⟩) :
      Turn t s
        { s.give t productions attempt failure.answer with
          cache := s.cache.fail attempt.slot failure.reason }
  /-- Who waits is given what the slot holds. -/
  | look {attempt : Attempt} {productions : List Attempt} {answer : Answer}
      (place : s.threads t = ⟨productions, .waiting attempt⟩)
      (seen : s.cache.look t attempt.key attempt.slot = .answer answer) :
      Turn t s (s.give t productions attempt answer)
  /-- Who sees another thread still at work may give up; else it waits on. -/
  | timeout {attempt : Attempt} {productions : List Attempt}
      (place : s.threads t = ⟨productions, .waiting attempt⟩)
      (seen : s.cache.look t attempt.key attempt.slot = .wait) :
      Turn t s (s.give t productions attempt (Cache.timeout attempt.key))
  /-- Anyone may cancel at any time. -/
  | cancel : Turn t s { s with cache := s.cache.cancel }

/-- What the threads can come to from a state, in any order of their steps. -/
def Reaches : World → World → Prop :=
  Relation.ReflTransGen fun s s' => ∃ t, Turn t s s'

end FluentWrappers.Synthesis
