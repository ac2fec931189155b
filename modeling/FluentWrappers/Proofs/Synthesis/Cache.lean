import FluentWrappers.Synthesis.Cache
import Mathlib.Data.List.Nodup

/-!
# What the cache holds

In a cache that was only used through its operations every bound key has a slot of its own. A claim
adds the key in progress, the end of an attempt completes it or gives it free, and all other keys keep
their states.
-/

namespace FluentWrappers.Synthesis.Cache

structure Sound (c : Cache) : Prop where
  within : ∀ key slot, c.slotOf? key = some slot → slot < c.slots.length
  apart : ∀ key other slot, c.slotOf? key = some slot → c.slotOf? other = some slot → key = other

variable {c : Cache} {key other : CacheKey} {slot : Nat}

theorem sound_empty (timeout : UInt64) : (empty timeout).Sound := by
  constructor
  · intro key slot bound
    cases bound
  · intro key other slot bound
    cases bound

theorem Sound.exists_state (sound : c.Sound) (bound : c.slotOf? key = some slot) :
    ∃ state, c.slots[slot]? = some state ∧ c.stateOf? key = some state := by
  have state := List.getElem?_eq_getElem (sound.within key slot bound)
  exact ⟨_, state, by rw [stateOf?, bound]; exact state⟩

theorem exists_slot {state : SlotState} (h : c.stateOf? key = some state) :
    ∃ slot, c.slotOf? key = some slot ∧ c.slots[slot]? = some state :=
  Option.bind_eq_some_iff.1 h

theorem stateOf?_of_slot (bound : c.slotOf? key = some slot) : c.stateOf? key = c.slots[slot]? := by
  rw [stateOf?, bound]
  rfl

theorem stateOf?_eq_none (free : c.slotOf? key = none) : c.stateOf? key = none := by
  rw [stateOf?, free]
  rfl

/-! ### Claims -/

section

variable {caller : Nat}

theorem claim_free (free : c.slotOf? key = none) : c.claim caller key =
    ({ c with
        slots := c.slots ++ [.inProgress caller]
        bindings := c.bindings ++ [(key, c.slots.length)] }, c.slots.length, true) := by
  unfold claim
  rw [free]

theorem claim_bound (bound : c.slotOf? key = some slot) :
    c.claim caller key = (c, slot, false) := by
  unfold claim
  rw [bound]

theorem slotOf?_claim (free : c.slotOf? key = none) :
    (c.claim caller key).1.slotOf? other =
      if other = key then some c.slots.length else c.slotOf? other := by
  rw [claim_free free]
  show (c.bindings ++ [(key, c.slots.length)]).lookup other = _
  rw [List.lookup_append]
  by_cases same : other = key
  · rw [if_pos same, same]
    have unbound : c.bindings.lookup key = none := free
    rw [unbound, List.lookup_cons_self]
    rfl
  · rw [if_neg same]
    have distinct : (other == key) = false := beq_false_of_ne same
    rw [List.lookup_cons, distinct]
    show (c.bindings.lookup other).or none = _
    exact Option.or_none

theorem slots_claim (free : c.slotOf? key = none) :
    (c.claim caller key).1.slots = c.slots ++ [.inProgress caller] := by
  rw [claim_free free]

theorem types_claim (free : c.slotOf? key = none) :
    (c.claim caller key).1.types = c.types := by
  rw [claim_free free]

theorem stateOf?_claim_self (free : c.slotOf? key = none) :
    (c.claim caller key).1.stateOf? key = some (.inProgress caller) := by
  have bound : (c.claim caller key).1.slotOf? key = some c.slots.length := by
    rw [slotOf?_claim free, if_pos rfl]
  rw [stateOf?_of_slot bound, slots_claim free, List.getElem?_concat_length]

theorem stateOf?_claim_of_ne (sound : c.Sound) (free : c.slotOf? key = none) (ne : other ≠ key) :
    (c.claim caller key).1.stateOf? other = c.stateOf? other := by
  have slots : (c.claim caller key).1.slotOf? other = c.slotOf? other := by
    rw [slotOf?_claim free, if_neg ne]
  cases bound : c.slotOf? other with
  | none => rw [stateOf?_eq_none bound, stateOf?_eq_none (slots.trans bound)]
  | some slot =>
    rw [stateOf?_of_slot bound, stateOf?_of_slot (slots.trans bound), slots_claim free,
      List.getElem?_append_left (sound.within other slot bound)]

theorem Sound.claim (sound : c.Sound) (free : c.slotOf? key = none) :
    (c.claim caller key).1.Sound := by
  have old (other : CacheKey) (slot : Nat)
      (bound : (c.claim caller key).1.slotOf? other = some slot) :
      other = key ∧ slot = c.slots.length ∨ c.slotOf? other = some slot ∧ slot < c.slots.length := by
    rw [slotOf?_claim free] at bound
    by_cases same : other = key
    · rw [if_pos same] at bound
      exact Or.inl ⟨same, (Option.some.inj bound).symm⟩
    · rw [if_neg same] at bound
      exact Or.inr ⟨bound, sound.within other slot bound⟩
  constructor
  · intro other slot bound
    rw [slots_claim free, List.length_append, List.length_singleton]
    rcases old other slot bound with ⟨-, rfl⟩ | ⟨-, small⟩ <;> omega
  · intro first second slot boundFirst boundSecond
    rcases old first slot boundFirst with ⟨rfl, new⟩ | ⟨boundFirst, small⟩ <;>
      rcases old second slot boundSecond with ⟨rfl, new'⟩ | ⟨boundSecond, small'⟩
    · rfl
    · omega
    · omega
    · exact sound.apart first second slot boundFirst boundSecond

end

/-! ### Completions -/

section

variable {type : Option SynthesizedType}

theorem result_publish (c : Cache) (slot : Nat) (type : Option SynthesizedType) :
    (c.publish slot type).2.map (·.type) = type := by
  cases type <;> rfl

theorem stateOf?_publish_self (sound : c.Sound) (bound : c.slotOf? key = some slot)
    (type : Option SynthesizedType) :
    (c.publish slot type).1.stateOf? key = some (.complete (c.publish slot type).2) := by
  rw [stateOf?_of_slot (c := (c.publish slot type).1) bound]
  exact List.getElem?_set_self (sound.within key slot bound)

theorem stateOf?_publish_of_ne (sound : c.Sound) (bound : c.slotOf? key = some slot)
    (ne : other ≠ key) : (c.publish slot type).1.stateOf? other = c.stateOf? other := by
  cases otherBound : c.slotOf? other with
  | none =>
    rw [stateOf?_eq_none otherBound, stateOf?_eq_none (c := (c.publish slot type).1) otherBound]
  | some otherSlot =>
    have slots : slot ≠ otherSlot := by
      rintro rfl
      exact ne (sound.apart other key slot otherBound bound)
    rw [stateOf?_of_slot otherBound, stateOf?_of_slot (c := (c.publish slot type).1) otherBound]
    exact List.getElem?_set_ne slots

theorem Sound.publish (sound : c.Sound) : (c.publish slot type).1.Sound := by
  constructor
  · intro key other bound
    have old := sound.within key other bound
    show other < (c.slots.set slot _).length
    rw [List.length_set]
    exact old
  · exact sound.apart

end

/-! ### Failures -/

/-- Besides, no key is bound twice, so that a key is free once its binding is gone. -/
structure Tidy (c : Cache) : Prop extends Sound c where
  once : (c.bindings.map Prod.fst).Nodup

theorem tidy_empty (timeout : UInt64) : (empty timeout).Tidy :=
  ⟨sound_empty timeout, List.nodup_nil⟩

theorem Tidy.claim (tidy : c.Tidy) {caller : Nat} (free : c.slotOf? key = none) :
    (c.claim caller key).1.Tidy := by
  refine ⟨tidy.toSound.claim free, ?_⟩
  have unbound : key ∉ c.bindings.map Prod.fst := by
    intro isIn
    obtain ⟨pair, isBinding, rfl⟩ := List.mem_map.1 isIn
    have missing := List.lookup_eq_none_iff.1 free pair isBinding
    simp at missing
  rw [claim_free free]
  show (List.map Prod.fst (c.bindings ++ [(key, c.slots.length)])).Nodup
  rw [List.map_append, List.map_singleton, ← List.concat_eq_append]
  exact tidy.once.concat unbound

theorem Tidy.publish (tidy : c.Tidy) {type : Option SynthesizedType} :
    (c.publish slot type).1.Tidy :=
  ⟨tidy.toSound.publish, tidy.once⟩

section

variable {reason : String}

theorem Tidy.slotOf?_release (tidy : c.Tidy) (bound : c.slotOf? key = some slot) :
    (c.release key slot reason).slotOf? other = if other = key then none else c.slotOf? other := by
  show (c.bindings.filter (· != (key, slot))).lookup other = _
  by_cases same : other = key
  · subst same
    rw [if_pos rfl, List.lookup_eq_none_iff]
    intro pair isIn
    obtain ⟨isBinding, differs⟩ := List.mem_filter.1 isIn
    rw [bne_iff_ne]
    intro sameKey
    -- the key has one binding, and that one was taken out
    obtain ⟨before, after, split, -⟩ := List.lookup_eq_some_iff.1 bound
    have isIn' : (other, slot) ∈ c.bindings := split ▸ List.mem_append_right _ List.mem_cons_self
    have samePair := List.inj_on_of_nodup_map tidy.once isBinding isIn' sameKey.symm
    exact bne_iff_ne.1 differs samePair
  · rw [if_neg same]
    show _ = c.bindings.lookup other
    induction c.bindings with
    | nil => rfl
    | cons pair rest ih =>
      by_cases gone : pair = (key, slot)
      · have differs : (other == pair.1) = false := beq_false_of_ne (gone ▸ same)
        rw [List.filter_cons_of_neg (by simpa using gone), ih, List.lookup_cons, differs]
      · rw [List.filter_cons_of_pos (by simpa using gone), List.lookup_cons, List.lookup_cons, ih]

/-- A key that was free is free again after an attempt that failed. -/
theorem slotOf?_release_claim {caller : Nat} (free : c.slotOf? key = none) :
    ((c.claim caller key).1.release key c.slots.length reason).slotOf? key = none := by
  rw [claim_free free]
  show ((c.bindings ++ [(key, c.slots.length)]).filter (· != (key, c.slots.length))).lookup key = none
  apply List.lookup_eq_none_iff.2
  intro pair isIn
  obtain ⟨isBinding, differs⟩ := List.mem_filter.1 isIn
  rcases List.mem_append.1 isBinding with old | new
  · exact List.lookup_eq_none_iff.1 free pair old
  · rw [List.mem_singleton.1 new] at differs
    simp at differs

theorem Tidy.stateOf?_release_self (tidy : c.Tidy) (bound : c.slotOf? key = some slot) :
    (c.release key slot reason).stateOf? key = none := by
  apply stateOf?_eq_none
  rw [tidy.slotOf?_release bound, if_pos rfl]

theorem Tidy.stateOf?_release_of_ne (tidy : c.Tidy) (bound : c.slotOf? key = some slot)
    (ne : other ≠ key) : (c.release key slot reason).stateOf? other = c.stateOf? other := by
  have slots : (c.release key slot reason).slotOf? other = c.slotOf? other := by
    rw [tidy.slotOf?_release bound, if_neg ne]
  cases otherBound : c.slotOf? other with
  | none => rw [stateOf?_eq_none otherBound, stateOf?_eq_none (slots.trans otherBound)]
  | some otherSlot =>
    have differ : slot ≠ otherSlot := by
      rintro rfl
      exact ne (tidy.apart other key slot otherBound bound)
    rw [stateOf?_of_slot otherBound, stateOf?_of_slot (slots.trans otherBound)]
    exact List.getElem?_set_ne differ

theorem Tidy.release (tidy : c.Tidy) (bound : c.slotOf? key = some slot) :
    (c.release key slot reason).Tidy := by
  have old (other : CacheKey) (otherSlot : Nat)
      (otherBound : (c.release key slot reason).slotOf? other = some otherSlot) :
      c.slotOf? other = some otherSlot := by
    rw [tidy.slotOf?_release bound] at otherBound
    split at otherBound
    · cases otherBound
    · exact otherBound
  refine ⟨⟨?_, ?_⟩, ?_⟩
  · intro other otherSlot otherBound
    show otherSlot < (c.slots.set slot _).length
    rw [List.length_set]
    exact tidy.within other otherSlot (old other otherSlot otherBound)
  · intro first second shared boundFirst boundSecond
    exact tidy.apart first second shared (old first shared boundFirst) (old second shared boundSecond)
  · exact tidy.once.sublist (List.filter_sublist.map Prod.fst)

end

/-! ### Looks -/

/-- Who is given an outcome by a look is given that of the slot. -/
theorem look_found {caller : Nat} {result : Option Completed}
    (seen : c.look caller key slot = .answer (.found result)) :
    c.slots[slot]? = some (.complete result) := by
  unfold look at seen
  split at seen
  case h_1 complete =>
    cases seen
    exact complete
  case h_3 =>
    split at seen
    · cases seen
    · split at seen <;> cases seen
  all_goals cases seen

end FluentWrappers.Synthesis.Cache
