import FluentWrappers.Proofs.Synthesis.Cleanup

/-!
# The attempts of a call

A call makes its attempts in slots of their own and leaves those of before alone. An attempt that was
completed stays the one that its key is bound to, so that no key is completed twice in a call.
-/

namespace FluentWrappers.Synthesis

variable {p q r : Progress} {key : CacheKey}

/-- The attempts that a call adds: those that were completed are the ones that keys are bound to which
were free. -/
structure Attempted (p q : Progress) : Prop extends Grows p q where
  grown : p.cache.slots.length ≤ q.cache.slots.length
  old : ∀ slot < p.cache.slots.length, q.cache.slots[slot]? = p.cache.slots[slot]?
  new : ∀ slot result, p.cache.slots.length ≤ slot →
    q.cache.slots[slot]? = some (.complete result) →
    ∃ key, p.cache.slotOf? key = none ∧ q.cache.slotOf? key = some slot

theorem Attempted.refl (p : Progress) : Attempted p p where
  toGrows := Grows.refl p
  grown := Nat.le_refl _
  old _ _ := rfl
  new _ _ beyond complete :=
    absurd (List.getElem?_eq_some_iff.1 complete).1 (Nat.not_lt.2 beyond)

theorem Attempted.trans (first : Attempted p q) (second : Attempted q r) : Attempted p r where
  toGrows := first.toGrows.trans second.toGrows
  grown := first.grown.trans second.grown
  old slot within := (second.old slot (within.trans_le first.grown)).trans (first.old slot within)
  new slot result beyond complete := by
    rcases Nat.lt_or_ge slot q.cache.slots.length with earlier | later
    · rw [second.old slot earlier] at complete
      obtain ⟨key, free, bound⟩ := first.new slot result beyond complete
      exact ⟨key, free, second.slots key slot bound⟩
    · obtain ⟨key, free, bound⟩ := second.new slot result later complete
      exact ⟨key, first.toGrows.free free, bound⟩

section

variable (attempted : Attempted (p.enter key) q) (free : p.cache.slotOf? key = none)

include free

theorem slots_enter : (p.enter key).cache.slots = p.cache.slots ++ [.inProgress 0] :=
  Cache.slots_claim free

include attempted

theorem Attempted.lt_of_enter : p.cache.slots.length < q.cache.slots.length := by
  have grown := attempted.grown
  rw [slots_enter free, List.length_append, List.length_singleton] at grown
  exact grown

theorem Attempted.old_of_enter {slot : Nat} (within : slot < p.cache.slots.length) :
    q.cache.slots[slot]? = p.cache.slots[slot]? := by
  have kept := attempted.old slot
  rw [slots_enter free, List.length_append, List.getElem?_append_left within] at kept
  exact kept (Nat.lt_add_right _ within)

/-- An attempt completed in the run of a production is not that of the production. -/
theorem Attempted.new_of_enter {slot : Nat} {result : Option Completed}
    (beyond : p.cache.slots.length < slot)
    (complete : q.cache.slots[slot]? = some (.complete result)) :
    ∃ other, other ≠ key ∧ p.cache.slotOf? other = none ∧ q.cache.slotOf? other = some slot := by
  have isNew := attempted.new slot result
  rw [slots_enter free, List.length_append, List.length_singleton] at isNew
  obtain ⟨other, free', bound⟩ := isNew beyond complete
  have distinct : other ≠ key := by
    rintro rfl
    cases free'.symm.trans (slotOf?_enter_self free)
  exact ⟨other, distinct, (slotOf?_enter_of_ne free distinct).symm.trans free', bound⟩

theorem Attempted.leave {made : Option SynthesizedType} :
    Attempted p (q.leave p.cache.slots.length made) where
  toGrows := attempted.toGrows.leave free
  grown := by
    show _ ≤ (q.cache.slots.set _ _).length
    rw [List.length_set]
    exact (attempted.lt_of_enter free).le
  old slot within := by
    show (q.cache.slots.set _ _)[slot]? = _
    rw [List.getElem?_set_ne within.ne', attempted.old_of_enter free within]
  new slot result beyond complete := by
    rcases beyond.eq_or_lt with rfl | beyond
    · exact ⟨key, free, attempted.slots key _ (slotOf?_enter_self free)⟩
    · have complete : (q.cache.slots.set _ _)[slot]? = _ := complete
      rw [List.getElem?_set_ne beyond.ne] at complete
      obtain ⟨other, -, free', bound⟩ := attempted.new_of_enter free beyond complete
      exact ⟨other, free', bound⟩

theorem Attempted.abandon {e : SynthesisError} (tidy : q.cache.Tidy) :
    Attempted p (q.abandon key p.cache.slots.length e) where
  toGrows := attempted.toGrows.abandon free tidy
  grown := by
    show _ ≤ (q.cache.slots.set _ _).length
    rw [List.length_set]
    exact (attempted.lt_of_enter free).le
  old slot within := by
    show (q.cache.slots.set _ _)[slot]? = _
    rw [List.getElem?_set_ne within.ne', attempted.old_of_enter free within]
  new slot result beyond complete := by
    have complete : (q.cache.slots.set _ _)[slot]? = _ := complete
    rcases beyond.eq_or_lt with rfl | beyond
    · rw [List.getElem?_set_self (attempted.lt_of_enter free)] at complete
      cases complete
    · rw [List.getElem?_set_ne beyond.ne] at complete
      obtain ⟨other, distinct, free', bound⟩ := attempted.new_of_enter free beyond complete
      refine ⟨other, free', ?_⟩
      show (q.cache.release key p.cache.slots.length e.message).slotOf? other = some slot
      rw [tidy.slotOf?_release (attempted.slots key _ (slotOf?_enter_self free)), if_neg distinct]
      exact bound

end

theorem respected_attempted : Respected Attempted where
  refl := Attempted.refl
  trans := Attempted.trans
  grows attempted := attempted.toGrows
  leave _ _ free attempted := attempted.leave free
  abandon _ tidy' free attempted := attempted.abandon free tidy'

/-- Each attempt that was completed since is the one attempt that a key is bound to, which was free. -/
def CompletesOnce (p q : Progress) : Prop :=
  ∀ slot result, q.cache.slots[slot]? = some (.complete result) →
    p.cache.slots[slot]? = some (.complete result) ∨
      p.cache.slots[slot]? = none ∧ ∃ key, p.cache.slotOf? key = none ∧
        ∀ other, q.cache.slotOf? other = some slot ↔ other = key

theorem Attempted.completesOnce (attempted : Attempted p q) (tidy : q.cache.Tidy) :
    CompletesOnce p q := by
  intro slot result complete
  rcases Nat.lt_or_ge slot p.cache.slots.length with within | beyond
  · exact .inl ((attempted.old slot within).symm.trans complete)
  · obtain ⟨key, free, bound⟩ := attempted.new slot result beyond complete
    refine .inr ⟨List.getElem?_eq_none_iff.2 beyond, key, free, fun other => ⟨fun bound' => ?_, ?_⟩⟩
    · exact tidy.apart other key slot bound' bound
    · rintro rfl
      exact bound

end FluentWrappers.Synthesis
