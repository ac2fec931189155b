import FluentWrappers.Proofs.Verification.Acceptance

/-!
# Refused artifacts

An artifact is refused for the fault of one of its parts, so one whose parts all pass is accepted. Each
check has faults of its own: what is wrong with an artifact tells which check found it.
-/

namespace FluentWrappers

namespace Check

variable {ε α β : Type}

theorem bind_eq_error_iff {x : Except ε α} {f : α → Except ε β} {e : ε} :
    (x >>= f) = .error e ↔ x = .error e ∨ ∃ a, x = .ok a ∧ f a = .error e := by
  cases x with
  | error e' =>
    constructor
    · intro failed
      cases failed
      exact .inl rfl
    · rintro (failed | ⟨a, ended, -⟩)
      · cases failed
        rfl
      · cases ended
  | ok a =>
    constructor
    · intro failed
      exact .inr ⟨a, rfl, failed⟩
    · rintro (failed | ⟨b, ended, failed⟩)
      · cases failed
      · cases ended
        exact failed

theorem of_forM_eq_error {check : α → Except ε Unit} {items : List α} {e : ε}
    (failed : items.forM check = .error e) : ∃ a ∈ items, check a = .error e := by
  induction items with
  | nil => cases failed
  | cons a rest ih =>
    rcases bind_eq_error_iff.1 failed with first | ⟨-, -, others⟩
    · exact ⟨a, List.mem_cons_self, first⟩
    · obtain ⟨b, isIn, failed⟩ := ih others
      exact ⟨b, List.mem_cons_of_mem a isIn, failed⟩

theorem of_guard_eq_error {p : Prop} [Decidable p] {fault e : ε}
    (failed : (if p then .ok () else .error fault : Except ε Unit) = .error e) : e = fault := by
  split at failed
  · cases failed
  · cases failed
    rfl

end Check

theorem firstRepeated?_of_nodup {seen names : List String} (distinct : names.Nodup)
    (fresh : ∀ name ∈ names, name ∉ seen) : firstRepeated? seen names = none := by
  induction names generalizing seen with
  | nil => rfl
  | cons name rest ih =>
    obtain ⟨isFresh, others⟩ := List.forall_mem_cons.1 fresh
    obtain ⟨isNew, distinct⟩ := List.nodup_cons.1 distinct
    unfold firstRepeated?
    rw [if_neg (mt List.contains_iff_mem.1 isFresh)]
    refine ih distinct fun later isIn old => ?_
    rcases List.mem_cons.1 old with rfl | old
    · exact isNew isIn
    · exact others later isIn old

namespace Artifact

variable {a : Artifact} {t : TypeDefinition} {e : VerifyError}

/-! ### The faults of single checks -/

theorem of_checkMemberRef_error {r : MemberReference} (failed : a.checkMemberRef r = .error e) :
    e = .unresolvedMember r.owner r.name := by
  unfold checkMemberRef at failed
  split at failed
  · cases failed
  · split at failed
    · cases failed
      rfl
    · exact Check.of_guard_eq_error failed

theorem of_checkInterface_error {name : String} (failed : a.checkInterface t name = .error e) :
    e = .unresolvedInterface t.name name ∨ ∃ method, e = .missingImplementation t.name name method := by
  unfold checkInterface at failed
  split at failed
  · cases failed
    exact .inl rfl
  · split at failed
    · cases failed
      exact .inl rfl
    · split at failed
      · cases failed
      · split at failed
        · cases failed
          exact .inr ⟨_, rfl⟩
        · cases failed

theorem of_checkBinding_error {m : Method} (failed : a.checkBinding t m = .error e) :
    ∃ method interface target, e = .unresolvedOverride method interface target := by
  unfold checkBinding at failed
  split at failed
  · cases failed
  · exact ⟨_, _, _, Check.of_guard_eq_error failed⟩

theorem of_checkMethod_error {m : Method} (failed : a.checkMethod t m = .error e) :
    ∃ method fault, e = .body method fault := by
  unfold checkMethod at failed
  split at failed
  · cases failed
  · cases failed
    exact ⟨_, _, rfl⟩

theorem checkStandalone_eq_ok_iff :
    a.checkStandalone t = .ok () ↔ ∀ name ∈ t.referredNames, a.resolves name = true := by
  unfold checkStandalone
  cases found : t.referredNames.find? fun name => !a.resolves name with
  | none =>
    refine iff_of_true rfl fun name isIn => ?_
    simpa using List.find?_eq_none.1 found name isIn
  | some foreign =>
    refine iff_of_false (fun passed => by cases passed) fun known => ?_
    have unknown := List.find?_some found
    rw [known foreign (List.mem_of_find?_eq_some found)] at unknown
    cases unknown

/-! ### The faults of types and of the artifact -/

/-- A type is refused for its underlying primitive, for an interface, for a binding although the interfaces
pass, for a body, or for a foreign name in a standalone artifact. -/
theorem of_checkType_error (failed : a.checkType t = .error e) :
    (e = .invalidEnum t.name ∧ t.kind = .enumeration ∧ t.hasIntegralUnderlying = false) ∨
      (∃ name ∈ t.interfaces, a.checkInterface t name = .error e) ∨
      (∃ m ∈ t.methods, a.checkBinding t m = .error e ∧
        ∀ name ∈ t.interfaces, a.checkInterface t name = .ok ()) ∨
      (hasFlag a.flags ArtifactFlag.standalone = true ∧ a.checkStandalone t = .error e) ∨
      ∃ m ∈ t.methods, a.checkMethod t m = .error e := by
  by_cases bare : t.kind = .enumeration ∧ t.hasIntegralUnderlying = false
  · simp only [checkType, if_pos bare] at failed
    cases failed
    exact .inl ⟨rfl, bare⟩
  · simp only [checkType, if_neg bare] at failed
    refine .inr ?_
    rcases Check.bind_eq_error_iff.1 failed with failed | ⟨-, -, failed⟩
    · rcases Check.bind_eq_error_iff.1 failed with failed | ⟨_, interfaces, failed⟩
      · exact .inl (Check.of_forM_eq_error failed)
      · obtain ⟨m, isIn, failed⟩ := Check.of_forM_eq_error failed
        exact .inr (.inl ⟨m, isIn, failed, Check.forM_eq_ok_iff.1 interfaces⟩)
    · refine .inr (.inr ?_)
      split at failed
      case isTrue isStandalone =>
        rcases Check.bind_eq_error_iff.1 failed with failed | ⟨-, -, failed⟩
        · exact .inl ⟨isStandalone, failed⟩
        · exact .inr (Check.of_forM_eq_error failed)
      case isFalse => exact .inr (Check.of_forM_eq_error failed)

/-- An artifact with the right header and distinct type names is refused for a member reference or for a
type. -/
theorem of_verify_error (header : a.headerFault? = none) (distinct : (a.types.map (·.name)).Nodup)
    (failed : a.verify = .error e) :
    (∃ r ∈ a.memberRefs, a.checkMemberRef r = .error e) ∨ ∃ t ∈ a.types, a.checkType t = .error e := by
  have noneRepeated := firstRepeated?_of_nodup distinct fun name _ => List.not_mem_nil
  simp only [verify, header, noneRepeated] at failed
  rcases Check.bind_eq_error_iff.1 failed with failed | ⟨-, -, failed⟩
  · exact .inl (Check.of_forM_eq_error failed)
  · exact .inr (Check.of_forM_eq_error failed)

/-- Only a standalone artifact is refused for a foreign name, and then a type of it refers to one. -/
theorem of_verify_foreignReference {owner name : String} (header : a.headerFault? = none)
    (distinct : (a.types.map (·.name)).Nodup)
    (failed : a.verify = .error (.foreignReference owner name)) :
    hasFlag a.flags ArtifactFlag.standalone = true ∧
      ∃ t ∈ a.types, a.checkStandalone t ≠ .ok () := by
  rcases of_verify_error header distinct failed with ⟨r, -, failed⟩ | ⟨t, isIn, failed⟩
  · cases of_checkMemberRef_error failed
  · rcases of_checkType_error failed with
      ⟨same, -⟩ | ⟨name, -, failed⟩ | ⟨m, -, failed, -⟩ | ⟨isStandalone, failed⟩ | ⟨m, -, failed⟩
    · cases same
    · rcases of_checkInterface_error failed with same | ⟨method, same⟩ <;> cases same
    · obtain ⟨_, _, _, same⟩ := of_checkBinding_error failed
      cases same
    · refine ⟨isStandalone, t, isIn, fun passed => ?_⟩
      rw [passed] at failed
      cases failed
    · obtain ⟨_, _, same⟩ := of_checkMethod_error failed
      cases same

end Artifact

end FluentWrappers
