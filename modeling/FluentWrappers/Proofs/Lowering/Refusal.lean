import FluentWrappers.Proofs.Lowering.Definitions
import FluentWrappers.Proofs.Verification.Refusal

/-!
# Refused types

Types are refused because a canonical name comes twice, because a method and its body do not match, or
because the verifier refuses their artifact.
-/

namespace FluentWrappers.Lowering

open Synthesis (SynthesizedType MethodSpec LoweringFault SynthesisError)

variable {table : List MemberReference} {seen : List String} {types : List SynthesizedType}
  {definitions : List TypeDefinition} {runtime : RuntimeNames} {metadata : Metadata}
  {fault : LoweringFault}

theorem of_mapM_eq_error {α β ε : Type} {f : α → Except ε β} {xs : List α} {e : ε}
    (failed : xs.mapM f = .error e) : ∃ x ∈ xs, f x = .error e := by
  induction xs with
  | nil => cases failed
  | cons x xs ih =>
    rw [List.mapM_cons] at failed
    rcases Check.bind_eq_error_iff.1 failed with failed | ⟨_, -, failed⟩
    · exact ⟨x, List.mem_cons_self, failed⟩
    · rcases Check.bind_eq_error_iff.1 failed with failed | ⟨_, -, failed⟩
      · obtain ⟨y, isIn, failed⟩ := ih failed
        exact ⟨y, List.mem_cons_of_mem x isIn, failed⟩
      · cases failed

theorem of_lowerMethod_error {t : SynthesizedType} {spec : MethodSpec}
    (failed : lowerMethod table t spec = .error fault) :
    bodyOf? spec = none ∧ fault = .bodyMismatch t.canonical spec.name := by
  unfold lowerMethod at failed
  cases kept : bodyOf? spec with
  | none =>
    rw [kept] at failed
    cases failed
    exact ⟨rfl, rfl⟩
  | some body =>
    rw [kept] at failed
    cases failed

theorem of_lowerType_error {t : SynthesizedType} (failed : lowerType table t = .error fault) :
    ∃ spec ∈ t.methods, bodyOf? spec = none ∧ fault = .bodyMismatch t.canonical spec.name := by
  rcases Check.bind_eq_error_iff.1 failed with failed | ⟨_, -, failed⟩
  · obtain ⟨spec, isIn, failed⟩ := of_mapM_eq_error failed
    exact ⟨spec, isIn, of_lowerMethod_error failed⟩
  · cases failed

/-- There is no list of definitions because a canonical name comes again or a method and its body do not
match. -/
theorem of_lowerTypes_error (failed : lowerTypes table seen types = .error fault) :
    (∃ t ∈ types, fault = .emittedTwice t.canonical ∧
      (t.canonical ∈ seen ∨ ¬ (types.map (·.canonical)).Nodup)) ∨
      ∃ t ∈ types, ∃ spec ∈ t.methods, bodyOf? spec = none ∧
        fault = .bodyMismatch t.canonical spec.name := by
  induction types generalizing seen with
  | nil => cases failed
  | cons first types ih =>
    unfold lowerTypes at failed
    split at failed
    case isTrue again =>
      cases failed
      exact .inl ⟨first, List.mem_cons_self, rfl, .inl (List.contains_iff_mem.1 again)⟩
    case isFalse =>
      rcases Check.bind_eq_error_iff.1 failed with failed | ⟨_, -, failed⟩
      · exact .inr ⟨first, List.mem_cons_self, of_lowerType_error failed⟩
      · rcases Check.bind_eq_error_iff.1 failed with failed | ⟨_, -, failed⟩
        · rcases ih failed with ⟨t, isIn, same, again⟩ | ⟨t, isIn, mismatch⟩
          · refine .inl ⟨t, List.mem_cons_of_mem first isIn, same, ?_⟩
            rcases again with again | again
            · rcases List.mem_cons.1 again with isFirst | old
              · refine .inr fun distinct => (List.nodup_cons.1 distinct).1 ?_
                exact List.mem_map.2 ⟨t, isIn, isFirst⟩
              · exact .inl old
            · exact .inr fun distinct => again (List.nodup_cons.1 distinct).2
          · exact .inr ⟨t, List.mem_cons_of_mem first isIn, mismatch⟩
        · cases failed

theorem lower_of_verify (defined : lowerTypes (referenceTable types) [] types = .ok definitions)
    (verified : (assembled runtime metadata types definitions).verify = .ok ()) :
    lower runtime metadata types = .ok (assembled runtime metadata types definitions) := by
  have isAssembled : (assemble runtime metadata types).mapError SynthesisError.lowering =
      .ok (assembled runtime metadata types definitions) := by
    rw [assemble_eq, defined]
    rfl
  unfold lower
  rw [isAssembled]
  dsimp only [bind, Except.bind]
  rw [verified]
  rfl

/-- Types have no artifact if they have no definitions or if the verifier refuses what was assembled. -/
theorem of_lower_error {e : SynthesisError} (failed : lower runtime metadata types = .error e) :
    (∃ fault, lowerTypes (referenceTable types) [] types = .error fault ∧ e = .lowering fault) ∨
      ∃ definitions cause, lowerTypes (referenceTable types) [] types = .ok definitions ∧
        (assembled runtime metadata types definitions).verify = .error cause ∧
        e = .lowering (.unsound cause) := by
  unfold lower at failed
  rw [assemble_eq] at failed
  cases found : lowerTypes (referenceTable types) [] types with
  | error fault =>
    rw [found] at failed
    cases failed
    exact .inl ⟨fault, rfl, rfl⟩
  | ok definitions =>
    rw [found] at failed
    rcases Check.bind_eq_error_iff.1 failed with failed | ⟨artifact, isAssembled, failed⟩
    · cases failed
    · cases isAssembled
      split at failed
      case h_1 => cases failed
      case h_2 cause refused =>
        cases failed
        exact .inr ⟨definitions, cause, rfl, refused, rfl⟩

end FluentWrappers.Lowering
