import FluentWrappers.Proofs.Options
import FluentWrappers.Proofs.Synthesis.Product
import Mathlib.Data.List.Rotate

/-!
# The names of one source type

The names of a source type's interface, proxy and fluent wrapper are apart unless a prefix and the proxy
suffix make the same name of it. They do so for some source type exactly if the suffix is a rotation of
the prefix. Validated options can have such affixes.
-/

namespace FluentWrappers

/-! ### Words with an end moved to the front -/

namespace Affix

variable {α : Type} {front back word : List α}

/-- The word begins with rounds of the front, of which the last is broken off, and what is left of that
round begins the back. -/
def Interlock (front back word : List α) : Prop :=
  ∃ left right rounds, front = left ++ right ∧ back = right ++ left ∧
    word = (List.replicate rounds front).flatten ++ left

theorem Interlock.append_eq (h : Interlock front back word) : front ++ word = word ++ back := by
  obtain ⟨left, right, rounds, isFront, rfl, rfl⟩ := h
  have turn : front ++ (List.replicate rounds front).flatten =
      (List.replicate rounds front).flatten ++ front := by
    rw [← List.flatten_cons, ← List.replicate_succ, List.replicate_succ', List.flatten_concat]
  calc front ++ ((List.replicate rounds front).flatten ++ left)
      = (List.replicate rounds front).flatten ++ (front ++ left) := by
        rw [← List.append_assoc, turn, List.append_assoc]
    _ = (List.replicate rounds front).flatten ++ left ++ (right ++ left) := by
        rw [isFront]
        simp

theorem interlock_of_append_eq (nonempty : front ≠ []) (same : front ++ word = word ++ back) :
    Interlock front back word := by
  induction isLength : word.length using Nat.strong_induction_on generalizing word with
  | h length shorter =>
    rcases List.append_eq_append_iff.1 same with ⟨rest, isWord, again⟩ | ⟨rest, isFront, isBack⟩
    · -- the word begins with a whole round, and without it is again such a word
      have falls : rest.length < length := by
        have positive := List.length_pos_iff.2 nonempty
        rw [← isLength, isWord, List.length_append]
        omega
      rw [isWord] at again
      obtain ⟨left, right, rounds, isFront, isBack, isRest⟩ :=
        shorter rest.length falls again rfl
      refine ⟨left, right, rounds + 1, isFront, isBack, ?_⟩
      rw [isWord, List.replicate_succ, List.flatten_cons, List.append_assoc, ← isRest]
    · exact ⟨word, rest, 0, isFront, isBack, rfl⟩

theorem append_eq_iff : front ++ word = word ++ back ↔
    front = [] ∧ back = [] ∨ Interlock front back word := by
  constructor
  · intro same
    by_cases nonempty : front = []
    · subst nonempty
      exact Or.inl ⟨rfl, by simpa using same⟩
    · exact Or.inr (interlock_of_append_eq nonempty same)
  · rintro (⟨rfl, rfl⟩ | interlock)
    · simp
    · exact interlock.append_eq

theorem exists_append_eq_iff : (∃ word, front ++ word = word ++ back) ↔ front.IsRotated back := by
  constructor
  · rintro ⟨word, same⟩
    rcases append_eq_iff.1 same with ⟨rfl, rfl⟩ | ⟨left, right, -, rfl, rfl, -⟩
    · exact List.IsRotated.refl []
    · exact List.isRotated_append
  · rintro ⟨turns, rfl⟩
    refine ⟨front.take (turns % front.length), ?_⟩
    rw [List.rotate_eq_drop_append_take_mod, ← List.append_assoc, List.take_append_drop]

end Affix

open Affix
open EngineOptions (validate_eq_ok_iff)

/-! ### Names -/

theorem TypeName.canonical_withSimple_inj {n : TypeName} {a b : String} :
    (n.withSimple a).canonical = (n.withSimple b).canonical ↔ a = b := by
  rw [← String.toList_inj, toList_canonical, toList_canonical]
  exact (List.append_cancel_left_eq _ _ _).to_iff.trans String.toList_inj

namespace Synthesis

variable {o v : EngineOptions} {n : TypeName}

theorem interfaceName_eq_proxyName_iff :
    (interfaceName o n).canonical = (proxyName o n).canonical ↔
      o.interfacePrefix.toList ++ n.simple.toList = n.simple.toList ++ o.proxySuffix.toList := by
  unfold interfaceName proxyName
  rw [TypeName.canonical_withSimple_inj, ← String.toList_inj, String.toList_append,
    String.toList_append]

theorem fluentName_eq_proxyName_iff :
    (fluentName o (proxyName o n)).canonical = (proxyName o n).canonical ↔
      o.fluentPrefix.toList ++ n.simple.toList = n.simple.toList ++ o.proxySuffix.toList := by
  rw [fluentName_proxyName]
  exact interfaceName_eq_proxyName_iff (o := { o with interfacePrefix := o.fluentPrefix })

theorem interfaceName_eq_fluentName_iff :
    (interfaceName o n).canonical = (fluentName o (proxyName o n)).canonical ↔
      o.interfacePrefix = o.fluentPrefix := by
  rw [fluentName_proxyName]
  unfold interfaceName
  rw [TypeName.canonical_withSimple_inj, ← String.toList_inj, String.toList_append,
    String.toList_append, List.append_cancel_right_eq]
  exact String.toList_inj

/-- The names of a source's interface, proxy and fluent wrapper. -/
def ownNames (o : EngineOptions) (source : TypeName) : List String :=
  [(interfaceName o source).canonical, (proxyName o source).canonical,
    (fluentName o (proxyName o source)).canonical]

theorem exists_source_iff {front back : List Char} :
    (∃ n : TypeName, front ++ n.simple.toList = n.simple.toList ++ back) ↔ front.IsRotated back := by
  rw [← exists_append_eq_iff]
  constructor
  · rintro ⟨n, same⟩
    exact ⟨_, same⟩
  · rintro ⟨word, same⟩
    exact ⟨⟨"", String.ofList word⟩, by simpa using same⟩

/-- With validated options, interface and fluent wrapper of a source have different names. Either has
the proxy's name exactly for the sources on which its prefix and the proxy suffix interlock, and a fluent
wrapper for every source if both are empty. So the names of every source are apart exactly if neither
prefix is a rotation of the proxy suffix. -/
theorem ownNames_apart (valid : o.validate = .ok v) :
    (∀ n, (interfaceName v n).canonical ≠ (fluentName v (proxyName v n)).canonical) ∧
    (∀ n, (interfaceName v n).canonical = (proxyName v n).canonical ↔
      Interlock v.interfacePrefix.toList v.proxySuffix.toList n.simple.toList) ∧
    (∀ n, (fluentName v (proxyName v n)).canonical = (proxyName v n).canonical ↔
      v.fluentPrefix = "" ∧ v.proxySuffix = "" ∨
        Interlock v.fluentPrefix.toList v.proxySuffix.toList n.simple.toList) ∧
    ((∀ n, (ownNames v n).Nodup) ↔ ¬ v.interfacePrefix.toList.IsRotated v.proxySuffix.toList ∧
      ¬ v.fluentPrefix.toList.IsRotated v.proxySuffix.toList) := by
  obtain ⟨-, -, affixed, different, -⟩ := validate_eq_ok_iff.1 valid
  have apart : ∀ n, (interfaceName v n).canonical ≠ (fluentName v (proxyName v n)).canonical :=
    fun n => interfaceName_eq_fluentName_iff.not.2 different
  refine ⟨apart, fun n => ?_, fun n => ?_, ?_⟩
  · rw [interfaceName_eq_proxyName_iff, append_eq_iff, String.toList_eq_nil_iff,
      String.toList_eq_nil_iff, or_iff_right affixed]
  · rw [fluentName_eq_proxyName_iff, append_eq_iff, String.toList_eq_nil_iff,
      String.toList_eq_nil_iff]
  · have nodup : ∀ n, (ownNames v n).Nodup ↔
        ¬ (interfaceName v n).canonical = (proxyName v n).canonical ∧
        ¬ (fluentName v (proxyName v n)).canonical = (proxyName v n).canonical := by
      intro n
      have other := apart n
      unfold ownNames
      grind
    simp only [nodup, interfaceName_eq_proxyName_iff, fluentName_eq_proxyName_iff, forall_and,
      ← not_exists, exists_source_iff]

theorem ownNames_apart_standard :
    EngineOptions.validate {} = .ok {} ∧ ∀ n, (ownNames {} n).Nodup := by
  have valid : EngineOptions.validate {} = .ok {} := by decide +kernel
  exact ⟨valid, (ownNames_apart valid).2.2.2.2 (by decide +kernel)⟩

/-- Options without a fluent prefix and a proxy suffix are accepted, and every proxy's fluent wrapper has
the proxy's name; so are options in which the suffix repeats the interface prefix. -/
theorem ownNames_collide :
    EngineOptions.validate { proxySuffix := "", fluentPrefix := "" } =
      .ok { proxySuffix := "", fluentPrefix := "" } ∧
    ownNames { proxySuffix := "", fluentPrefix := "" } ⟨"Acme", "Point"⟩ =
      ["Acme.IPoint", "Acme.Point", "Acme.Point"] ∧
    EngineOptions.validate { proxySuffix := "I" } = .ok { proxySuffix := "I" } ∧
    ownNames { proxySuffix := "I" } ⟨"Acme", "I"⟩ = ["Acme.II", "Acme.II", "Acme.FluentI"] := by
  decide +kernel

end Synthesis

end FluentWrappers
