import Mathlib.Data.List.Sort
import Mathlib.Data.String.Basic

/-!
# Lists without repetitions

What is left of a list when repetitions are erased stands in the order of its first occurrences. If the
list was sorted, it ascends. If no two elements of a list share a key, each is found by its own.
-/

namespace FluentWrappers.FirstOccurrence

variable {α : Type} [BEq α] [LawfulBEq α]

/-- Among the elements that a filter keeps, the one that comes first came first before. -/
theorem idxOf_lt_of_filter {keep : α → Bool} {a b : α} {l : List α} (keepsA : keep a = true)
    (keepsB : keep b = true) (before : (l.filter keep).idxOf a < (l.filter keep).idxOf b) :
    l.idxOf a < l.idxOf b := by
  induction l with
  | nil => exact before
  | cons x l ih =>
    by_cases keepsX : keep x = true
    · rw [List.filter_cons_of_pos keepsX, List.idxOf_cons, List.idxOf_cons] at before
      rw [List.idxOf_cons, List.idxOf_cons]
      cases isB : x == b with
      | true => simp [isB] at before
      | false =>
        cases isA : x == a with
        | true => simp
        | false =>
          simp only [isA, isB, cond_false] at before ⊢
          exact Nat.succ_lt_succ (ih (Nat.lt_of_succ_lt_succ before))
    · rw [List.filter_cons_of_neg keepsX] at before
      have notA : x ≠ a := fun same => keepsX (same ▸ keepsA)
      have notB : x ≠ b := fun same => keepsX (same ▸ keepsB)
      rw [List.idxOf_cons_ne l notA, List.idxOf_cons_ne l notB]
      exact Nat.succ_lt_succ (ih before)

/-- Elements are kept where they occur first. -/
theorem pairwise_eraseDups (l : List α) :
    l.eraseDups.Pairwise fun a b => l.idxOf a < l.idxOf b := by
  match l with
  | [] => exact .nil
  | x :: l =>
    have fewer : (l.filter fun y => !y == x).length < (x :: l).length :=
      Nat.lt_succ_of_le (List.length_filter_le _ l)
    have isOther {y : α} (isIn : y ∈ (l.filter fun y => !y == x).eraseDups) : x ≠ y := by
      have kept := (List.mem_filter.1 (List.mem_eraseDups.1 isIn)).2
      rintro rfl
      simp at kept
    rw [List.eraseDups_cons]
    refine .cons (fun y isIn => ?_) ?_
    · rw [List.idxOf_cons_self, List.idxOf_cons_ne l (isOther isIn)]
      exact Nat.succ_pos _
    · refine (pairwise_eraseDups (l.filter fun y => !y == x)).imp_of_mem fun isA isB before => ?_
      rw [List.idxOf_cons_ne l (isOther isA), List.idxOf_cons_ne l (isOther isB)]
      exact Nat.succ_lt_succ (idxOf_lt_of_filter (List.mem_filter.1 (List.mem_eraseDups.1 isA)).2
        (List.mem_filter.1 (List.mem_eraseDups.1 isB)).2 before)
termination_by l.length
decreasing_by exact fewer

theorem eraseDups_concat [DecidableEq α] (l : List α) (x : α) :
    (l ++ [x]).eraseDups = if x ∈ l then l.eraseDups else l.eraseDups ++ [x] := by
  rw [List.eraseDups_append]
  by_cases old : x ∈ l
  · rw [if_pos old, List.removeAll, List.filter_cons_of_neg (by simpa using old)]
    exact List.append_nil _
  · rw [if_neg old, List.removeAll, List.filter_cons_of_pos (by simpa using old)]
    rfl

theorem nodup_eraseDups (l : List α) : l.eraseDups.Nodup := by
  refine (pairwise_eraseDups l).imp fun {a b} before => ?_
  rintro rfl
  exact Nat.lt_irrefl _ before

theorem pairwise_lt_of_sorted {names : List String} (sorted : names.Pairwise (· ≤ ·)) :
    names.eraseDups.Pairwise (· < ·) := by
  refine (pairwise_eraseDups names).imp_of_mem fun {a b} isA isB before => ?_
  have isInA := List.idxOf_lt_length_iff.2 (List.mem_eraseDups.1 isA)
  have isInB := List.idxOf_lt_length_iff.2 (List.mem_eraseDups.1 isB)
  have inOrder := List.pairwise_iff_getElem.1 sorted _ _ isInA isInB before
  rw [List.getElem_idxOf, List.getElem_idxOf] at inOrder
  refine lt_of_le_of_ne inOrder fun same => ?_
  exact Nat.lt_irrefl _ (same ▸ before)

/-! ### Look-up by key -/

theorem find?_of_alone {β : Type} {p : β → Bool} {l : List β} {x : β} (isIn : x ∈ l)
    (passes : p x = true) (alone : ∀ y ∈ l, p y = true → y = x) : l.find? p = some x := by
  cases found : l.find? p with
  | none => exact absurd passes (List.find?_eq_none.1 found x isIn)
  | some y => rw [alone y (List.mem_of_find?_eq_some found) (List.find?_some found)]

theorem find?_key {β : Type} {key : β → α} {l : List β} {x : β} (distinct : (l.map key).Nodup)
    (isIn : x ∈ l) : l.find? (fun y => key y == key x) = some x :=
  find?_of_alone isIn BEq.rfl fun _ isOther same =>
    List.inj_on_of_nodup_map distinct isOther isIn (eq_of_beq same)

end FluentWrappers.FirstOccurrence
