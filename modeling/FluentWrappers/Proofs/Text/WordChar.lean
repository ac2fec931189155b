import FluentWrappers.Text.Unicode

/-!
# Search in sorted ranges, and the word class

In a table whose ranges ascend, binary search finds a code point exactly if some range holds it. The
table of word characters ascends and begins above ASCII, so a word character is an ASCII letter, an
ASCII digit, the low line, or a code point of one of the table's ranges.
-/

namespace FluentWrappers.Text

/-! ### Ascending ranges -/

/-- Whether the ranges are in order from a first point on: each holds a point, and the next begins
after its end. -/
def ascendFrom : Nat → List (Nat × Nat) → Bool
  | _, [] => true
  | start, (first, last) :: rest =>
    Nat.ble start first && Nat.ble first last && ascendFrom (last + 1) rest

variable {ranges : List (Nat × Nat)} {start : Nat}

theorem ascendFrom_cons {first last : Nat} {rest : List (Nat × Nat)} :
    ascendFrom start ((first, last) :: rest) = true ↔
      start ≤ first ∧ first ≤ last ∧ ascendFrom (last + 1) rest = true := by
  rw [ascendFrom, Bool.and_eq_true, Bool.and_eq_true, Nat.ble_eq, Nat.ble_eq, and_assoc]

theorem bounds_of_ascendFrom (ascend : ascendFrom start ranges = true) :
    ∀ r ∈ ranges, start ≤ r.1 ∧ r.1 ≤ r.2 := by
  induction ranges generalizing start with
  | nil => simp
  | cons range rest ih =>
    obtain ⟨low, high, after⟩ := ascendFrom_cons.1 ascend
    rintro r (_ | ⟨_, later⟩)
    · exact ⟨low, high⟩
    · obtain ⟨above, inside⟩ := ih after r later
      exact ⟨by omega, inside⟩

theorem pairwise_of_ascendFrom (ascend : ascendFrom start ranges = true) :
    ranges.Pairwise fun r s => r.2 < s.1 := by
  induction ranges generalizing start with
  | nil => exact List.Pairwise.nil
  | cons range rest ih =>
    obtain ⟨-, -, after⟩ := ascendFrom_cons.1 ascend
    exact List.pairwise_cons.2 ⟨fun s later => (bounds_of_ascendFrom after s later).1, ih after⟩

/-! ### Binary search -/

namespace CharRanges

variable {table : CharRanges} {i j point low high : Nat} {r s : Nat × Nat}

/-- Along an ascending table, beginnings and ends of ranges ascend. -/
theorem bounds_mono (ascend : ascendFrom start table.toList = true) (earlier : i ≤ j)
    (first : table[i]? = some r) (second : table[j]? = some s) : r.1 ≤ s.1 ∧ r.2 ≤ s.2 := by
  obtain ⟨inside, rfl⟩ := Array.getElem?_eq_some_iff.1 first
  obtain ⟨inside', rfl⟩ := Array.getElem?_eq_some_iff.1 second
  rcases Nat.eq_or_lt_of_le earlier with rfl | apart
  · exact ⟨Nat.le_refl _, Nat.le_refl _⟩
  · have ordered := List.pairwise_iff_getElem.1 (pairwise_of_ascendFrom ascend) i j inside inside' apart
    have bounds := bounds_of_ascendFrom ascend
    have holds := (bounds table[i] (Array.getElem_mem_toList inside)).2
    have holds' := (bounds table[j] (Array.getElem_mem_toList inside')).2
    rw [Array.getElem_toList, Array.getElem_toList] at ordered
    omega

theorem search_eq_true_iff (ascend : ascendFrom start table.toList = true) (within : high ≤ table.size) :
    table.search point low high = true ↔
      ∃ i r, low ≤ i ∧ i < high ∧ table[i]? = some r ∧ r.1 ≤ point ∧ point ≤ r.2 := by
  fun_induction CharRanges.search table point low high with
  | case1 low high below middle missing =>
    have outside : table.size ≤ middle := Array.getElem?_eq_none_iff.1 missing
    omega
  | case2 low high below middle first last there under ih =>
    rw [ih (by omega)]
    constructor
    · rintro ⟨i, r, after, before, found, holds⟩
      exact ⟨i, r, after, by omega, found, holds⟩
    · rintro ⟨i, r, after, -, found, begins, ends⟩
      -- the range in the middle begins above the point, and so do all behind it
      have before : i < middle := by
        refine Nat.lt_of_not_le fun late => ?_
        have := (bounds_mono ascend late there found).1
        omega
      exact ⟨i, r, after, before, found, begins, ends⟩
  | case3 low high below middle first last there reached passed ih =>
    rw [ih within]
    constructor
    · rintro ⟨i, r, after, before, found, holds⟩
      exact ⟨i, r, by omega, before, found, holds⟩
    · rintro ⟨i, r, -, before, found, begins, ends⟩
      -- the range in the middle ends below the point, and so do all in front of it
      have after : middle < i := by
        refine Nat.lt_of_not_le fun early => ?_
        have := (bounds_mono ascend early found there).2
        omega
      exact ⟨i, r, after, before, found, begins, ends⟩
  | case4 low high below middle first last there reached kept =>
    simp only [true_iff]
    exact ⟨middle, (first, last), by omega, by omega, there, Nat.not_lt.1 reached, Nat.not_lt.1 kept⟩
  | case5 low high empty =>
    simp only [Bool.false_eq_true, false_iff]
    rintro ⟨i, r, after, before, -⟩
    omega

theorem contains_eq_true_iff (ascend : ascendFrom start table.toList = true) {c : Char} :
    table.contains c = true ↔ ∃ r ∈ table, r.1 ≤ c.toNat ∧ c.toNat ≤ r.2 := by
  unfold CharRanges.contains
  rw [search_eq_true_iff ascend (Nat.le_refl _)]
  constructor
  · rintro ⟨i, r, -, -, found, holds⟩
    exact ⟨r, Array.mem_of_getElem? found, holds⟩
  · rintro ⟨r, member, holds⟩
    obtain ⟨i, inside, rfl⟩ := Array.mem_iff_getElem.1 member
    exact ⟨i, table[i], Nat.zero_le i, inside, Array.getElem?_eq_getElem inside, holds⟩

end CharRanges

/-! ### The word class -/

/-- The word class: ASCII letters and digits, the low line, and the code points of the word ranges. -/
def InWordClass (c : Char) : Prop :=
  c.isAlphanum = true ∨ c = '_' ∨ ∃ r ∈ wordTable, r.1 ≤ c.toNat ∧ c.toNat ≤ r.2

theorem ascendFrom_wordTable : ascendFrom 128 wordTable.toList = true := by decide +kernel

theorem isAscii_of_isAlphanum {c : Char} (h : c.isAlphanum = true) : c.toNat < 128 := by
  have within {last : UInt32} (h : c.val ≤ last) (ascii : last.toNat < 128) : c.toNat < 128 :=
    Nat.lt_of_le_of_lt (UInt32.le_iff_toNat_le.1 h) ascii
  rcases Bool.or_eq_true_iff.1 h with letter | digit
  · rcases Bool.or_eq_true_iff.1 letter with upper | lower
    · exact within (of_decide_eq_true upper).2 (by decide)
    · exact within (of_decide_eq_true (Bool.and_eq_true_iff.1 lower).2) (by decide)
  · exact within (of_decide_eq_true (Bool.and_eq_true_iff.1 digit).2) (by decide)

theorem isWordChar_iff {c : Char} : isWordChar c = true ↔ InWordClass c := by
  have table : wordTable.contains c = true ↔ ∃ r ∈ wordTable, r.1 ≤ c.toNat ∧ c.toNat ≤ r.2 :=
    CharRanges.contains_eq_true_iff ascendFrom_wordTable
  unfold isWordChar InWordClass
  split
  case isTrue ascii =>
    have above : ¬ ∃ r ∈ wordTable, r.1 ≤ c.toNat ∧ c.toNat ≤ r.2 := by
      rintro ⟨r, member, begins, -⟩
      have high := (bounds_of_ascendFrom ascendFrom_wordTable r (Array.mem_toList_iff.2 member)).1
      omega
    rw [Bool.or_eq_true, beq_iff_eq, or_iff_left above]
  case isFalse high =>
    have noAlphanum : ¬ c.isAlphanum = true := fun h => high (isAscii_of_isAlphanum h)
    have noLowLine : c ≠ '_' := by
      rintro rfl
      exact high (by decide)
    rw [table, or_iff_right noAlphanum, or_iff_right noLowLine]

instance (c : Char) : Decidable (InWordClass c) :=
  decidable_of_iff (isWordChar c = true) isWordChar_iff

theorem decide_inWordClass (c : Char) : decide (InWordClass c) = isWordChar c :=
  Bool.eq_iff_iff.2 (decide_eq_true_iff.trans isWordChar_iff.symm)

end FluentWrappers.Text
