import FluentWrappers.Text.Basic
import Mathlib.Data.Nat.Digits.Defs

/-!
# Numerals tell their numbers

Leading zeros do not change what digits are read as, so that a padded numeral tells its number, in
decimal and in hexadecimal. Decimal numerals hold digits only.
-/

namespace FluentWrappers.Text

/-! ### Decimal -/

theorem ofDigitChars_replicate_zero (count : Nat) :
    Nat.ofDigitChars 10 (List.replicate count '0') 0 = 0 := by
  induction count with
  | zero => rfl
  | succ count ih =>
    rw [List.replicate_succ', Nat.ofDigitChars_append, ih]
    rfl

theorem ofDigitChars_paddedDecimal (width value : Nat) :
    Nat.ofDigitChars 10 (paddedDecimal width value).toList 0 = value := by
  rw [paddedDecimal, String.toList_ofList, Nat.ofDigitChars_append, ofDigitChars_replicate_zero,
    Nat.ofDigitChars_ten_toDigits]

theorem paddedDecimal_injective (width : Nat) {a b : Nat}
    (same : (paddedDecimal width a).toList = (paddedDecimal width b).toList) : a = b := by
  rw [← ofDigitChars_paddedDecimal width a, same, ofDigitChars_paddedDecimal]

theorem isDigit_of_mem_paddedDecimal {width value : Nat} {c : Char}
    (mem : c ∈ (paddedDecimal width value).toList) : c.isDigit = true := by
  rw [paddedDecimal, String.toList_ofList] at mem
  rcases List.mem_append.1 mem with zero | digit
  · rw [List.eq_of_mem_replicate zero]
    rfl
  · exact Nat.isDigit_of_mem_toDigits (by decide) (by decide) digit

theorem paddedDecimal_pos {width : Nat} (positive : 0 < width) (value : Nat) :
    0 < (paddedDecimal width value).toList.length := by
  rw [paddedDecimal, String.toList_ofList, List.length_append, List.length_replicate]
  omega

/-! ### Hexadecimal -/

/-- The number that hexadecimal digits are read as. -/
def ofHexDigits (digits : List Char) : Nat :=
  digits.foldl (fun value c => 16 * value + (hexValue? c).getD 0) 0

theorem ofHexDigits_concat (digits : List Char) (c : Char) :
    ofHexDigits (digits ++ [c]) = 16 * ofHexDigits digits + (hexValue? c).getD 0 := by
  rw [ofHexDigits, List.foldl_append]
  rfl

theorem hexValue?_hexDigit {value : Nat} (digit : value < 16) :
    hexValue? (hexDigit value) = some value := by
  revert value
  decide

theorem ofHexDigits_hexDigits (value : Nat) : ofHexDigits (hexDigits value) = value := by
  induction value using Nat.strongRecOn with
  | ind value ih =>
    unfold hexDigits
    split
    case isTrue digit =>
      show 16 * 0 + (hexValue? (hexDigit value)).getD 0 = value
      rw [hexValue?_hexDigit digit]
      exact Nat.zero_add value
    case isFalse more =>
      rw [ofHexDigits_concat, ih (value / 16) (by omega), hexValue?_hexDigit (by omega)]
      exact Nat.div_add_mod value 16

theorem ofHexDigits_zeros (count : Nat) (digits : List Char) :
    ofHexDigits (List.replicate count '0' ++ digits) = ofHexDigits digits := by
  induction count with
  | zero => rfl
  | succ count ih => exact ih

theorem paddedHex_injective (width : Nat) {a b : Nat}
    (same : (paddedHex width a).toList = (paddedHex width b).toList) : a = b := by
  have read (value : Nat) : ofHexDigits (paddedHex width value).toList = value := by
    rw [paddedHex, String.toList_ofList, ofHexDigits_zeros, ofHexDigits_hexDigits]
  rw [← read a, same, read]

end FluentWrappers.Text
