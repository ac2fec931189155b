import FluentWrappers.Checksum
import Mathlib.Logic.Function.Basic

/-!
# What the checksum tells apart

A shift of the register loses nothing: the bit that falls out at the low end comes back as the high
bit of the polynomial. So each step is injective in the register and in the byte, and messages that
differ in one byte have different checksums, whatever their length.
-/

namespace FluentWrappers.Checksum

/-! ### One shift -/

theorem low_bit_iff (register : UInt32) :
    register &&& 1 = 1 ↔ register.toBitVec.getLsbD 0 = true := by
  rw [← UInt32.toBitVec_inj, UInt32.toBitVec_and]
  have one : (1 : UInt32).toBitVec = 1#32 := rfl
  rw [one, BitVec.and_one_eq_setWidth_ofBool_getLsbD]
  cases register.toBitVec.getLsbD 0 <;> decide

/-- Each bit of a shifted register is the next higher one, turned over where the polynomial has a bit
if the lowest bit was set. -/
theorem getLsbD_crcShift (register : UInt32) (i : Nat) :
    (crcShift register).toBitVec.getLsbD i =
      (register.toBitVec.getLsbD (1 + i) ^^
        (register.toBitVec.getLsbD 0 && (0xedb88320#32).getLsbD i)) := by
  unfold crcShift
  split
  case isTrue low =>
    rw [low_bit_iff] at low
    simp [UInt32.toBitVec_shiftRight, -BitVec.getLsbD_eq_getElem, low]
  case isFalse low =>
    rw [low_bit_iff, Bool.not_eq_true] at low
    simp [UInt32.toBitVec_shiftRight, -BitVec.getLsbD_eq_getElem, low]

theorem crcShift_injective : Function.Injective crcShift := by
  intro r s same
  have bits (i : Nat) := congrArg (fun register => register.toBitVec.getLsbD i) same
  simp only [getLsbD_crcShift] at bits
  have lowest : r.toBitVec.getLsbD 0 = s.toBitVec.getLsbD 0 := by
    have top := bits 31
    have set : (0xedb88320#32).getLsbD 31 = true := by decide
    simpa [set, BitVec.getLsbD_of_ge] using top
  rw [← UInt32.toBitVec_inj]
  apply BitVec.eq_of_getLsbD_eq
  intro i _
  cases i with
  | zero => exact lowest
  | succ i =>
    have next := bits i
    rw [lowest, Nat.add_comm 1 i] at next
    exact Bool.xor_left_inj.1 next

/-! ### Bytes and messages -/

theorem crcShifts_injective (n : Nat) : Function.Injective (crcShifts n) := by
  induction n with
  | zero => exact Function.injective_id
  | succ n ih => exact ih.comp crcShift_injective

theorem crcByte_injective (byte : UInt8) : Function.Injective (crcByte · byte) := by
  intro r s same
  exact UInt32.xor_left_inj _ |>.1 (crcShifts_injective 8 same)

theorem crcByte_right_injective (register : UInt32) : Function.Injective (crcByte register) := by
  intro b c same
  have words : b.toUInt32 = c.toUInt32 :=
    UInt32.xor_right_inj _ |>.1 (crcShifts_injective 8 same)
  exact UInt8.toUInt32_inj.1 words

theorem foldl_crcByte_injective (bytes : List UInt8) :
    Function.Injective (bytes.foldl crcByte ·) := by
  induction bytes with
  | nil => exact Function.injective_id
  | cons b rest ih => exact ih.comp (crcByte_injective b)

/-- Messages that differ in exactly one byte have different checksums. -/
theorem crc32_ne_of_ne (before after : List UInt8) {b c : UInt8} (different : b ≠ c) :
    crc32 (before ++ b :: after) ≠ crc32 (before ++ c :: after) := by
  intro same
  have folds := UInt32.not_inj.1 same
  rw [List.foldl_append, List.foldl_append] at folds
  exact different (crcByte_right_injective _ (foldl_crcByte_injective after folds))

theorem crc32_set_ne {bytes : List UInt8} {i : Nat} {c : UInt8} (changed : bytes.set i c ≠ bytes) :
    crc32 (bytes.set i c) ≠ crc32 bytes := by
  have within : i < bytes.length := by
    by_contra outside
    exact changed (List.set_eq_of_length_le (Nat.le_of_not_lt outside))
  have different : bytes[i] ≠ c := by
    intro same
    exact changed (same ▸ List.set_getElem_self within)
  have split : bytes = bytes.take i ++ bytes[i] :: bytes.drop (i + 1) := by simp
  have replaced : bytes.set i c = bytes.take i ++ c :: bytes.drop (i + 1) :=
    List.set_eq_take_append_cons_drop.trans (if_pos within)
  intro same
  have sums := congrArg crc32 split
  rw [← same, replaced] at sums
  exact crc32_ne_of_ne _ _ different sums.symm

end FluentWrappers.Checksum
