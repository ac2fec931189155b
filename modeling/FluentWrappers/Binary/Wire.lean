import FluentWrappers.Text.Basic

/-!
# Bytes of the basic values (`SPEC_FULL.md`, 10.7, artifact binary format)

How words, text, optional values and lists are laid out, and a buffer to write them to. Words have their
least significant byte first. Lengths and counts take four bytes, so they are kept only below `2 ^ 32`.
-/

namespace FluentWrappers.Binary

/-! ### Little-endian words -/

/-- The number of words of `width` bytes. -/
def wordCount : Nat → Nat
  | 0 => 1
  | width + 1 => 256 * wordCount width

/-- The `width` little-endian bytes of a number. -/
def littleEndian : Nat → Nat → List UInt8
  | 0, _ => []
  | width + 1, n => UInt8.ofNat (n % 256) :: littleEndian width (n / 256)

def ofLittleEndian : List UInt8 → Nat
  | [] => 0
  | b :: rest => b.toNat + 256 * ofLittleEndian rest

@[simp] theorem length_littleEndian (width n : Nat) : (littleEndian width n).length = width := by
  induction width generalizing n with
  | zero => rfl
  | succ width ih => simp [littleEndian, ih]

theorem ofLittleEndian_littleEndian (width n : Nat) :
    ofLittleEndian (littleEndian width n) = n % wordCount width := by
  induction width generalizing n with
  | zero => simp only [littleEndian, ofLittleEndian, wordCount, Nat.mod_one]
  | succ width ih =>
    have byte : (UInt8.ofNat (n % 256)).toNat = n % 256 := by
      simp [UInt8.toNat_ofNat']
    rw [littleEndian, ofLittleEndian, ih, byte, wordCount, Nat.mod_mul]

theorem littleEndian_ofLittleEndian (bytes : List UInt8) :
    littleEndian bytes.length (ofLittleEndian bytes) = bytes := by
  induction bytes with
  | nil => rfl
  | cons b rest ih =>
    have bound : b.toNat < 256 := b.toNat_lt
    have low : (b.toNat + 256 * ofLittleEndian rest) % 256 = b.toNat := by omega
    have high : (b.toNat + 256 * ofLittleEndian rest) / 256 = ofLittleEndian rest := by omega
    rw [List.length_cons, littleEndian, ofLittleEndian, low, high, ih, UInt8.ofNat_toNat]

theorem ofLittleEndian_lt (bytes : List UInt8) : ofLittleEndian bytes < wordCount bytes.length := by
  induction bytes with
  | nil => exact Nat.one_pos
  | cons b rest ih =>
    have bound : b.toNat < 256 := b.toNat_lt
    rw [ofLittleEndian, List.length_cons, wordCount]
    omega

end FluentWrappers.Binary

namespace FluentWrappers.Binary.Wire

/-! ### Basic values -/

def u8 (value : UInt8) : List UInt8 := [value]

def bool (value : Bool) : List UInt8 := [if value then 1 else 0]

def u16 (value : UInt16) : List UInt8 := littleEndian 2 value.toNat

def u32 (value : UInt32) : List UInt8 := littleEndian 4 value.toNat

def i64 (value : Int64) : List UInt8 := littleEndian 8 value.toUInt64.toNat

def count (n : Nat) : List UInt8 := u32 (UInt32.ofNat n)

def string (text : String) : List UInt8 :=
  let bytes := Text.utf8 text
  count bytes.length ++ bytes

/-- A presence byte and the value, if there is one. -/
def optional {α : Type} (item : α → List UInt8) : Option α → List UInt8
  | some value => u8 1 ++ item value
  | none => u8 0

/-- Items after their number. -/
def list {α : Type} (item : α → List UInt8) (values : List α) : List UInt8 :=
  count values.length ++ values.flatMap item

end FluentWrappers.Binary.Wire

namespace FluentWrappers.Binary

/-! ### Writing bytes -/

structure Writer where
  bytes : List UInt8
  deriving DecidableEq, Repr

namespace Writer

def empty : Writer := ⟨[]⟩

def offset (w : Writer) : Nat := w.bytes.length

def emit (w : Writer) (more : List UInt8) : Writer := ⟨w.bytes ++ more⟩

/-- The writer with the bytes at an offset replaced, if they lie within what is written. -/
def patch? (w : Writer) (offset : Nat) (bytes : List UInt8) : Option Writer :=
  if offset + bytes.length ≤ w.offset then
    some ⟨w.bytes.take offset ++ bytes ++ w.bytes.drop (offset + bytes.length)⟩
  else none

/-- The writer after a word to be filled in later, and the offset of that word. -/
def reserve (w : Writer) : Writer × Nat :=
  (w.emit (Wire.u32 0), w.offset)

end Writer

end FluentWrappers.Binary
