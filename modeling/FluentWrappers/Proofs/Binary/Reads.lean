import FluentWrappers.Binary.Reader
import FluentWrappers.Binary.Wire
import FluentWrappers.Proofs.Fallible

/-!
# Reads of written bytes

`Reads item bytes value` says that `item` takes exactly `bytes` wherever a reader stands in front of
them, whatever follows, and gives `value`. The basic values and their combinations are read back in
this sense, as long as lengths and counts fit in the four bytes that hold them.
-/

namespace FluentWrappers.Binary

open Fallible

/-! ### Readers in front of given bytes -/

/-- The reader stands within its buffer and the given bytes come next. -/
def Reader.Faces (r : Reader) (bytes : List UInt8) : Prop :=
  r.position ≤ r.size ∧ bytes <+: r.rest

namespace Reader

theorem length_rest (r : Reader) : r.rest.length = r.size - r.position := by
  rw [r.rest_eq, r.size_eq, List.length_drop]

theorem Faces.bound {r : Reader} {bytes : List UInt8} (h : r.Faces bytes) :
    r.position + bytes.length ≤ r.size := by
  have within := h.1
  have shorter := h.2.length_le
  rw [length_rest] at shorter
  omega

theorem Faces.left {r : Reader} {xs ys : List UInt8} (h : r.Faces (xs ++ ys)) : r.Faces xs :=
  ⟨h.1, (List.prefix_append xs ys).trans h.2⟩

theorem Faces.right {r : Reader} {xs ys : List UInt8} (h : r.Faces (xs ++ ys)) :
    (r.advance xs.length).Faces ys := by
  obtain ⟨tail, ht⟩ := h.2
  refine ⟨h.left.bound, tail, ?_⟩
  show ys ++ tail = r.rest.drop xs.length
  rw [← ht, List.append_assoc, List.drop_left]

theorem Faces.take {r : Reader} {bytes : List UInt8} (h : r.Faces bytes) :
    r.rest.take bytes.length = bytes := by
  obtain ⟨tail, ht⟩ := h.2
  rw [← ht, List.take_left]

@[simp] theorem advance_zero (r : Reader) : r.advance 0 = r := by
  cases r
  rfl

@[simp] theorem advance_advance (r : Reader) (a b : Nat) :
    (r.advance a).advance b = r.advance (a + b) := by
  simp only [advance, Nat.add_assoc, List.drop_drop]

theorem advance_seek (r : Reader) (position count : Nat) :
    (r.seek position).advance count = r.seek (position + count) := by
  simp only [seek, advance, List.drop_drop]

theorem stop_of_le {r : Reader} {count : Nat} (h : r.position + count ≤ r.size) :
    r.stop count = r.position + count := by
  have room : r.size + 1 ≤ r.offsetCount := Nat.le_max_right _ _
  exact Nat.mod_eq_of_lt (by omega)

end Reader

/-! ### Exact reads -/

/-- The read takes exactly the given bytes and gives the value. -/
def Reads {α : Type} (item : Read α) (bytes : List UInt8) (value : α) : Prop :=
  ∀ r : Reader, r.Faces bytes → item r = (.ok value, r.advance bytes.length)

@[simp] theorem reader_apply (r : Reader) : Read.reader r = (.ok r, r) := rfl

/-- What is written anywhere among other bytes is read there, and the reader stands behind it. -/
theorem Reads.amid {α : Type} {item : Read α} {bytes : List UInt8} {value : α}
    (h : Reads item bytes value) (before after : List UInt8) :
    let file := Reader.ofBytes (before ++ bytes ++ after)
    item (file.seek before.length) = (.ok value, file.seek (before.length + bytes.length)) := by
  intro file
  have rest : (file.seek before.length).rest = bytes ++ after := by
    show (before ++ bytes ++ after).drop before.length = bytes ++ after
    rw [List.append_assoc, List.drop_left]
  have faces : (file.seek before.length).Faces bytes := by
    refine ⟨?_, rest ▸ List.prefix_append bytes after⟩
    show before.length ≤ (before ++ bytes ++ after).length
    simp only [List.length_append]
    omega
  rw [h _ faces, Reader.advance_seek]

section
variable {α β : Type}

theorem reads_pure (value : α) : Reads (pure value) [] value := by
  intro r _
  simp

theorem Reads.bind {item : Read α} {f : α → Read β} {xs ys : List UInt8} {a : α} {b : β}
    (first : Reads item xs a) (second : Reads (f a) ys b) :
    Reads (item >>= f) (xs ++ ys) b := by
  intro r h
  rw [bind_ok (first r h.left), second _ h.right, Reader.advance_advance, List.length_append]

theorem Reads.map {item : Read α} {xs : List UInt8} {a : α} (read : Reads item xs a) (f : α → β) :
    Reads (do let x ← item; pure (f x)) xs (f a) := by
  have both := read.bind (f := fun x => pure (f x)) (reads_pure (f a))
  rwa [List.append_nil] at both

theorem bytes_of_there {r : Reader} {count : Nat} (there : r.position + count ≤ r.size) :
    Read.bytes count r = (.ok (r.rest.take count), r.advance count) := by
  unfold Read.bytes
  rw [bind_ok (reader_apply r), Reader.stop_of_le there, if_neg (by omega), if_neg (by omega)]
  rfl

theorem reads_bytes {bytes : List UInt8} {count : Nat} (h : bytes.length = count) :
    Reads (Read.bytes count) bytes bytes := by
  intro r faces
  subst h
  rw [bytes_of_there faces.bound, faces.take]

theorem reads_u8 (b : UInt8) : Reads Read.u8 [b] b := by
  have one : [b].length = 1 := rfl
  exact (reads_bytes one).map fun bs => bs.headD 0

theorem reads_bool (b : Bool) : Reads Read.bool (Wire.bool b) b := by
  have read := (reads_u8 (if b then 1 else 0)).map fun byte => byte != 0
  cases b <;> exact read

theorem reads_u16 (w : UInt16) : Reads Read.u16 (Wire.u16 w) w := by
  have read := (reads_bytes (length_littleEndian 2 w.toNat)).map
    fun bs => UInt16.ofNat (ofLittleEndian bs)
  have fits : w.toNat < wordCount 2 := w.toNat_lt_size
  rwa [ofLittleEndian_littleEndian, Nat.mod_eq_of_lt fits, UInt16.ofNat_toNat] at read

theorem reads_u32 (w : UInt32) : Reads Read.u32 (Wire.u32 w) w := by
  have read := (reads_bytes (length_littleEndian 4 w.toNat)).map
    fun bs => UInt32.ofNat (ofLittleEndian bs)
  have fits : w.toNat < wordCount 4 := w.toNat_lt_size
  rwa [ofLittleEndian_littleEndian, Nat.mod_eq_of_lt fits, UInt32.ofNat_toNat] at read

theorem reads_i64 (i : Int64) : Reads Read.i64 (Wire.i64 i) i := by
  have read := (reads_bytes (length_littleEndian 8 i.toUInt64.toNat)).map
    fun bs => (UInt64.ofNat (ofLittleEndian bs)).toInt64
  have fits : i.toUInt64.toNat < wordCount 8 := i.toUInt64.toNat_lt_size
  rwa [ofLittleEndian_littleEndian, Nat.mod_eq_of_lt fits, UInt64.ofNat_toNat] at read

/-- A length or count below `UInt32.size` survives its four bytes. -/
theorem reads_count {n : Nat} (h : n < UInt32.size) :
    Reads Read.u32 (Wire.count n) (UInt32.ofNat n) ∧ (UInt32.ofNat n).toNat = n :=
  ⟨reads_u32 _, UInt32.toNat_ofNat_of_lt' h⟩

theorem reads_string {text : String} (h : (Text.utf8 text).length < UInt32.size) :
    Reads Read.string (Wire.string text) text := by
  obtain ⟨read, same⟩ := reads_count h
  refine read.bind ?_
  intro r faces
  rw [bind_ok (reader_apply r), bind_ok (reads_bytes same.symm r faces), Text.ofUtf8?_utf8]
  rfl

theorem reads_optional {item : Read α} {write : α → List UInt8} {value : Option α}
    (h : ∀ a ∈ value, Reads item (write a) a) :
    Reads (Read.optional item) (Wire.optional write value) value := by
  cases value with
  | none => exact (reads_bool false).bind (reads_pure none)
  | some a => exact (reads_bool true).bind ((h a rfl).map some)

theorem reads_tag {role : TagRole} {meaning : UInt8 → Option α} {b : UInt8} {a : α}
    (h : meaning b = some a) : Reads (Read.tag role meaning) [b] a := by
  intro r faces
  unfold Read.tag
  rw [bind_ok (reader_apply r), bind_ok (reads_u8 b r faces), h]
  rfl

theorem reads_times {item : Read α} {write : α → List UInt8} {values : List α}
    (h : ∀ a ∈ values, Reads item (write a) a) :
    Reads (Read.times item values.length) (values.flatMap write) values := by
  induction values with
  | nil => exact reads_pure []
  | cons a rest ih =>
    have tail := ih fun b hb => h b (List.mem_cons_of_mem a hb)
    rw [List.flatMap_cons]
    exact (h a List.mem_cons_self).bind (tail.map (a :: ·))

theorem reads_list {item : Read α} {write : α → List UInt8} {values : List α}
    (size : values.length < UInt32.size) (h : ∀ a ∈ values, Reads item (write a) a) :
    Reads (Read.list item) (Wire.list write values) values := by
  obtain ⟨read, same⟩ := reads_count size
  refine read.bind ?_
  rw [same]
  exact reads_times h

end

/-! ### Reads that succeed -/

/-- A read that gives a value within the buffer has moved past the given number of bytes, all of
which were there. -/
def Moves {α : Type} (item : Read α) (count : Nat) : Prop :=
  ∀ (r r' : Reader) (value : α), r.position ≤ r.size → item r = (.ok value, r') →
    r.position + count ≤ r.size ∧ r' = r.advance count

section
variable {α β : Type}

/-- A stop that is not before the position has not wrapped around. -/
theorem Reader.stop_of_forward {r : Reader} {count : Nat} (within : r.position ≤ r.size)
    (small : count < addressSpace) (forward : r.position ≤ r.stop count) :
    r.stop count = r.position + count := by
  have words : addressSpace ≤ r.offsetCount := Nat.le_max_left _ _
  have room : r.size + 1 ≤ r.offsetCount := Nat.le_max_right _ _
  by_cases wraps : r.offsetCount ≤ r.position + count
  · have wrapped : r.stop count = r.position + count - r.offsetCount := by
      unfold stop
      rw [Nat.mod_eq_sub_mod wraps, Nat.mod_eq_of_lt (by omega)]
    omega
  · exact Nat.mod_eq_of_lt (by omega)

theorem moves_bytes {count : Nat} (small : count < addressSpace) : Moves (Read.bytes count) count := by
  intro r r' value within h
  unfold Read.bytes at h
  rw [bind_ok (reader_apply r)] at h
  split at h
  · cases h
  split at h
  · cases h
  rename_i enough forward
  rw [Reader.stop_of_forward within small (by omega)] at enough
  rw [bind_ok (set_apply r _)] at h
  cases h
  exact ⟨by omega, rfl⟩

/-- A read that reaches past the end fails, whether or not its end wraps around. -/
theorem bytes_short {r : Reader} {count : Nat} (within : r.position ≤ r.size)
    (small : count < addressSpace) (beyond : r.size < r.position + count) :
    ∃ cause, Read.bytes count r = (.error cause, r) := by
  unfold Read.bytes
  rw [bind_ok (reader_apply r)]
  by_cases past : r.size < r.stop count
  · rw [if_pos past]
    exact ⟨_, rfl⟩
  · have wrapped : r.stop count < r.position := by
      refine Nat.lt_of_not_le fun forward => past ?_
      rw [Reader.stop_of_forward within small forward]
      exact beyond
    rw [if_neg past, if_pos wrapped]
    exact ⟨_, rfl⟩

theorem u8_value {r r' : Reader} {b : UInt8} (h : Read.u8 r = (.ok b, r')) : b = r.rest.headD 0 := by
  obtain ⟨bytes, t, read, last⟩ := bind_eq_ok_iff.1 h
  have same : bytes.headD 0 = b := Except.ok.inj (congrArg Prod.fst last)
  unfold Read.bytes at read
  rw [bind_ok (reader_apply r)] at read
  split at read
  · cases read
  split at read
  · cases read
  rw [bind_ok (set_apply r _)] at read
  cases read
  rw [← same]
  cases r.rest <;> rfl

theorem Moves.map {item : Read α} {count : Nat} (h : Moves item count) (f : α → β) :
    Moves (do let x ← item; pure (f x)) count := by
  intro r r' value within read
  obtain ⟨x, t, first, last⟩ := bind_eq_ok_iff.1 read
  cases last
  exact h r r' x within first

theorem moves_u8 : Moves Read.u8 1 := by
  have small : 1 < addressSpace := by decide
  exact (moves_bytes small).map _

theorem moves_u16 : Moves Read.u16 2 := by
  have small : 2 < addressSpace := by decide
  exact (moves_bytes small).map _

theorem moves_u32 : Moves Read.u32 4 := by
  have small : 4 < addressSpace := by decide
  exact (moves_bytes small).map _

end

end FluentWrappers.Binary
