import FluentWrappers.Proofs.Binary.Reads

/-!
# Accepted bytes

What a read that succeeds says about the bytes it took. The same bytes are read as the same value
wherever they stand, and so are the bytes that are written for the value; the two differ only where a
truth value was found as a byte above one. `Keeps item write truths` states this of a read, the bytes
`write` of its values and the places `truths` of the truth values among them.
-/

namespace FluentWrappers.Binary

open Fallible

/-! ### Truth values among bytes -/

/-- A byte as it is written again: a truth value becomes zero or one, all else stays. -/
def normalByte (isTruth : Bool) (b : UInt8) : UInt8 := if isTruth && b != 0 then 1 else b

def normalise (truths : List Bool) (bytes : List UInt8) : List UInt8 :=
  List.zipWith normalByte truths bytes

/-- The marks of bytes of which none is a truth value. -/
def plain (bytes : List UInt8) : List Bool := bytes.map fun _ => false

@[simp] theorem length_plain (bytes : List UInt8) : (plain bytes).length = bytes.length :=
  List.length_map _

@[simp] theorem plain_append (xs ys : List UInt8) : plain (xs ++ ys) = plain xs ++ plain ys :=
  List.map_append

theorem normalise_plain {xs bytes : List UInt8} (size : xs.length = bytes.length) :
    normalise (plain xs) bytes = bytes := by
  induction xs generalizing bytes with
  | nil => exact (List.length_eq_zero_iff.1 size.symm).symm
  | cons x rest ih =>
    obtain ⟨b, others, rfl⟩ := List.exists_cons_of_length_eq_add_one size.symm
    exact congrArg (b :: ·) (ih (Nat.succ.inj size))

theorem normalise_append {truths marks : List Bool} {xs ys : List UInt8}
    (size : truths.length = xs.length) :
    normalise (truths ++ marks) (xs ++ ys) = normalise truths xs ++ normalise marks ys :=
  List.zipWith_append size

/-- A byte stays as it is unless it is a truth value above one. -/
theorem getElem?_normalise {truths : List Bool} {bytes : List UInt8}
    (size : truths.length = bytes.length) (i : Nat) :
    (normalise truths bytes)[i]? = bytes[i]? ∨
      truths[i]? = some true ∧ ∃ b, bytes[i]? = some b ∧ 2 ≤ b ∧ (normalise truths bytes)[i]? = some 1 := by
  by_cases within : i < bytes.length
  · have marked : i < truths.length := size ▸ within
    have byte : (normalise truths bytes)[i]? = some (normalByte truths[i] bytes[i]) := by
      rw [normalise, List.getElem?_zipWith, List.getElem?_eq_getElem within,
        List.getElem?_eq_getElem marked]
    rw [byte, List.getElem?_eq_getElem within, List.getElem?_eq_getElem marked]
    unfold normalByte
    split
    case isFalse => exact Or.inl rfl
    case isTrue isTruth =>
      obtain ⟨mark, nonzero⟩ := Bool.and_eq_true_iff.1 isTruth
      by_cases one : bytes[i] = 1
      · exact Or.inl (congrArg some one.symm)
      · refine Or.inr ⟨congrArg some mark, bytes[i], rfl, ?_, rfl⟩
        rw [bne_iff_ne, ne_eq, ← UInt8.toNat_inj] at nonzero
        rw [← UInt8.toNat_inj] at one
        rw [UInt8.le_iff_toNat_le]
        simp only [UInt8.reduceToNat] at nonzero one ⊢
        omega
  · have outside : bytes.length ≤ i := Nat.le_of_not_lt within
    left
    simp [normalise, List.getElem?_zipWith, List.getElem?_eq_none outside]

theorem normalise_eq_self {truths : List Bool} {bytes : List UInt8}
    (size : truths.length = bytes.length)
    (small : ∀ (i : Nat) (b : UInt8), truths[i]? = some true → bytes[i]? = some b → b ≤ 1) :
    normalise truths bytes = bytes := by
  apply List.ext_getElem?
  intro i
  rcases getElem?_normalise size i with same | ⟨isTruth, b, byte, large, -⟩
  · exact same
  · have tooLarge : (2 : UInt8) ≤ 1 := UInt8.le_trans large (small i b isTruth byte)
    exact absurd tooLarge (by decide)

/-! ### Reads and what they took -/

theorem Reader.Faces.append {r : Reader} {xs ys : List UInt8} (first : r.Faces xs)
    (second : (r.advance xs.length).Faces ys) : r.Faces (xs ++ ys) := by
  obtain ⟨tail, after⟩ := second.2
  refine ⟨first.1, tail, ?_⟩
  calc xs ++ ys ++ tail = xs ++ (ys ++ tail) := List.append_assoc xs ys tail
    _ = r.rest.take xs.length ++ r.rest.drop xs.length := by rw [first.take, after]; rfl
    _ = r.rest := List.take_append_drop xs.length r.rest

/-- A value read from bytes found in a file, with the bytes written for it and the places of the truth
values among them. -/
structure Accepted {α : Type} (item : Read α) (value : α) (found written : List UInt8)
    (truths : List Bool) : Prop where
  reads : Reads item found value
  again : Reads item written value
  size : truths.length = found.length
  normal : written = normalise truths found

/-- Whenever the read succeeds, it has taken bytes that it accepts in every place, and what is written
for the value meets the condition. -/
def Takes {α : Type} (item : Read α) (post : α → List UInt8 → List Bool → Prop) : Prop :=
  ∀ (r r' : Reader) (value : α), r.position ≤ r.size → item r = (.ok value, r') →
    ∃ found written truths, r.Faces found ∧ r' = r.advance found.length ∧
      Accepted item value found written truths ∧ post value written truths

/-- What is written for a value that was read differs from what was read only in its truth values. -/
def Keeps {α : Type} (item : Read α) (write : α → List UInt8) (truths : α → List Bool) : Prop :=
  Takes item fun value bytes marks => bytes = write value ∧ marks = truths value

section
variable {α β : Type}

/-- What a read takes is fixed by the bytes that come next. -/
theorem Reads.eq_of_prefix {item : Read α} {xs ys : List UInt8} {a b : α} (first : Reads item xs a)
    (second : Reads item ys b) (begins : xs <+: ys) : xs = ys ∧ a = b := by
  let r := Reader.ofBytes ys
  have facesShort : r.Faces xs := ⟨Nat.zero_le _, begins⟩
  have facesLong : r.Faces ys := ⟨Nat.zero_le _, List.prefix_refl ys⟩
  have same := (first r facesShort).symm.trans (second r facesLong)
  have sizes := congrArg (fun run => run.2.position) same
  simp only [Reader.advance, Nat.add_left_cancel_iff] at sizes
  exact ⟨begins.eq_of_length sizes, Except.ok.inj (congrArg Prod.fst same)⟩

theorem accepted_plain {item : Read α} {value : α} {bytes : List UInt8}
    (h : Reads item bytes value) : Accepted item value bytes bytes (plain bytes) :=
  ⟨h, h, length_plain bytes, (normalise_plain rfl).symm⟩

theorem Accepted.bind {item : Read α} {f : α → Read β} {a : α} {b : β} {xs xs' ys ys' : List UInt8}
    {truths marks : List Bool} (first : Accepted item a xs xs' truths)
    (second : Accepted (f a) b ys ys' marks) :
    Accepted (item >>= f) b (xs ++ ys) (xs' ++ ys') (truths ++ marks) where
  reads := first.reads.bind second.reads
  again := first.again.bind second.again
  size := by rw [List.length_append, List.length_append, first.size, second.size]
  normal := by rw [normalise_append first.size, ← first.normal, ← second.normal]

theorem Takes.mono {item : Read α} {post post' : α → List UInt8 → List Bool → Prop}
    (h : Takes item post) (imp : ∀ value written truths, post value written truths →
      post' value written truths) : Takes item post' := by
  intro r r' value within run
  obtain ⟨found, written, truths, faces, moved, accepted, holds⟩ := h r r' value within run
  exact ⟨found, written, truths, faces, moved, accepted, imp _ _ _ holds⟩

theorem takes_pure {value : α} {post : α → List UInt8 → List Bool → Prop} (h : post value [] []) :
    Takes (pure value) post := by
  intro r r' v within run
  cases run
  exact ⟨[], [], [], ⟨within, List.nil_prefix⟩, (Reader.advance_zero r).symm,
    accepted_plain (reads_pure value), h⟩

theorem Takes.bind {item : Read α} {f : α → Read β} {first : α → List UInt8 → List Bool → Prop}
    {post : β → List UInt8 → List Bool → Prop} (h : Takes item first)
    (next : ∀ a xs truths, first a xs truths →
      Takes (f a) fun b ys marks => post b (xs ++ ys) (truths ++ marks)) :
    Takes (item >>= f) post := by
  intro r r'' b within run
  obtain ⟨a, r', runFirst, runNext⟩ := bind_eq_ok_iff.1 run
  obtain ⟨xs, xs', truths, faces, rfl, accepted, holds⟩ := h r r' a within runFirst
  obtain ⟨ys, ys', marks, faces', rfl, accepted', holds'⟩ :=
    next a xs' truths holds _ r'' b faces.bound runNext
  exact ⟨xs ++ ys, xs' ++ ys', truths ++ marks, faces.append faces',
    by rw [Reader.advance_advance, List.length_append], accepted.bind accepted', holds'⟩

/-- Bytes that are read as a value are accepted for it. -/
theorem Keeps.accepted {item : Read α} {write : α → List UInt8} {truths : α → List Bool}
    (h : Keeps item write truths) {bytes : List UInt8} {value : α} (read : Reads item bytes value) :
    Accepted item value bytes (write value) (truths value) := by
  let r := Reader.ofBytes bytes
  have faces : r.Faces bytes := ⟨Nat.zero_le _, List.prefix_refl bytes⟩
  obtain ⟨found, _, _, begins, _, accepted, rfl, rfl⟩ := h r _ value faces.1 (read r faces)
  obtain ⟨rfl, -⟩ := accepted.reads.eq_of_prefix read begins.2
  exact accepted

/-- A read that takes all of some bytes reads them as its value in every place. -/
theorem Keeps.reads_of_run {item : Read α} {write : α → List UInt8} {truths : α → List Bool}
    (h : Keeps item write truths) {bytes : List UInt8} {value : α}
    (run : (item (Reader.ofBytes bytes)).1.toOption = some value)
    (all : (item (Reader.ofBytes bytes)).2.position = bytes.length) : Reads item bytes value := by
  rcases full : item (Reader.ofBytes bytes) with ⟨e | v, r'⟩
  · rw [full] at run
    cases run
  · rw [full] at run all
    obtain rfl : v = value := Option.some.inj run
    obtain ⟨found, _, _, faces, rfl, accepted, -⟩ := h _ r' v (Nat.zero_le _) full
    have size : found.length = bytes.length := (Nat.zero_add _).symm.trans all
    obtain rfl : found = bytes := faces.2.eq_of_length size
    exact accepted.reads

/-- Reading goes on after a value with what is written for it in front. -/
theorem Keeps.bind {item : Read α} {write : α → List UInt8} {truths : α → List Bool}
    {f : α → Read β} {post : β → List UInt8 → List Bool → Prop} (h : Keeps item write truths)
    (next : ∀ a, Takes (f a) fun b ys marks => post b (write a ++ ys) (truths a ++ marks)) :
    Takes (item >>= f) post := by
  refine Takes.bind h ?_
  rintro a _ _ ⟨rfl, rfl⟩
  exact next a

end

/-! ### Basic values -/

theorem bytes_run {count : Nat} (small : count < addressSpace) {r r' : Reader} {bytes : List UInt8}
    (within : r.position ≤ r.size) (run : Read.bytes count r = (.ok bytes, r')) :
    bytes.length = count ∧ r.Faces bytes ∧ r' = r.advance bytes.length := by
  obtain ⟨room, moved⟩ := moves_bytes small r r' bytes within run
  have value : bytes = r.rest.take count := by
    unfold Read.bytes at run
    rw [bind_ok (reader_apply r)] at run
    split at run
    · cases run
    split at run
    · cases run
    rw [bind_ok (set_apply r _)] at run
    cases run
    rfl
  have size : bytes.length = count := by
    rw [value, List.length_take, Reader.length_rest]
    omega
  exact ⟨size, ⟨within, value ▸ List.take_prefix count r.rest⟩, by rw [moved, size]⟩

theorem takes_bytes {count : Nat} (small : count < addressSpace) :
    Takes (Read.bytes count) fun bytes written truths =>
      bytes.length = count ∧ written = bytes ∧ truths = plain bytes := by
  intro r r' bytes within run
  obtain ⟨size, faces, moved⟩ := bytes_run small within run
  exact ⟨bytes, bytes, plain bytes, faces, moved, accepted_plain (reads_bytes size), size, rfl, rfl⟩

section
variable {α : Type}

theorem Accepted.found_eq {item : Read α} {value : α} {found written : List UInt8}
    (h : Accepted item value found written (plain written)) : found = written := by
  have size : written.length = found.length := by
    rw [← length_plain]
    exact h.size
  exact (h.normal.trans (normalise_plain size)).symm

/-- Values without truth values are read from what is written for them and from nothing else. -/
theorem keeps_plain_iff {item : Read α} {write : α → List UInt8} :
    Keeps item write (plain ∘ write) ↔ ∀ (r r' : Reader) (value : α), r.position ≤ r.size →
      item r = (.ok value, r') → r.Faces (write value) ∧ r' = r.advance (write value).length ∧
        Reads item (write value) value := by
  constructor
  · intro h r r' value within run
    obtain ⟨found, _, _, faces, moved, accepted, rfl, rfl⟩ := h r r' value within run
    obtain rfl := accepted.found_eq
    exact ⟨faces, moved, accepted.reads⟩
  · intro h r r' value within run
    obtain ⟨faces, moved, read⟩ := h r r' value within run
    exact ⟨write value, _, _, faces, moved, accepted_plain read, rfl, rfl⟩

/-- A word of a fixed width is written with the bytes it was read from. -/
theorem keeps_word {width : Nat} (small : width < addressSpace) {value : List UInt8 → α}
    {write : α → List UInt8} (inverse : ∀ bytes, bytes.length = width → write (value bytes) = bytes) :
    Keeps (do let bytes ← Read.bytes width; pure (value bytes)) write (plain ∘ write) := by
  refine Takes.bind (takes_bytes small) ?_
  rintro _ bytes _ ⟨size, rfl, rfl⟩
  refine takes_pure ?_
  rw [List.append_nil, List.append_nil, Function.comp_apply, inverse bytes size]
  exact ⟨rfl, rfl⟩

theorem keeps_u8 : Keeps Read.u8 Wire.u8 (plain ∘ Wire.u8) := by
  have small : 1 < addressSpace := by decide
  refine keeps_word small fun bytes size => ?_
  obtain ⟨b, rfl⟩ := List.length_eq_one_iff.1 size
  rfl

theorem keeps_u16 : Keeps Read.u16 Wire.u16 (plain ∘ Wire.u16) := by
  have small : 2 < addressSpace := by decide
  refine keeps_word small fun bytes size => ?_
  have fits : ofLittleEndian bytes < UInt16.size := by
    have bound := ofLittleEndian_lt bytes
    rwa [size] at bound
  rw [Wire.u16, UInt16.toNat_ofNat_of_lt' fits, ← size, littleEndian_ofLittleEndian]

theorem u32_ofLittleEndian {bytes : List UInt8} (size : bytes.length = 4) :
    Wire.u32 (UInt32.ofNat (ofLittleEndian bytes)) = bytes := by
  have fits : ofLittleEndian bytes < UInt32.size := by
    have bound := ofLittleEndian_lt bytes
    rwa [size] at bound
  rw [Wire.u32, UInt32.toNat_ofNat_of_lt' fits, ← size, littleEndian_ofLittleEndian]

theorem keeps_u32 : Keeps Read.u32 Wire.u32 (plain ∘ Wire.u32) := by
  have small : 4 < addressSpace := by decide
  exact keeps_word small fun bytes size => u32_ofLittleEndian size

theorem keeps_i64 : Keeps Read.i64 Wire.i64 (plain ∘ Wire.i64) := by
  have small : 8 < addressSpace := by decide
  refine keeps_word small fun bytes size => ?_
  have fits : ofLittleEndian bytes < UInt64.size := by
    have bound := ofLittleEndian_lt bytes
    rwa [size] at bound
  rw [Wire.i64, UInt64.toUInt64_toInt64, UInt64.toNat_ofNat_of_lt' fits, ← size,
    littleEndian_ofLittleEndian]

/-- A truth value is the one place where other bytes than those written are accepted. -/
theorem keeps_bool : Keeps Read.bool Wire.bool (fun _ => [true]) := by
  intro r r' value within run
  obtain ⟨b, t, read, last⟩ := bind_eq_ok_iff.1 run
  cases last
  obtain ⟨faces, moved, _⟩ := keeps_plain_iff.1 keeps_u8 r _ b within read
  have normal : Wire.bool (b != 0) = normalise [true] [b] := by
    by_cases zero : b = 0
    · rw [zero]
      rfl
    · simp [Wire.bool, normalise, normalByte, zero]
  exact ⟨[b], Wire.bool (b != 0), [true], faces, moved,
    ⟨(reads_u8 b).map (· != 0), reads_bool (b != 0), rfl, normal⟩, rfl, rfl⟩

theorem u32_toNat_lt (w : UInt32) : w.toNat < addressSpace :=
  Nat.lt_trans w.toNat_lt_size (by decide)

/-- Text is written with the bytes it was read from, and its length is one of four bytes. -/
theorem takes_string : Takes Read.string fun text written truths =>
    written = Wire.string text ∧ truths = plain (Wire.string text) ∧
      (Text.utf8 text).length < UInt32.size := by
  intro r r'' text within run
  obtain ⟨length, r', readLength, run⟩ := bind_eq_ok_iff.1 run
  obtain ⟨facesLength, rfl, -⟩ := keeps_plain_iff.1 keeps_u32 r r' length within readLength
  rw [bind_ok (reader_apply _)] at run
  obtain ⟨bytes, r₂, readBytes, last⟩ := bind_eq_ok_iff.1 run
  obtain ⟨size, facesBytes, rfl⟩ := bytes_run (u32_toNat_lt length) facesLength.bound readBytes
  cases decoded : Text.ofUtf8? bytes with
  | none =>
    rw [decoded] at last
    cases last
  | some t =>
    rw [decoded] at last
    cases last
    have utf8 := Text.utf8_of_ofUtf8? decoded
    have written : Wire.string text = Wire.u32 length ++ bytes := by
      rw [Wire.string, utf8, Wire.count, size, UInt32.ofNat_toNat]
    have fits : (Text.utf8 text).length < UInt32.size := by
      rw [utf8, size]
      exact length.toNat_lt_size
    refine ⟨Wire.string text, _, _, ?_, ?_, accepted_plain (reads_string fits), rfl, rfl, fits⟩
    · rw [written]
      exact facesLength.append facesBytes
    · rw [written, Reader.advance_advance, List.length_append]

theorem keeps_string : Keeps Read.string Wire.string (plain ∘ Wire.string) :=
  takes_string.mono fun _ _ _ h => ⟨h.1, h.2.1⟩

theorem keeps_tag {role : TagRole} {meaning : UInt8 → Option α} {byte : α → UInt8}
    (inverse : ∀ {b a}, meaning b = some a → byte a = b) :
    Keeps (Read.tag role meaning) (fun a => Wire.u8 (byte a)) (plain ∘ fun a => Wire.u8 (byte a)) := by
  refine keeps_plain_iff.2 fun r r'' value within run => ?_
  unfold Read.tag at run
  rw [bind_ok (reader_apply r)] at run
  obtain ⟨b, r', read, last⟩ := bind_eq_ok_iff.1 run
  obtain ⟨faces, rfl, -⟩ := keeps_plain_iff.1 keeps_u8 r r' b within read
  cases meant : meaning b with
  | none =>
    rw [meant] at last
    cases last
  | some a =>
    rw [meant] at last
    cases last
    rw [inverse meant]
    exact ⟨faces, rfl, reads_tag meant⟩

/-! ### Optional values and lists -/

/-- The places of the truth values of an optional value: its presence byte is one. -/
def Truths.optional (item : α → List Bool) : Option α → List Bool
  | some value => true :: item value
  | none => [true]

def Truths.list (item : α → List Bool) (values : List α) : List Bool :=
  plain (Wire.count values.length) ++ values.flatMap item

theorem keeps_optional {item : Read α} {write : α → List UInt8} {truths : α → List Bool}
    (h : Keeps item write truths) :
    Keeps (Read.optional item) (Wire.optional write) (Truths.optional truths) := by
  refine keeps_bool.bind fun present => ?_
  cases present with
  | false => exact takes_pure ⟨rfl, rfl⟩
  | true =>
    exact h.bind fun value =>
      takes_pure (by simp [Wire.optional, Truths.optional, Wire.bool, Wire.u8])

theorem truths_list_plain (write : α → List UInt8) (values : List α) :
    Truths.list (plain ∘ write) values = plain (Wire.list write values) := by
  have items : values.flatMap (plain ∘ write) = plain (values.flatMap write) := by
    induction values with
    | nil => rfl
    | cons a rest ih =>
      rw [List.flatMap_cons, List.flatMap_cons, plain_append, ih, Function.comp_apply]
  rw [Truths.list, Wire.list, plain_append, items]

section
variable {item : Read α} {write : α → List UInt8} {truths : α → List Bool} {fits : α → Prop}

theorem takes_times
    (h : Takes item fun a written marks => written = write a ∧ marks = truths a ∧ fits a)
    (count : Nat) :
    Takes (Read.times item count) fun values written marks =>
      values.length = count ∧ written = values.flatMap write ∧ marks = values.flatMap truths ∧
        ∀ a ∈ values, fits a := by
  induction count with
  | zero => exact takes_pure ⟨rfl, rfl, rfl, fun a member => nomatch member⟩
  | succ count ih =>
    refine Takes.bind h ?_
    rintro first _ _ ⟨rfl, rfl, fitsFirst⟩
    refine Takes.bind ih ?_
    rintro others _ _ ⟨size, rfl, rfl, fitsOthers⟩
    refine takes_pure ⟨by rw [List.length_cons, size], ?_, ?_, ?_⟩
    · rw [List.append_nil, List.flatMap_cons]
    · rw [List.append_nil, List.flatMap_cons]
    · exact List.forall_mem_cons.2 ⟨fitsFirst, fitsOthers⟩

theorem takes_list
    (h : Takes item fun a written marks => written = write a ∧ marks = truths a ∧ fits a) :
    Takes (Read.list item) fun values written marks =>
      written = Wire.list write values ∧ marks = Truths.list truths values ∧
        values.length < UInt32.size ∧ ∀ a ∈ values, fits a := by
  refine keeps_u32.bind fun count => (takes_times h count.toNat).mono ?_
  rintro values _ _ ⟨size, rfl, rfl, all⟩
  have written : Wire.u32 count = Wire.count values.length := by
    rw [size, Wire.count, UInt32.ofNat_toNat]
  refine ⟨?_, ?_, size ▸ count.toNat_lt_size, all⟩
  · rw [written, Wire.list]
  · rw [Function.comp_apply, written, Truths.list]

theorem keeps_list (h : Keeps item write truths) :
    Keeps (Read.list item) (Wire.list write) (Truths.list truths) := by
  have each : Takes item fun a written marks => written = write a ∧ marks = truths a ∧ True :=
    h.mono fun _ _ _ same => ⟨same.1, same.2, trivial⟩
  exact (takes_list each).mono fun _ _ _ same => ⟨same.1, same.2.1⟩

theorem keeps_plain_list (h : Keeps item write (plain ∘ write)) :
    Keeps (Read.list item) (Wire.list write) (plain ∘ Wire.list write) := by
  refine (keeps_list h).mono ?_
  rintro values _ _ ⟨rfl, rfl⟩
  exact ⟨rfl, truths_list_plain write values⟩

end

end

end FluentWrappers.Binary
