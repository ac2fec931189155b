import FluentWrappers.Proofs.Artifact.Rewriting
import FluentWrappers.Proofs.Checksum
import Mathlib.Data.List.Infix

/-!
# Damaged files

The file of an artifact that is cut short or followed by further bytes is refused: even if both checks
of the payload held by chance, the payload would not be read to its last byte. A file with one byte
replaced is refused with a fault that names the damaged part, unless the byte is one of the flags.
-/

namespace FluentWrappers

open Binary

namespace Artifact

/-! ### Cut and extended files -/

/-- The payload of an artifact is no payload of any header if it is cut or followed by further bytes. -/
theorem payload_eq_of_reads {a b : Artifact} (fit : FitWords a.lengths) {mark bytes : List UInt8}
    {version flags : UInt32} (read : Reads (decodePayload mark version flags) bytes b)
    (comparable : bytes <+: a.payload ∨ a.payload <+: bytes) : bytes = a.payload := by
  have own : Reads (decodePayload mark version flags) a.payload { a with mark, version, flags } :=
    reads_payload (a := { a with mark, version, flags }) fit
  rcases comparable with cut | extended
  · exact (read.eq_of_prefix own cut).1
  · exact (own.eq_of_prefix read extended).1.symm

/-- A file that begins or continues the file of an artifact is accepted only if it is that file. -/
theorem eq_encode_of_decode {a b : Artifact} (h : a.Encodable) {data : List UInt8}
    (accepted : decode data = .ok b) (comparable : data <+: a.encode ∨ a.encode <+: data) :
    data = a.encode := by
  obtain ⟨f, rfl⟩ := FileParts.exists_of_length (length_of_decode accepted)
  obtain ⟨-, -, -, -, read⟩ := decode_eq_ok_iff.1 accepted
  -- headers are all of one size, so comparable files have comparable payloads
  have payloads : f.payload <+: a.payload ∨ a.payload <+: f.payload := by
    rw [← f.drop_bytes, ← drop_header h.mark]
    exact comparable.imp (List.IsPrefix.drop · headerSize) (List.IsPrefix.drop · headerSize)
  have same := congrArg List.length (payload_eq_of_reads h.lengths read payloads)
  have sizes : f.bytes.length = a.encode.length := by
    rw [f.length_bytes, same, length_encode h.mark]
  rcases comparable with cut | extended
  · exact cut.eq_of_length sizes
  · exact (extended.eq_of_length sizes.symm).symm

/-- The file of an artifact is refused if it is cut or if bytes follow it. -/
theorem decode_cut_or_extended (a : Artifact) (h : a.Encodable) :
    (∀ data, data <+: a.encode → data ≠ a.encode → ∃ e, decode data = .error e) ∧
      ∀ more, more ≠ [] → ∃ e, decode (a.encode ++ more) = .error e := by
  have refused (data : List UInt8) (comparable : data <+: a.encode ∨ a.encode <+: data)
      (other : data ≠ a.encode) : ∃ e, decode data = .error e := by
    cases result : decode data with
    | error e => exact ⟨e, rfl⟩
    | ok b => exact absurd (eq_encode_of_decode h result comparable) other
  constructor
  · intro data cut other
    exact refused data (Or.inl cut) other
  · intro more some
    refine refused _ (Or.inr (List.prefix_append a.encode more)) fun same => some ?_
    exact List.append_right_eq_self.1 same

theorem decode_cut_or_extended_catalogue :
    catalogue.Encodable ∧ (∃ e, decode (catalogue.encode.take 60) = .error e) ∧
      ∃ e, decode (catalogue.encode ++ [0]) = .error e := by
  have encodable : catalogue.Encodable := ⟨rfl, rfl, by decide +kernel⟩
  obtain ⟨cut, extended⟩ := decode_cut_or_extended catalogue encodable
  have long : 60 < catalogue.encode.length := by
    rw [length_encode rfl]
    decide +kernel
  have shorter : catalogue.encode.take 60 ≠ catalogue.encode := by
    intro same
    have sizes := congrArg List.length same
    rw [List.length_take] at sizes
    omega
  exact ⟨encodable, cut _ (List.take_prefix 60 _) shorter, extended [0] (by decide)⟩

/-! ### Replaced bytes -/

end Artifact

namespace FileParts

/-- A byte replaced within one part of the bytes changes that part and no other. -/
theorem set_part {data before part after : List UInt8} {i : Nat} {c : UInt8}
    (cut : data = before ++ (part ++ after)) (first : before.length ≤ i)
    (last : i < before.length + part.length) (other : data[i]? ≠ some c) :
    ∃ k, part.set k c ≠ part ∧ data.set i c = before ++ (part.set k c ++ after) := by
  have inPart : i - before.length < part.length := by omega
  refine ⟨i - before.length, ?_, ?_⟩
  · intro same
    apply other
    rw [cut, List.getElem?_append_right first, List.getElem?_append_left inPart, ← same,
      List.getElem?_set_self inPart]
  · rw [cut, List.set_append_right _ _ first, List.set_append_left _ _ inPart]

theorem set_u32 {data before after : List UInt8} {w : UInt32} {i : Nat} {c : UInt8}
    (cut : data = before ++ (Wire.u32 w ++ after)) (first : before.length ≤ i)
    (last : i < before.length + 4) (other : data[i]? ≠ some c) :
    ∃ v, v ≠ w ∧ data.set i c = before ++ (Wire.u32 v ++ after) := by
  obtain ⟨k, changed, same⟩ := set_part cut first ((length_wire_u32 w).symm ▸ last) other
  have size : ((Wire.u32 w).set k c).length = 4 := by rw [List.length_set, length_wire_u32]
  have word := u32_ofLittleEndian size
  refine ⟨_, ?_, same.trans (by rw [word])⟩
  intro unchanged
  rw [unchanged] at word
  exact changed word.symm

variable {f : FileParts} {i : Nat} {c : UInt8}

theorem set_mark (last : i < 4) (other : f.bytes[i]? ≠ some c) :
    ∃ mark, ∃ size : mark.length = 4, mark ≠ f.mark ∧
      f.bytes.set i c = { f with mark, mark_size := size }.bytes := by
  have cut : f.bytes = [] ++ (f.mark ++ _) := rfl
  obtain ⟨k, changed, same⟩ := set_part cut (Nat.zero_le i) (by rw [f.mark_size]; simpa using last) other
  exact ⟨f.mark.set k c, (List.length_set).trans f.mark_size, changed, same⟩

theorem set_version (first : 4 ≤ i) (last : i < 8) (other : f.bytes[i]? ≠ some c) :
    ∃ version, version ≠ f.version ∧ f.bytes.set i c = { f with version }.bytes := by
  have cut : f.bytes = f.mark ++ (Wire.u32 f.version ++ _) := rfl
  have size := f.mark_size
  exact set_u32 cut (by omega) (by omega) other

theorem set_flags (first : 8 ≤ i) (last : i < 12) (other : f.bytes[i]? ≠ some c) :
    ∃ flags, flags ≠ f.flags ∧ f.bytes.set i c = { f with flags }.bytes := by
  have cut : f.bytes = (f.mark ++ Wire.u32 f.version) ++ (Wire.u32 f.flags ++ _) :=
    (List.append_assoc _ _ _).symm
  have size : (f.mark ++ Wire.u32 f.version).length = 8 := by
    rw [List.length_append, f.mark_size, length_wire_u32]
  obtain ⟨flags, changed, same⟩ := set_u32 cut (by omega) (by omega) other
  exact ⟨flags, changed, same.trans (List.append_assoc _ _ _)⟩

theorem set_checksum (first : 12 ≤ i) (last : i < 16) (other : f.bytes[i]? ≠ some c) :
    ∃ checksum, checksum ≠ f.checksum ∧ f.bytes.set i c = { f with checksum }.bytes := by
  have assoc (tail : List UInt8) : f.mark ++ (Wire.u32 f.version ++ (Wire.u32 f.flags ++ tail)) =
      (f.mark ++ Wire.u32 f.version ++ Wire.u32 f.flags) ++ tail := by
    simp only [List.append_assoc]
  have size : (f.mark ++ Wire.u32 f.version ++ Wire.u32 f.flags).length = 12 := by
    simp only [List.length_append, f.mark_size, length_wire_u32]
  obtain ⟨checksum, changed, same⟩ := set_u32 (assoc _) (by omega) (by omega) other
  exact ⟨checksum, changed, same.trans (assoc _).symm⟩

theorem set_hash (first : 16 ≤ i) (last : i < 48) (other : f.bytes[i]? ≠ some c) :
    ∃ hash, ∃ size : hash.length = 32, hash ≠ f.hash ∧
      f.bytes.set i c = { f with hash, hash_size := size }.bytes := by
  have assoc (tail : List UInt8) : f.mark ++ (Wire.u32 f.version ++ (Wire.u32 f.flags ++
      (Wire.u32 f.checksum ++ tail))) =
      (f.mark ++ Wire.u32 f.version ++ Wire.u32 f.flags ++ Wire.u32 f.checksum) ++ tail := by
    simp only [List.append_assoc]
  have before : (f.mark ++ Wire.u32 f.version ++ Wire.u32 f.flags ++
      Wire.u32 f.checksum).length = 16 := by
    simp only [List.length_append, f.mark_size, length_wire_u32]
  have size := f.hash_size
  obtain ⟨k, changed, same⟩ := set_part (assoc _) (by omega) (by omega) other
  exact ⟨f.hash.set k c, List.length_set.trans size, changed, same.trans (assoc _).symm⟩

theorem set_payload (first : headerSize ≤ i) (last : i < f.bytes.length)
    (other : f.bytes[i]? ≠ some c) :
    ∃ k, f.payload.set k c ≠ f.payload ∧
      f.bytes.set i c = { f with payload := f.payload.set k c }.bytes := by
  have cut : f.bytes = f.header ++ (f.payload ++ []) := by rw [List.append_nil, bytes_eq]
  rw [length_bytes] at last
  rw [← f.length_header] at first last
  obtain ⟨k, changed, same⟩ := set_part cut first last other
  rw [List.append_nil] at same
  exact ⟨k, changed, same.trans (bytes_eq { f with payload := f.payload.set k c }).symm⟩

end FileParts

namespace Artifact

theorem decode_of_mark {f : FileParts} (wrong : f.mark ≠ fileMark) :
    decode f.bytes = .error (.invalidMark f.mark) := by
  rw [decode_bytes, if_pos wrong]

theorem decode_of_version {f : FileParts} (mark : f.mark = fileMark)
    (wrong : f.version ≠ formatVersion) :
    decode f.bytes = .error (.unsupportedVersion f.version) := by
  rw [decode_bytes, if_neg (not_not_intro mark), if_pos wrong]

theorem decode_of_checksum {f : FileParts} (mark : f.mark = fileMark)
    (version : f.version = formatVersion) (wrong : f.checksum ≠ Checksum.crc32 f.payload) :
    decode f.bytes = .error (.checksumMismatch f.checksum (Checksum.crc32 f.payload)) := by
  rw [decode_bytes, if_neg (not_not_intro mark), if_neg (not_not_intro version), if_pos wrong]

theorem decode_of_hash {f : FileParts} (mark : f.mark = fileMark)
    (version : f.version = formatVersion) (checksum : f.checksum = Checksum.crc32 f.payload)
    (wrong : Checksum.sha256 f.payload ≠ f.hash) : decode f.bytes = .error .hashMismatch := by
  rw [decode_bytes, if_neg (not_not_intro mark), if_neg (not_not_intro version),
    if_neg (not_not_intro checksum), if_pos wrong]

/-- The file of an artifact with one byte replaced is refused, with a fault of the part that the byte is
in; but for the flags, which are read as they are. -/
theorem decode_replaced (a : Artifact) (h : a.Encodable) (i : Nat) (c : UInt8)
    (within : i < a.encode.length) (different : a.encode[i] ≠ c) :
    let found := decode (a.encode.set i c)
    (i < 4 → ∃ mark, found = .error (.invalidMark mark)) ∧
    (4 ≤ i → i < 8 → ∃ version, found = .error (.unsupportedVersion version)) ∧
    (8 ≤ i → i < 12 → ∃ flags, flags ≠ a.flags ∧ found = .ok { a with flags }) ∧
    (12 ≤ i → i < 16 → ∃ stored actual, found = .error (.checksumMismatch stored actual)) ∧
    (16 ≤ i → i < 48 → found = .error .hashMismatch) ∧
    (48 ≤ i → ∃ stored actual, found = .error (.checksumMismatch stored actual)) := by
  have other : a.encode[i]? ≠ some c := by
    rw [List.getElem?_eq_getElem within]
    exact fun same => different (Option.some.inj same)
  have bytes : (a.parts h.mark).bytes = a.encode := bytes_parts a h.mark
  rw [← bytes] at within other ⊢
  intro found
  refine ⟨fun last => ?_, fun first last => ?_, fun first last => ?_, fun first last => ?_,
    fun first last => ?_, fun first => ?_⟩
  · obtain ⟨mark, size, changed, same⟩ := FileParts.set_mark last other
    have wrong : mark ≠ fileMark := h.mark ▸ changed
    exact ⟨mark, (congrArg decode same).trans (decode_of_mark wrong)⟩
  · obtain ⟨version, changed, same⟩ := FileParts.set_version first last other
    have wrong : version ≠ formatVersion := h.version ▸ changed
    exact ⟨version, (congrArg decode same).trans (decode_of_version h.mark wrong)⟩
  · obtain ⟨flags, changed, same⟩ := FileParts.set_flags first last other
    have read := reads_payload (a := { a with flags }) h.lengths
    exact ⟨flags, changed, (congrArg decode same).trans
      (decode_eq_ok_iff.2 ⟨h.mark, h.version, rfl, rfl, read⟩)⟩
  · obtain ⟨checksum, changed, same⟩ := FileParts.set_checksum first last other
    exact ⟨checksum, _,
      (congrArg decode same).trans (decode_of_checksum h.mark h.version changed)⟩
  · obtain ⟨hash, size, changed, same⟩ := FileParts.set_hash first last other
    exact (congrArg decode same).trans (decode_of_hash h.mark h.version rfl changed.symm)
  · obtain ⟨k, changed, same⟩ := FileParts.set_payload first within other
    have wrong : (a.parts h.mark).checksum ≠ Checksum.crc32 ((a.parts h.mark).payload.set k c) :=
      (Checksum.crc32_set_ne changed).symm
    exact ⟨_, _, (congrArg decode same).trans (decode_of_checksum h.mark h.version wrong)⟩

theorem decode_replaced_catalogue :
    catalogue.Encodable ∧ ∃ stored actual, decode (catalogue.encode.set 50 0xff) =
      .error (.checksumMismatch stored actual) := by
  have encodable : catalogue.Encodable := ⟨rfl, rfl, by decide +kernel⟩
  have within : 50 < catalogue.encode.length := by
    rw [length_encode rfl]
    decide +kernel
  have different : catalogue.encode[50] ≠ 0xff := by
    apply ne_of_apply_ne some
    rw [← List.getElem?_eq_getElem within, ← bytes_parts catalogue rfl,
      FileParts.getElem?_bytes _ (by decide)]
    show catalogue.payload[2]? ≠ some 0xff
    decide +kernel
  obtain ⟨-, -, -, -, -, refused⟩ := decode_replaced catalogue encodable 50 0xff within different
  exact ⟨encodable, refused (by decide)⟩

end Artifact

end FluentWrappers
