import FluentWrappers.Proofs.Artifact.File

/-!
# Accepted files written again

The file written for the artifact of an accepted file keeps its length, its mark, version and flags
and every byte of its payload but the truth values above one, which become one. So files whose truth
values are all zero or one are accepted for different artifacts if they differ.
-/

namespace FluentWrappers

open Binary

namespace Artifact

/-- The parts of the file written for an artifact. -/
def parts (a : Artifact) (h : a.mark = fileMark) : FileParts where
  mark := a.mark
  version := a.version
  flags := a.flags
  checksum := Checksum.crc32 a.payload
  hash := Checksum.sha256 a.payload
  payload := a.payload
  mark_size := by rw [h]; rfl
  hash_size := Checksum.length_sha256 a.payload

theorem bytes_parts (a : Artifact) (h : a.mark = fileMark) : (a.parts h).bytes = a.encode := by
  simp only [parts, FileParts.bytes, encode, List.append_assoc]

theorem length_encode {a : Artifact} (h : a.mark = fileMark) :
    a.encode.length = headerSize + a.payload.length := by
  rw [← bytes_parts a h, FileParts.length_bytes]
  rfl

theorem header_of_reads {mark payload : List UInt8} {version flags : UInt32} {a : Artifact}
    (h : Reads (decodePayload mark version flags) payload a) :
    a.mark = mark ∧ a.version = version ∧ a.flags = flags := by
  have run := h (Reader.ofBytes payload) ⟨Nat.zero_le _, List.prefix_refl payload⟩
  obtain ⟨refs, _, _, run⟩ := Fallible.bind_eq_ok_iff.1 run
  obtain ⟨types, _, _, run⟩ := Fallible.bind_eq_ok_iff.1 run
  obtain ⟨runtime, _, _, run⟩ := Fallible.bind_eq_ok_iff.1 run
  obtain ⟨metadata, _, _, run⟩ := Fallible.bind_eq_ok_iff.1 run
  cases run
  exact ⟨rfl, rfl, rfl⟩

/-- The file holds a truth value of the artifact at an offset: a presence byte or a flag. -/
def HoldsTruth (a : Artifact) (offset : Nat) : Prop :=
  headerSize ≤ offset ∧ a.truths[offset - headerSize]? = some true

/-- All truth values in a file are zero or one. -/
def TruthsPlain (a : Artifact) (data : List UInt8) : Prop :=
  ∀ (offset : Nat) (b : UInt8), a.HoldsTruth offset → data[offset]? = some b → b ≤ 1

/-- How the file written for an artifact relates to one that is accepted for it. -/
structure Rewrites (a : Artifact) (data : List UInt8) : Prop where
  length : a.encode.length = data.length
  header : a.encode.take 12 = data.take 12
  payload : ∀ offset, headerSize ≤ offset → a.encode[offset]? = data[offset]? ∨
    a.HoldsTruth offset ∧ ∃ b, data[offset]? = some b ∧ 2 ≤ b ∧ a.encode[offset]? = some 1
  accepted : decode a.encode = .ok a
  unique : ∀ other, decode other = .ok a → a.TruthsPlain data → a.TruthsPlain other → other = data

/-- The parts of an accepted file, given its artifact. -/
structure FileOf (a : Artifact) (f : FileParts) : Prop where
  mark : f.mark = fileMark
  version : f.version = formatVersion
  fields : a.mark = f.mark ∧ a.version = f.version ∧ a.flags = f.flags
  checksum : f.checksum = Checksum.crc32 f.payload
  hash : f.hash = Checksum.sha256 f.payload
  payload : Accepted (decodePayload f.mark f.version f.flags) a f.payload a.payload a.truths

theorem fileOf_of_decode {data : List UInt8} {a : Artifact} (h : decode data = .ok a) :
    ∃ f : FileParts, f.bytes = data ∧ FileOf a f := by
  obtain ⟨f, rfl⟩ := FileParts.exists_of_length (length_of_decode h)
  obtain ⟨mark, version, checksum, hash, read⟩ := decode_eq_ok_iff.1 h
  exact ⟨f, rfl, mark, version, header_of_reads read, checksum, hash.symm,
    (keeps_payload f.mark f.version f.flags).accepted read⟩

theorem FileOf.ownMark {a : Artifact} {f : FileParts} (h : FileOf a f) : a.mark = fileMark :=
  h.fields.1.trans h.mark

theorem FileOf.accepted {a : Artifact} {f : FileParts} (h : FileOf a f) :
    decode a.encode = .ok a := by
  obtain ⟨mark, version, flags⟩ := h.fields
  rw [← bytes_parts a h.ownMark]
  refine decode_eq_ok_iff.2 ⟨h.ownMark, version.trans h.version, rfl, rfl, ?_⟩
  show Reads (decodePayload a.mark a.version a.flags) a.payload a
  rw [mark, version, flags]
  exact h.payload.again

/-- With plain truth values the file is the one that is written. -/
theorem FileOf.bytes_eq {a : Artifact} {f : FileParts} (h : FileOf a f)
    (plain : a.TruthsPlain f.bytes) : f.bytes = a.encode := by
  have small (i : Nat) (b : UInt8) (isTruth : a.truths[i]? = some true)
      (byte : f.payload[i]? = some b) : b ≤ 1 := by
    refine plain (headerSize + i) b ⟨Nat.le_add_right _ _, ?_⟩ ?_
    · rw [Nat.add_sub_cancel_left]
      exact isTruth
    · rw [← List.getElem?_drop, f.drop_bytes]
      exact byte
  have payload : a.payload = f.payload :=
    h.payload.normal.trans (normalise_eq_self h.payload.size small)
  obtain ⟨mark, version, flags⟩ := h.fields
  rw [← bytes_parts a h.ownMark]
  simp only [FileParts.bytes, parts, mark, version, flags, payload, h.checksum, h.hash]

/-- Writing an accepted file again only turns truth values above one into ones. -/
theorem rewrites_of_decode {data : List UInt8} {a : Artifact} (h : decode data = .ok a) :
    Rewrites a data := by
  obtain ⟨f, rfl, file⟩ := fileOf_of_decode h
  obtain ⟨mark, version, flags⟩ := file.fields
  have written := bytes_parts a file.ownMark
  have normal := file.payload.normal
  have size := file.payload.size
  have sameLength : a.payload.length = f.payload.length := by
    rw [normal, normalise, List.length_zipWith, size, Nat.min_self]
  constructor
  case length => rw [← written, FileParts.length_bytes, FileParts.length_bytes, ← sameLength]; rfl
  case header =>
    rw [← written, FileParts.take_bytes, FileParts.take_bytes]
    simp only [parts, mark, version, flags]
  case payload =>
    intro offset inPayload
    rw [← written, FileParts.getElem?_bytes _ inPayload, FileParts.getElem?_bytes _ inPayload]
    show a.payload[offset - headerSize]? = _ ∨ _ ∧ ∃ b, _ ∧ _ ∧ a.payload[offset - headerSize]? = _
    rw [normal]
    rcases getElem?_normalise size (offset - headerSize) with same | ⟨isTruth, changed⟩
    · exact Or.inl same
    · exact Or.inr ⟨⟨inPayload, isTruth⟩, changed⟩
  case accepted => exact file.accepted
  case unique =>
    intro other accepted plain plainOther
    obtain ⟨g, rfl, fileOther⟩ := fileOf_of_decode accepted
    exact (fileOther.bytes_eq plainOther).trans (file.bytes_eq plain).symm

def shown : Artifact where
  metadata := { name := "Shop", visible := true }

/-- A file for an artifact in which the last flag, a truth value, is a seven. -/
def shownLoosely : FileParts :=
  let payload := shown.payload.dropLast ++ [7]
  { mark := fileMark, version := formatVersion, flags := 0, checksum := Checksum.crc32 payload,
    hash := Checksum.sha256 payload, payload, mark_size := rfl,
    hash_size := Checksum.length_sha256 payload }

theorem rewrites_shownLoosely :
    decode shownLoosely.bytes = .ok shown ∧ Rewrites shown shownLoosely.bytes ∧
      shownLoosely.payload ≠ shown.payload := by
  have read : Reads (decodePayload fileMark formatVersion 0) shownLoosely.payload shown :=
    (keeps_payload fileMark formatVersion 0).reads_of_run (by decide +kernel) (by decide +kernel)
  have accepted : decode shownLoosely.bytes = .ok shown :=
    decode_eq_ok_iff.2 ⟨rfl, rfl, rfl, rfl, read⟩
  exact ⟨accepted, rewrites_of_decode accepted, by decide +kernel⟩

end Artifact

end FluentWrappers
