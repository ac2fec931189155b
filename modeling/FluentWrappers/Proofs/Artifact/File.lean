import FluentWrappers.Proofs.Artifact.Canonical

/-!
# Which files are accepted

A file of at least forty-eight bytes is cut at the ends of its header's fields. It is accepted exactly
if the header holds the mark, the version and the two checks of the payload, and the payload is read
to its last byte. Since a payload shows by itself where it ends, no accepted payload begins another.
-/

namespace FluentWrappers

open Binary Fallible

/-! ### The parts of a file -/

/-- A file that is long enough for a header. -/
structure FileParts where
  mark : List UInt8
  version : UInt32
  flags : UInt32
  checksum : UInt32
  hash : List UInt8
  payload : List UInt8
  mark_size : mark.length = 4
  hash_size : hash.length = 32

namespace FileParts

def bytes (f : FileParts) : List UInt8 :=
  f.mark ++ (Wire.u32 f.version ++ (Wire.u32 f.flags ++ (Wire.u32 f.checksum ++
    (f.hash ++ f.payload))))

def header (f : FileParts) : List UInt8 :=
  f.mark ++ (Wire.u32 f.version ++ (Wire.u32 f.flags ++ (Wire.u32 f.checksum ++ f.hash)))

theorem length_wire_u32 (w : UInt32) : (Wire.u32 w).length = 4 := length_littleEndian 4 w.toNat

theorem bytes_eq (f : FileParts) : f.bytes = f.header ++ f.payload := by
  simp only [bytes, header, List.append_assoc]

theorem length_header (f : FileParts) : f.header.length = headerSize := by
  simp [header, f.mark_size, f.hash_size, length_wire_u32, headerSize]

theorem drop_bytes (f : FileParts) : f.bytes.drop headerSize = f.payload := by
  rw [bytes_eq, ← f.length_header, List.drop_left]

theorem length_bytes (f : FileParts) : f.bytes.length = headerSize + f.payload.length := by
  rw [bytes_eq, List.length_append, length_header]

theorem take_bytes (f : FileParts) :
    f.bytes.take 12 = f.mark ++ (Wire.u32 f.version ++ Wire.u32 f.flags) := by
  have size : (f.mark ++ (Wire.u32 f.version ++ Wire.u32 f.flags)).length = 12 := by
    simp [f.mark_size, length_wire_u32]
  have cut : f.bytes = (f.mark ++ (Wire.u32 f.version ++ Wire.u32 f.flags)) ++
      (Wire.u32 f.checksum ++ (f.hash ++ f.payload)) := by
    simp only [bytes, List.append_assoc]
  rw [cut, ← size, List.take_left]

theorem getElem?_bytes (f : FileParts) {i : Nat} (h : headerSize ≤ i) :
    f.bytes[i]? = f.payload[i - headerSize]? := by
  rw [bytes_eq, List.getElem?_append_right (f.length_header ▸ h), f.length_header]

theorem exists_of_length {data : List UInt8} (enough : headerSize ≤ data.length) :
    ∃ f : FileParts, f.bytes = data := by
  unfold headerSize at enough
  have word (bytes : List UInt8) (size : 4 ≤ bytes.length) :
      Wire.u32 (UInt32.ofNat (ofLittleEndian (bytes.take 4))) = bytes.take 4 :=
    u32_ofLittleEndian (by rw [List.length_take]; omega)
  refine ⟨⟨data.take 4, UInt32.ofNat (ofLittleEndian ((data.drop 4).take 4)),
    UInt32.ofNat (ofLittleEndian ((data.drop 8).take 4)),
    UInt32.ofNat (ofLittleEndian ((data.drop 12).take 4)), (data.drop 16).take 32, data.drop 48,
    by rw [List.length_take]; omega, by rw [List.length_take, List.length_drop]; omega⟩, ?_⟩
  have join (bytes : List UInt8) (n m : Nat) :
      (bytes.drop n).take m ++ bytes.drop (n + m) = bytes.drop n := by
    rw [← List.drop_drop, List.take_append_drop]
  unfold bytes
  simp only [word _ (by rw [List.length_drop]; omega : 4 ≤ (data.drop 4).length),
    word _ (by rw [List.length_drop]; omega : 4 ≤ (data.drop 8).length),
    word _ (by rw [List.length_drop]; omega : 4 ≤ (data.drop 12).length)]
  rw [join data 16 32, join data 12 4, join data 8 4, join data 4 4, List.take_append_drop]

end FileParts

namespace Artifact

/-- What a header holds. -/
structure FileHeader where
  mark : List UInt8
  version : UInt32
  flags : UInt32
  checksum : UInt32
  hash : List UInt8

/-- Reads the header and checks that its mark and version are known. -/
def readHeader : FileRead FileHeader := do
  let mark ← FileRead.part (Read.bytes 4)
  FileRead.require (mark = fileMark) (.invalidMark mark)
  let version ← FileRead.part Read.u32
  FileRead.require (version = formatVersion) (.unsupportedVersion version)
  let flags ← FileRead.part Read.u32
  let checksum ← FileRead.part Read.u32
  let hash ← FileRead.part (Read.bytes 32)
  return ⟨mark, version, flags, checksum, hash⟩

/-- What is read after the header: the payload and then nothing more. -/
def readBody (mark : List UInt8) (version flags : UInt32) : FileRead Artifact := do
  let artifact ← FileRead.part (decodePayload mark version flags)
  let after ← get
  FileRead.require (after.hasMore = false) (.trailingBytes after.remaining)
  return artifact

/-- What is read with the header known and the bytes behind it cut off. -/
def readBehind (h : FileHeader) (payload : List UInt8) : FileRead Artifact := do
  FileRead.require (h.checksum = Checksum.crc32 payload)
    (.checksumMismatch h.checksum (Checksum.crc32 payload))
  FileRead.require (Checksum.sha256 payload = h.hash) .hashMismatch
  readBody h.mark h.version h.flags

/-- Nothing is cut off before the whole header was read. -/
theorem read_eq : read = (do
    let start ← get
    let header ← readHeader
    readBehind header (start.rest.drop headerSize)) := by
  simp only [read, readHeader, readBehind, readBody, bind_assoc, pure_bind]

theorem require_error {condition : Prop} [Decidable condition] {fault : ArtifactError}
    (h : ¬ condition) (r : Reader) : FileRead.require condition fault r = (.error fault, r) := by
  unfold FileRead.require
  rw [if_neg h]
  rfl

theorem decode_bytes (f : FileParts) : decode f.bytes =
    if f.mark ≠ fileMark then .error (.invalidMark f.mark)
    else if f.version ≠ formatVersion then .error (.unsupportedVersion f.version)
    else if f.checksum ≠ Checksum.crc32 f.payload then
      .error (.checksumMismatch f.checksum (Checksum.crc32 f.payload))
    else if Checksum.sha256 f.payload ≠ f.hash then .error .hashMismatch
    else (readBody f.mark f.version f.flags ((Reader.ofBytes f.bytes).advance headerSize)).1 := by
  let r := Reader.ofBytes f.bytes
  have atMark : r.Faces f.bytes := ⟨Nat.zero_le _, List.prefix_refl _⟩
  have atVersion := atMark.right
  have atFlags := atVersion.right
  have atChecksum := atFlags.right
  have atHash := atChecksum.right
  have payload : r.rest.drop headerSize = f.payload := f.drop_bytes
  unfold decode read
  rw [bind_ok (get_apply r), bind_ok (FileRead.part_ok (reads_bytes f.mark_size) atMark.left)]
  by_cases mark : f.mark = fileMark
  case neg => rw [bind_error (require_error mark _), if_pos mark]
  rw [bind_ok (FileRead.require_ok mark _),
    bind_ok (FileRead.part_ok (reads_u32 f.version) atVersion.left)]
  by_cases version : f.version = formatVersion
  case neg =>
    rw [bind_error (require_error version _), if_neg (not_not_intro mark), if_pos version]
  rw [bind_ok (FileRead.require_ok version _),
    bind_ok (FileRead.part_ok (reads_u32 f.flags) atFlags.left),
    bind_ok (FileRead.part_ok (reads_u32 f.checksum) atChecksum.left),
    bind_ok (FileRead.part_ok (reads_bytes f.hash_size) atHash.left), payload]
  rw [if_neg (not_not_intro mark), if_neg (not_not_intro version)]
  by_cases checksum : f.checksum = Checksum.crc32 f.payload
  case neg => rw [bind_error (require_error checksum _), if_pos checksum]
  rw [bind_ok (FileRead.require_ok checksum _), if_neg (not_not_intro checksum)]
  by_cases hash : Checksum.sha256 f.payload = f.hash
  case neg => rw [bind_error (require_error hash _), if_pos hash]
  rw [bind_ok (FileRead.require_ok hash _), if_neg (not_not_intro hash)]
  have stop : f.mark.length + ((Wire.u32 f.version).length + ((Wire.u32 f.flags).length +
      ((Wire.u32 f.checksum).length + f.hash.length))) = headerSize := by
    simpa [FileParts.header] using f.length_header
  simp only [Reader.advance_advance, Nat.add_assoc, stop]
  rfl

theorem part_eq_ok {α : Type} {item : Read α} {value : α} {r r' : Reader}
    (h : FileRead.part item r = (.ok value, r')) : item r = (.ok value, r') := by
  unfold FileRead.part at h
  split at h
  case h_1 run =>
    cases h
    exact run
  case h_2 => cases h

theorem require_eq_ok {condition : Prop} [Decidable condition] {fault : ArtifactError}
    {r r' : Reader} {u : Unit} (h : FileRead.require condition fault r = (.ok u, r')) :
    condition ∧ r' = r := by
  unfold FileRead.require at h
  split at h
  case isTrue holds =>
    cases h
    exact ⟨holds, rfl⟩
  case isFalse => cases h

theorem readHeader_run {r t : Reader} {header : FileHeader} (within : r.position ≤ r.size)
    (run : readHeader r = (.ok header, t)) : r.position + headerSize ≤ r.size := by
  have four : 4 < addressSpace := by decide
  have hashed : 32 < addressSpace := by decide
  obtain ⟨mark, r₁, first, run⟩ := bind_eq_ok_iff.1 run
  obtain ⟨within, rfl⟩ := moves_bytes four r r₁ mark within (part_eq_ok first)
  obtain ⟨_, _, checked, run⟩ := bind_eq_ok_iff.1 run
  obtain ⟨-, rfl⟩ := require_eq_ok checked
  obtain ⟨version, r₂, second, run⟩ := bind_eq_ok_iff.1 run
  obtain ⟨within, rfl⟩ := moves_u32 _ r₂ version within (part_eq_ok second)
  obtain ⟨_, _, checked, run⟩ := bind_eq_ok_iff.1 run
  obtain ⟨-, rfl⟩ := require_eq_ok checked
  obtain ⟨flags, r₃, third, run⟩ := bind_eq_ok_iff.1 run
  obtain ⟨within, rfl⟩ := moves_u32 _ r₃ flags within (part_eq_ok third)
  obtain ⟨checksum, r₄, fourth, run⟩ := bind_eq_ok_iff.1 run
  obtain ⟨within, rfl⟩ := moves_u32 _ r₄ checksum within (part_eq_ok fourth)
  obtain ⟨hash, r₅, fifth, _⟩ := bind_eq_ok_iff.1 run
  obtain ⟨within, -⟩ := moves_bytes hashed _ r₅ hash within (part_eq_ok fifth)
  simpa only [Reader.advance, Nat.add_assoc, headerSize, Nat.reduceAdd] using within

theorem length_of_decode {data : List UInt8} {a : Artifact} (h : decode data = .ok a) :
    headerSize ≤ data.length := by
  let r := Reader.ofBytes data
  rcases run : read r with ⟨result, last⟩
  obtain rfl : result = .ok a := (congrArg Prod.fst run).symm.trans h
  rw [read_eq, bind_ok (get_apply r)] at run
  obtain ⟨header, t, readHeader, _⟩ := bind_eq_ok_iff.1 run
  have bound := readHeader_run (Nat.zero_le _) readHeader
  exact Nat.le_of_add_left_le bound

theorem readBody_eq_ok_iff {mark : List UInt8} {version flags : UInt32} {f : FileParts}
    {a : Artifact} :
    (readBody mark version flags ((Reader.ofBytes f.bytes).advance headerSize)).1 = .ok a ↔
      Reads (decodePayload mark version flags) f.payload a := by
  let r := (Reader.ofBytes f.bytes).advance headerSize
  have rest : r.rest = f.payload := f.drop_bytes
  have size : r.size = headerSize + f.payload.length := f.length_bytes
  have within : r.position ≤ r.size := by
    show 0 + headerSize ≤ r.size
    omega
  have faces : r.Faces f.payload := ⟨within, rest ▸ List.prefix_refl _⟩
  constructor
  · intro h
    rcases run : readBody mark version flags r with ⟨result, last⟩
    obtain rfl : result = .ok a := (congrArg Prod.fst run).symm.trans h
    obtain ⟨b, r', body, run⟩ := bind_eq_ok_iff.1 run
    rw [bind_ok (get_apply r')] at run
    obtain ⟨_, _, checked, returned⟩ := bind_eq_ok_iff.1 run
    obtain ⟨finished, rfl⟩ := require_eq_ok checked
    cases returned
    obtain ⟨found, _, _, begins, rfl, accepted, -, -⟩ :=
      keeps_payload mark version flags r _ a within (part_eq_ok body)
    have short := begins.2.length_le
    have long : f.payload.length ≤ found.length := by
      simp only [Reader.hasMore, decide_eq_false_iff_not, Nat.not_lt] at finished
      have position : r.position = headerSize := Nat.zero_add _
      have advanced : r.size ≤ r.position + found.length := finished
      omega
    have whole : found = f.payload := by
      rw [← rest]
      exact begins.2.eq_of_length (Nat.le_antisymm short (rest ▸ long))
    exact whole ▸ accepted.reads
  · intro read
    have finished : (r.advance f.payload.length).hasMore = false := by
      simp only [Reader.hasMore, decide_eq_false_iff_not, Nat.not_lt]
      show r.size ≤ 0 + headerSize + f.payload.length
      omega
    unfold readBody
    rw [bind_ok (FileRead.part_ok read faces), bind_ok (get_apply _),
      bind_ok (FileRead.require_ok finished _)]
    rfl

/-- A file is accepted exactly if its header fits its payload and the payload is one of an artifact. -/
theorem decode_eq_ok_iff {f : FileParts} {a : Artifact} :
    decode f.bytes = .ok a ↔ f.mark = fileMark ∧ f.version = formatVersion ∧
      f.checksum = Checksum.crc32 f.payload ∧ Checksum.sha256 f.payload = f.hash ∧
        Reads (decodePayload f.mark f.version f.flags) f.payload a := by
  rw [decode_bytes, ← readBody_eq_ok_iff]
  by_cases mark : f.mark = fileMark
  case neg => simp [mark]
  by_cases version : f.version = formatVersion
  case neg => simp [mark, version]
  by_cases checksum : f.checksum = Checksum.crc32 f.payload
  case neg => simp [mark, version, checksum]
  by_cases hash : Checksum.sha256 f.payload = f.hash
  case neg => simp [mark, version, checksum, hash]
  simp [mark, version, checksum, hash]

end Artifact

end FluentWrappers
