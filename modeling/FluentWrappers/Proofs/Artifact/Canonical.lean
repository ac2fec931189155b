import FluentWrappers.Proofs.Artifact.RoundTrip
import FluentWrappers.Proofs.Binary.Accepted

/-!
# How far the format is canonical

Each record knows the places of its truth values: presence bytes and flags. A file that is accepted
agrees with the file written for its artifact everywhere else, and at these places it may only hold a
larger byte where the written file holds a one.
-/

namespace FluentWrappers

open Binary Fallible

/-! ### Signatures -/

namespace Signature

/-- What a read took of a signature after its tag. -/
def AfterTag (tag : UInt8) (s : Signature) (written : List UInt8) (truths : List Bool) : Prop :=
  tag :: written = s.encode ∧ false :: truths = plain s.encode ∧ FitWords s.lengths

/-- What a read took of a whole signature. -/
def Whole (s : Signature) (written : List UInt8) (truths : List Bool) : Prop :=
  written = s.encode ∧ truths = plain s.encode ∧ FitWords s.lengths

theorem encode_generic (definition : String) (args : List Signature) :
    encode (.generic definition args) = 6 :: (Wire.string definition ++ Wire.list encode args) := by
  rw [encode, encodeAll_eq_flatMap, Wire.list, List.append_assoc]

theorem lengthsOfAll_eq_flatMap (args : List Signature) : lengthsOfAll args = args.flatMap lengths := by
  induction args with
  | nil => rfl
  | cons s rest ih => simp [lengthsOfAll, ih]

theorem takes_parts {nested : Read Signature} (h : Takes nested Whole) (tag : UInt8) (offset : Nat) :
    Takes (decodeParts nested tag offset) (AfterTag tag) := by
  have items : Takes nested fun s written truths =>
    written = s.encode ∧ truths = (plain ∘ encode) s ∧ FitWords s.lengths := h
  have isTag {n : Nat} (number : tag.toNat = n) : tag = UInt8.ofNat n := by
    rw [← number, UInt8.ofNat_toNat]
  unfold decodeParts
  split
  case h_1 number => exact takes_pure ⟨by rw [isTag number]; rfl, rfl, FitWords.nil⟩
  case h_2 number =>
    refine (keeps_tag Primitive.byte_of_ofByte?).bind fun p => takes_pure ?_
    exact ⟨by rw [isTag number]; rfl, rfl, FitWords.nil⟩
  case h_3 number => exact takes_pure ⟨by rw [isTag number]; rfl, rfl, FitWords.nil⟩
  case h_4 number => exact takes_pure ⟨by rw [isTag number]; rfl, rfl, FitWords.nil⟩
  case h_5 number =>
    refine Takes.bind takes_string ?_
    rintro name _ _ ⟨rfl, rfl, fits⟩
    refine takes_pure ⟨?_, ?_, FitWords.cons_iff.2 ⟨fits, FitWords.nil⟩⟩
    · rw [isTag number, List.append_nil]
      rfl
    · rw [List.append_nil]
      rfl
  case h_6 number =>
    refine Takes.bind h ?_
    rintro element _ _ ⟨rfl, rfl, fits⟩
    refine takes_pure ⟨?_, ?_, fits⟩
    · rw [isTag number, List.append_nil]
      rfl
    · rw [List.append_nil]
      rfl
  case h_7 number =>
    refine Takes.bind takes_string ?_
    rintro definition _ _ ⟨rfl, rfl, fitsName⟩
    refine Takes.bind (takes_list items) ?_
    rintro args _ _ ⟨rfl, rfl, fitsCount, fitsArgs⟩
    refine takes_pure ⟨?_, ?_, ?_⟩
    · rw [isTag number, List.append_nil, encode_generic]
      rfl
    · rw [List.append_nil, encode_generic, truths_list_plain, ← plain_append]
      rfl
    · rw [lengths, lengthsOfAll_eq_flatMap]
      simp only [FitWords.cons_iff, FitWords.flatMap_iff]
      exact ⟨fitsName, fitsCount, fitsArgs⟩
  case h_8 =>
    intro r r' s _ run
    cases run

/-- The offset of the tag shows in a fault alone. -/
theorem decodeParts_offset (nested : Read Signature) (tag : UInt8) (offset other : Nat) :
    decodeParts nested tag offset = decodeParts nested tag other ∨
      decodeParts nested tag offset = Read.refuse (.invalidTag .signature tag offset) := by
  unfold decodeParts
  split
  case h_8 => exact Or.inr rfl
  all_goals exact Or.inl rfl

theorem reads_within_of_parts {fuel offset : Nat} {bytes : List UInt8} {s : Signature}
    (h : Reads (do let tag ← Read.u8; decodeParts (decodeWithin fuel) tag offset) bytes s) :
    Reads (decodeWithin (fuel + 1)) bytes s := by
  intro r faces
  obtain ⟨tag, r', readTag, readParts⟩ := bind_eq_ok_iff.1 (h r faces)
  unfold decodeWithin
  rw [bind_ok (reader_apply r), bind_ok readTag]
  rcases decodeParts_offset (decodeWithin fuel) tag offset r.position with same | failed
  · rw [← same]
    exact readParts
  · rw [failed] at readParts
    cases readParts

theorem takes_within (fuel : Nat) : Takes (decodeWithin fuel) Whole := by
  induction fuel with
  | zero =>
    intro r r' s _ run
    cases run
  | succ fuel ih =>
    intro r r' s within run
    unfold decodeWithin at run
    rw [bind_ok (reader_apply r)] at run
    have parts : Takes (do let tag ← Read.u8; decodeParts (decodeWithin fuel) tag r.position) Whole :=
      keeps_u8.bind fun tag => takes_parts ih tag r.position
    obtain ⟨found, written, truths, faces, moved, accepted, holds⟩ := parts r r' s within run
    exact ⟨found, written, truths, faces, moved,
      ⟨reads_within_of_parts accepted.reads, reads_within_of_parts accepted.again, accepted.size,
        accepted.normal⟩, holds⟩

theorem keeps : Keeps decode encode (plain ∘ encode) := by
  refine keeps_plain_iff.2 fun r r' s within run => ?_
  unfold decode at run
  rw [bind_ok (reader_apply r)] at run
  obtain ⟨found, _, _, faces, moved, accepted, rfl, rfl, fits⟩ := takes_within _ r r' s within run
  obtain rfl := accepted.found_eq
  exact ⟨faces, moved, reads fits⟩

end Signature

/-! ### Records -/

def MemberReference.truths (m : MemberReference) : List Bool :=
  plain (Wire.u8 m.kind.byte ++ Wire.string m.owner ++ Wire.string m.name ++
    Wire.u16 m.paramCount) ++ [true, true]

def Method.truths (m : Method) : List Bool :=
  plain (Wire.string m.name ++ Wire.u8 m.visibility.byte ++ Wire.u32 m.flags ++
      Wire.list Parameter.encode m.params ++ m.returns.encode) ++
    Truths.optional (plain ∘ MethodBinding.encode) m.binding ++
    plain (Wire.u16 m.maxStack ++ Wire.count m.code.length ++ m.code)

def Property.truths (p : Property) : List Bool :=
  plain (Wire.string p.name ++ p.type.encode) ++
    Truths.optional (plain ∘ Wire.string) p.getter ++
    Truths.optional (plain ∘ Wire.string) p.setter

def TypeDefinition.truths (t : TypeDefinition) : List Bool :=
  plain (Wire.string t.name ++ Wire.u8 t.kind.byte ++ Wire.u8 t.visibility.byte ++
      Wire.u32 t.flags) ++
    Truths.optional (plain ∘ Wire.string) t.base ++
    plain (Wire.list Wire.string t.interfaces ++ Wire.list Field.encode t.fields) ++
    Truths.list Method.truths t.methods ++ Truths.list Property.truths t.properties ++
    Truths.optional (plain ∘ fun p => Wire.u8 p.byte) t.underlying ++
    plain (Wire.list Literal.encode t.literals)

def Metadata.truths (m : Metadata) : List Bool :=
  plain (Wire.string m.name) ++
    m.optionalTexts.flatMap (Truths.optional (plain ∘ Wire.string)) ++ [true]

/-- The places of the truth values in the payload of an artifact. -/
def Artifact.truths (a : Artifact) : List Bool :=
  Truths.list MemberReference.truths a.memberRefs ++ Truths.list TypeDefinition.truths a.types ++
    plain (Wire.list Wire.string a.runtimeRefs) ++ a.metadata.truths

theorem MemberReference.keeps : Keeps decode encode truths :=
  (keeps_tag MemberKind.byte_of_ofByte?).bind fun _ => keeps_string.bind fun _ =>
    keeps_string.bind fun _ => keeps_u16.bind fun _ => keeps_bool.bind fun _ =>
    keeps_bool.bind fun _ => takes_pure (by simp [encode, truths])

theorem Field.keeps : Keeps decode encode (plain ∘ encode) :=
  keeps_string.bind fun _ => Signature.keeps.bind fun _ =>
    (keeps_tag Visibility.byte_of_ofByte?).bind fun _ => takes_pure (by simp [encode])

theorem MethodBinding.keeps : Keeps decode encode (plain ∘ encode) :=
  keeps_string.bind fun _ => keeps_string.bind fun _ => takes_pure (by simp [encode])

theorem Parameter.keeps : Keeps decode encode (plain ∘ encode) :=
  keeps_string.bind fun _ => Signature.keeps.bind fun _ => takes_pure (by simp [encode])

theorem Method.keeps : Keeps decode encode truths := by
  refine keeps_string.bind fun _ => (keeps_tag Visibility.byte_of_ofByte?).bind fun _ =>
    keeps_u32.bind fun _ => (keeps_plain_list Parameter.keeps).bind fun _ =>
    Signature.keeps.bind fun _ => (keeps_optional MethodBinding.keeps).bind fun _ =>
    keeps_u16.bind fun _ => keeps_u32.bind fun length =>
    Takes.bind (takes_bytes (u32_toNat_lt length)) ?_
  rintro _ code _ ⟨size, rfl, rfl⟩
  have count : Wire.u32 length = Wire.count code.length := by
    rw [size, Wire.count, UInt32.ofNat_toNat]
  exact takes_pure (by simp [encode, truths, count])

theorem Property.keeps : Keeps decode encode truths :=
  keeps_string.bind fun _ => Signature.keeps.bind fun _ => (keeps_optional keeps_string).bind fun _ =>
    (keeps_optional keeps_string).bind fun _ => takes_pure (by simp [encode, truths])

theorem Literal.keeps : Keeps decode encode (plain ∘ encode) :=
  keeps_string.bind fun _ => keeps_i64.bind fun _ => takes_pure (by simp [encode])

theorem TypeDefinition.keeps : Keeps decode encode truths :=
  keeps_string.bind fun _ => (keeps_tag TypeKind.byte_of_ofByte?).bind fun _ =>
    (keeps_tag Visibility.byte_of_ofByte?).bind fun _ => keeps_u32.bind fun _ =>
    (keeps_optional keeps_string).bind fun _ => (keeps_plain_list keeps_string).bind fun _ =>
    (keeps_plain_list Field.keeps).bind fun _ => (keeps_list Method.keeps).bind fun _ =>
    (keeps_list Property.keeps).bind fun _ =>
    (keeps_optional (keeps_tag Primitive.byte_of_ofByte?)).bind fun _ =>
    (keeps_plain_list Literal.keeps).bind fun _ => takes_pure (by simp [encode, truths])

theorem Metadata.keeps : Keeps decode encode truths := by
  have text := keeps_optional keeps_string
  exact keeps_string.bind fun _ => text.bind fun _ => text.bind fun _ => text.bind fun _ =>
    text.bind fun _ => text.bind fun _ => text.bind fun _ => text.bind fun _ => text.bind fun _ =>
    text.bind fun _ => text.bind fun _ => text.bind fun _ => text.bind fun _ =>
    keeps_bool.bind fun _ => takes_pure (by simp [encode, truths, optionalTexts])

theorem Artifact.keeps_payload (mark : List UInt8) (version flags : UInt32) :
    Keeps (decodePayload mark version flags) payload truths :=
  (keeps_list MemberReference.keeps).bind fun _ => (keeps_list TypeDefinition.keeps).bind fun _ =>
    (keeps_plain_list keeps_string).bind fun _ => Metadata.keeps.bind fun _ =>
    takes_pure (by simp [payload, truths])

end FluentWrappers
