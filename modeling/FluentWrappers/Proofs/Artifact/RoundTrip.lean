import FluentWrappers.Artifact.Container
import FluentWrappers.Proofs.Binary.Reads

/-!
# Files read back

Every record of an artifact is read back from its bytes, and so is the file of an artifact with the
right header, provided that each length and count fits in the four bytes that hold it. The proofs
follow the layout of the records; signatures nest, so theirs is an induction.
-/

namespace FluentWrappers

open Binary Fallible

/-! ### Lengths in a file -/

/-- The number of bytes of a text. -/
def Text.byteCount (text : String) : Nat := (utf8 text).length

def lengthsOfList {α : Type} (item : α → List Nat) (values : List α) : List Nat :=
  values.length :: values.flatMap item

namespace Signature

mutual
/-- The lengths that a signature holds: those of names and of argument lists. -/
def lengths : Signature → List Nat
  | .named name => [Text.byteCount name]
  | .array element => element.lengths
  | .generic definition args => Text.byteCount definition :: args.length :: lengthsOfAll args
  | _ => []

def lengthsOfAll : List Signature → List Nat
  | [] => []
  | s :: rest => s.lengths ++ lengthsOfAll rest
end

end Signature

def Field.lengths (f : Field) : List Nat := Text.byteCount f.name :: f.type.lengths

def MethodBinding.lengths (b : MethodBinding) : List Nat :=
  [Text.byteCount b.interface, Text.byteCount b.method]

def Parameter.lengths (p : Parameter) : List Nat := Text.byteCount p.name :: p.type.lengths

def Method.lengths (m : Method) : List Nat :=
  [Text.byteCount m.name, m.code.length] ++ lengthsOfList Parameter.lengths m.params ++
    m.returns.lengths ++ m.binding.toList.flatMap MethodBinding.lengths

def Property.lengths (p : Property) : List Nat :=
  Text.byteCount p.name :: p.type.lengths ++ p.getter.toList.map Text.byteCount ++
    p.setter.toList.map Text.byteCount

def TypeDefinition.lengths (t : TypeDefinition) : List Nat :=
  Text.byteCount t.name :: t.base.toList.map Text.byteCount ++
    lengthsOfList (fun name => [Text.byteCount name]) t.interfaces ++
    lengthsOfList Field.lengths t.fields ++ lengthsOfList Method.lengths t.methods ++
    lengthsOfList Property.lengths t.properties ++
    lengthsOfList (fun l => [Text.byteCount l.name]) t.literals

def MemberReference.lengths (m : MemberReference) : List Nat :=
  [Text.byteCount m.owner, Text.byteCount m.name]

def Metadata.lengths (m : Metadata) : List Nat :=
  Text.byteCount m.name :: m.optionalTexts.flatMap fun text => text.toList.map Text.byteCount

/-- All list, text and code lengths of an artifact. -/
def Artifact.lengths (a : Artifact) : List Nat :=
  lengthsOfList MemberReference.lengths a.memberRefs ++
    lengthsOfList TypeDefinition.lengths a.types ++
    lengthsOfList (fun name => [Text.byteCount name]) a.runtimeRefs ++ a.metadata.lengths

/-- Each length is held by a word of four bytes. -/
def FitWords (lengths : List Nat) : Prop := ∀ n ∈ lengths, n < UInt32.size

instance (lengths : List Nat) : Decidable (FitWords lengths) :=
  inferInstanceAs (Decidable (∀ n ∈ lengths, n < UInt32.size))

/-- An artifact with the right mark and version whose lengths can all be written. -/
structure Artifact.Encodable (a : Artifact) : Prop where
  mark : a.mark = fileMark
  version : a.version = formatVersion
  lengths : FitWords a.lengths

namespace FitWords

@[simp] theorem nil : FitWords [] := by
  intro n hn
  cases hn

@[simp] theorem cons_iff {n : Nat} {rest : List Nat} :
    FitWords (n :: rest) ↔ n < UInt32.size ∧ FitWords rest :=
  List.forall_mem_cons

@[simp] theorem append_iff {xs ys : List Nat} :
    FitWords (xs ++ ys) ↔ FitWords xs ∧ FitWords ys :=
  List.forall_mem_append

@[simp] theorem flatMap_iff {α : Type} {item : α → List Nat} {values : List α} :
    FitWords (values.flatMap item) ↔ ∀ a ∈ values, FitWords (item a) := by
  constructor
  · intro h a ha n hn
    exact h n (List.mem_flatMap.2 ⟨a, ha, hn⟩)
  · intro h n hn
    obtain ⟨a, ha, hn⟩ := List.mem_flatMap.1 hn
    exact h a ha n hn

@[simp] theorem map_iff {α : Type} {size : α → Nat} {values : List α} :
    FitWords (values.map size) ↔ ∀ a ∈ values, size a < UInt32.size :=
  List.forall_mem_map

@[simp] theorem lengthsOfList_iff {α : Type} {item : α → List Nat} {values : List α} :
    FitWords (lengthsOfList item values) ↔
      values.length < UInt32.size ∧ ∀ a ∈ values, FitWords (item a) := by
  rw [lengthsOfList, cons_iff, flatMap_iff]

end FitWords

theorem reads_optional_string {text : Option String}
    (h : ∀ s ∈ text.toList, Text.byteCount s < UInt32.size) :
    Reads (Read.optional Read.string) (Wire.optional Wire.string text) text :=
  reads_optional fun s hs => reads_string (h s (Option.mem_toList.2 hs))

/-! ### Signatures -/

namespace Signature

theorem reads_tagged {fuel : Nat} {tag : UInt8} {parts : List UInt8} {s : Signature}
    (h : ∀ offset, Reads (decodeParts (decodeWithin fuel) tag offset) parts s) :
    Reads (decodeWithin (fuel + 1)) (tag :: parts) s := by
  intro r faces
  have both := (reads_u8 tag).bind
    (f := fun tag => decodeParts (decodeWithin fuel) tag r.position) (h r.position) r faces
  unfold decodeWithin
  rw [bind_ok (reader_apply r)]
  exact both

mutual
/-- Each level of nesting takes a byte, so that fuel for the bytes is fuel for the levels. -/
theorem reads_within : (s : Signature) → (fuel : Nat) → FitWords s.lengths →
    s.encode.length ≤ fuel → Reads (decodeWithin fuel) s.encode s
  | s, 0, _, enough => by cases s <;> simp [encode] at enough
  | .void, _ + 1, _, _ => reads_tagged fun _ => reads_pure Signature.void
  | .string, _ + 1, _, _ => reads_tagged fun _ => reads_pure Signature.string
  | .object, _ + 1, _, _ => reads_tagged fun _ => reads_pure Signature.object
  | .primitive p, _ + 1, _, _ =>
    reads_tagged fun _ => (reads_tag (Primitive.ofByte?_byte p)).map Signature.primitive
  | .named name, _ + 1, fit, _ =>
    reads_tagged fun _ => (reads_string (FitWords.cons_iff.1 fit).1).map Signature.named
  | .array element, fuel + 1, fit, enough => by
    have inner := reads_within element fuel fit (by simpa [encode] using enough)
    exact reads_tagged fun _ => inner.map Signature.array
  | .generic definition args, fuel + 1, fit, enough => by
    simp only [lengths, FitWords.cons_iff] at fit
    simp only [encode, List.length_cons, List.length_append] at enough
    obtain ⟨count, same⟩ := reads_count fit.2.1
    have items : Reads (Read.list (decodeWithin fuel))
        (Wire.count args.length ++ encodeAll args) args := by
      refine count.bind ?_
      rw [same]
      exact reads_within_all args fuel fit.2.2 (by omega)
    refine reads_tagged fun _ => ?_
    rw [List.append_assoc]
    exact (reads_string fit.1).bind (items.map (Signature.generic definition))

theorem reads_within_all : (args : List Signature) → (fuel : Nat) → FitWords (lengthsOfAll args) →
    (encodeAll args).length ≤ fuel →
    Reads (Read.times (decodeWithin fuel) args.length) (encodeAll args) args
  | [], _, _, _ => reads_pure []
  | s :: rest, fuel, fit, enough => by
    simp only [lengthsOfAll, FitWords.append_iff] at fit
    simp only [encodeAll, List.length_append] at enough
    have first := reads_within s fuel fit.1 (by omega)
    have others := reads_within_all rest fuel fit.2 (by omega)
    exact first.bind (others.map (s :: ·))
end

/-- A signature is read back wherever it stands, and no byte after it is touched. -/
theorem reads {s : Signature} (fit : FitWords s.lengths) : Reads decode s.encode s := by
  intro r faces
  have enough : s.encode.length ≤ r.remaining + 1 := by
    have bound := faces.bound
    unfold Reader.remaining
    omega
  unfold decode
  rw [bind_ok (reader_apply r)]
  exact reads_within s _ fit enough r faces

end Signature

/-! ### Records -/

theorem MemberReference.reads {m : MemberReference} (fit : FitWords m.lengths) :
    Reads decode m.encode m := by
  simp only [lengths, FitWords.cons_iff] at fit
  unfold encode decode
  simp only [List.append_assoc]
  exact (reads_tag (MemberKind.ofByte?_byte m.kind)).bind <| (reads_string fit.1).bind <|
    (reads_string fit.2.1).bind <| (reads_u16 m.paramCount).bind <|
    (reads_bool m.returnsValue).bind <| (reads_bool m.isStatic).map _

theorem Field.reads {f : Field} (fit : FitWords f.lengths) : Reads decode f.encode f := by
  simp only [lengths, FitWords.cons_iff] at fit
  unfold encode decode
  simp only [List.append_assoc]
  exact (reads_string fit.1).bind <| (Signature.reads fit.2).bind <|
    (reads_tag (Visibility.ofByte?_byte f.visibility)).map _

theorem MethodBinding.reads {b : MethodBinding} (fit : FitWords b.lengths) :
    Reads decode b.encode b := by
  simp only [lengths, FitWords.cons_iff] at fit
  exact (reads_string fit.1).bind ((reads_string fit.2.1).map _)

theorem Parameter.reads {p : Parameter} (fit : FitWords p.lengths) : Reads decode p.encode p := by
  simp only [lengths, FitWords.cons_iff] at fit
  exact (reads_string fit.1).bind ((Signature.reads fit.2).map _)

theorem Method.reads {m : Method} (fit : FitWords m.lengths) : Reads decode m.encode m := by
  simp only [lengths, FitWords.append_iff, FitWords.cons_iff, FitWords.lengthsOfList_iff,
    FitWords.flatMap_iff] at fit
  obtain ⟨⟨⟨⟨name, code, -⟩, params⟩, returns⟩, binding⟩ := fit
  obtain ⟨count, same⟩ := reads_count code
  unfold encode decode
  simp only [List.append_assoc]
  refine (reads_string name).bind <| (reads_tag (Visibility.ofByte?_byte m.visibility)).bind <|
    (reads_u32 m.flags).bind <| (reads_list params.1 fun p hp => Parameter.reads (params.2 p hp)).bind <|
    (Signature.reads returns).bind <|
    (reads_optional fun b hb => MethodBinding.reads (binding b (Option.mem_toList.2 hb))).bind <|
    (reads_u16 m.maxStack).bind <| count.bind ?_
  exact (reads_bytes same.symm).map _

theorem Property.reads {p : Property} (fit : FitWords p.lengths) : Reads decode p.encode p := by
  simp only [lengths, List.cons_append, FitWords.append_iff, FitWords.cons_iff, FitWords.map_iff]
    at fit
  obtain ⟨name, ⟨type, getter⟩, setter⟩ := fit
  unfold encode decode
  simp only [List.append_assoc]
  exact (reads_string name).bind <| (Signature.reads type).bind <|
    (reads_optional_string getter).bind <| (reads_optional_string setter).map _

theorem Literal.reads {l : Literal} (fit : Text.byteCount l.name < UInt32.size) :
    Reads decode l.encode l :=
  (reads_string fit).bind ((reads_i64 l.value).map _)

theorem TypeDefinition.reads {t : TypeDefinition} (fit : FitWords t.lengths) :
    Reads decode t.encode t := by
  simp only [lengths, List.cons_append, FitWords.append_iff, FitWords.cons_iff,
    FitWords.lengthsOfList_iff, FitWords.map_iff] at fit
  obtain ⟨name, ⟨⟨⟨⟨base, interfaces⟩, fields⟩, methods⟩, properties⟩, literals⟩ := fit
  unfold encode decode
  simp only [List.append_assoc]
  exact (reads_string name).bind <| (reads_tag (TypeKind.ofByte?_byte t.kind)).bind <|
    (reads_tag (Visibility.ofByte?_byte t.visibility)).bind <| (reads_u32 t.flags).bind <|
    (reads_optional_string base).bind <|
    (reads_list interfaces.1 fun i hi => reads_string (interfaces.2 i hi).1).bind <|
    (reads_list fields.1 fun f hf => Field.reads (fields.2 f hf)).bind <|
    (reads_list methods.1 fun m hm => Method.reads (methods.2 m hm)).bind <|
    (reads_list properties.1 fun p hp => Property.reads (properties.2 p hp)).bind <|
    (reads_optional fun p _ => reads_tag (Primitive.ofByte?_byte p)).bind <|
    (reads_list literals.1 fun l hl => Literal.reads (literals.2 l hl).1).map _

theorem Metadata.reads {m : Metadata} (fit : FitWords m.lengths) : Reads decode m.encode m := by
  simp only [lengths, FitWords.cons_iff, FitWords.flatMap_iff, FitWords.map_iff] at fit
  obtain ⟨name, texts⟩ := fit
  have optional (text : Option String) (h : text ∈ m.optionalTexts) :=
    reads_optional_string (texts text h)
  simp only [optionalTexts, List.forall_mem_cons] at optional
  unfold encode decode optionalTexts
  simp only [List.flatMap_cons, List.flatMap_nil, List.append_nil, List.append_assoc]
  obtain ⟨title, description, configuration, product, version, fileVersion, company, copyright,
    trademark, culture, neutralLanguage, guid, -⟩ := optional
  exact (reads_string name).bind <| title.bind <| description.bind <| configuration.bind <|
    product.bind <| version.bind <| fileVersion.bind <| company.bind <| copyright.bind <|
    trademark.bind <| culture.bind <| neutralLanguage.bind <| guid.bind <|
    (reads_bool m.visible).map _

/-! ### Files -/

theorem FileRead.part_ok {α : Type} {item : Read α} {bytes : List UInt8} {value : α} {r : Reader}
    (read : Reads item bytes value) (faces : r.Faces bytes) :
    FileRead.part item r = (.ok value, r.advance bytes.length) := by
  unfold FileRead.part
  rw [read r faces]

theorem FileRead.require_ok {condition : Prop} [Decidable condition] {fault : ArtifactError}
    (h : condition) (r : Reader) : FileRead.require condition fault r = (.ok (), r) := by
  unfold FileRead.require
  rw [if_pos h]
  rfl

namespace Artifact

theorem reads_payload {a : Artifact} (fit : FitWords a.lengths) :
    Reads (decodePayload a.mark a.version a.flags) a.payload a := by
  simp only [lengths, FitWords.append_iff, FitWords.lengthsOfList_iff, FitWords.cons_iff] at fit
  obtain ⟨⟨⟨refs, types⟩, runtime⟩, metadata⟩ := fit
  unfold payload decodePayload
  simp only [List.append_assoc]
  exact (reads_list refs.1 fun m hm => MemberReference.reads (refs.2 m hm)).bind <|
    (reads_list types.1 fun t ht => TypeDefinition.reads (types.2 t ht)).bind <|
    (reads_list runtime.1 fun s hs => reads_string (runtime.2 s hs).1).bind <|
    (Metadata.reads metadata).map _

def header (a : Artifact) : List UInt8 :=
  a.mark ++ (Wire.u32 a.version ++ (Wire.u32 a.flags ++ (Wire.u32 (Checksum.crc32 a.payload) ++
    Checksum.sha256 a.payload)))

theorem encode_eq (a : Artifact) : a.encode = a.header ++ a.payload := by
  simp only [encode, header, List.append_assoc]

theorem length_header {a : Artifact} (h : a.mark = fileMark) : a.header.length = headerSize := by
  simp [header, h, fileMark, headerSize, Wire.u32]

theorem drop_header {a : Artifact} (h : a.mark = fileMark) :
    a.encode.drop headerSize = a.payload := by
  rw [encode_eq, ← length_header h, List.drop_left]

/-- The file of an artifact is read back as that artifact. -/
theorem decode_encode (a : Artifact) (h : a.Encodable) : decode a.encode = .ok a := by
  have size : a.mark.length = 4 := by rw [h.mark]; rfl
  let r := Reader.ofBytes a.encode
  have start : r.Faces (a.header ++ a.payload) := by
    rw [← encode_eq]
    exact ⟨Nat.zero_le _, List.prefix_refl _⟩
  have atMark := start.left
  have atVersion := atMark.right
  have atFlags := atVersion.right
  have atChecksum := atFlags.right
  have atHash := atChecksum.right
  have atPayload := start.right
  have payload : r.rest.drop headerSize = a.payload := drop_header h.mark
  have finished : ((r.advance a.header.length).advance a.payload.length).hasMore = false := by
    rw [Reader.advance_advance, ← List.length_append, ← encode_eq]
    simp [r, Reader.hasMore, Reader.advance, Reader.ofBytes]
  unfold decode read
  rw [bind_ok (get_apply r), bind_ok (FileRead.part_ok (reads_bytes size) atMark.left),
    bind_ok (FileRead.require_ok h.mark _),
    bind_ok (FileRead.part_ok (reads_u32 a.version) atVersion.left),
    bind_ok (FileRead.require_ok h.version _),
    bind_ok (FileRead.part_ok (reads_u32 a.flags) atFlags.left),
    bind_ok (FileRead.part_ok (reads_u32 _) atChecksum.left),
    bind_ok (FileRead.part_ok (reads_bytes (Checksum.length_sha256 _)) atHash), payload]
  simp only [Reader.advance_advance, ← List.length_append, List.append_assoc]
  rw [← header, bind_ok (FileRead.require_ok rfl _), bind_ok (FileRead.require_ok rfl _),
    bind_ok (FileRead.part_ok (reads_payload h.lengths) atPayload), bind_ok (get_apply _),
    bind_ok (FileRead.require_ok finished _)]
  rfl

/-- An artifact with every kind of record, a signature nested three deep and text beyond ASCII. -/
def catalogue : Artifact where
  flags := ArtifactFlag.standalone
  memberRefs := [.field "Shop.Item" "name", .method "Shop.Item" "Tags" 1 true]
  types := [
    { name := "Shop.Item", kind := .classType, base := some rootObject, interfaces := ["Shop.IItem"],
      fields := [⟨"größe", .generic "Map" [.string, .array (.generic "List" [.named "Unit"])],
        .privateAccess⟩],
      methods := [⟨"Tags", .publicAccess, MethodFlag.isVirtual, [⟨"n", .primitive .i32⟩],
        .array .string, some ⟨"Shop.IItem", "Tags"⟩, 1, [0x13, 0xa2]⟩],
      properties := [⟨"Size", .object, some "get_Size", none⟩] },
    { name := "Unit", kind := .enumeration, underlying := some .i64, literals := [⟨"None", -1⟩] }]
  runtimeRefs := ["Map", "List"]
  metadata := { name := "Shop", culture := some "de", visible := true }

theorem decode_encode_catalogue :
    catalogue.Encodable ∧ decode catalogue.encode = .ok catalogue := by
  have encodable : catalogue.Encodable := ⟨rfl, rfl, by decide +kernel⟩
  exact ⟨encodable, decode_encode catalogue encodable⟩

end Artifact

end FluentWrappers
