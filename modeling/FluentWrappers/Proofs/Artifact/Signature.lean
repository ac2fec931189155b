import FluentWrappers.Proofs.Artifact.RoundTrip
import FluentWrappers.Proofs.Binary.Accepted

/-!
# Where a signature ends

A signature is written without a length. Its bytes still tell where it ends: whatever stands before and
after them, exactly these bytes are taken, and no signature begins with all bytes of another one.
-/

namespace FluentWrappers.Signature

open Binary

theorem encode_prefix_iff {s t : Signature} (fits : FitWords s.lengths) (fits' : FitWords t.lengths) :
    s.encode <+: t.encode ↔ s = t := by
  constructor
  · intro begins
    obtain ⟨-, same⟩ := Reads.eq_of_prefix (reads fits) (reads fits') begins
    exact same
  · rintro rfl
    exact List.prefix_refl _

/-- A signature is read back from its bytes wherever they stand in a file, and the reader then stands in
front of what follows them. So the bytes of one signature do not begin with those of another. -/
theorem encode_selfDelimiting :
    (∀ s : Signature, FitWords s.lengths → ∀ before after : List UInt8,
      let file := Reader.ofBytes (before ++ s.encode ++ after)
      let stop := before.length + s.encode.length
      decode (file.seek before.length) = (.ok s, file.seek stop) ∧ (file.seek stop).rest = after) ∧
    ∀ s t : Signature, FitWords s.lengths → FitWords t.lengths →
      (s.encode <+: t.encode ↔ s = t) := by
  refine ⟨fun s fits before after => ?_, fun s t => encode_prefix_iff⟩
  refine ⟨(reads fits).amid before after, ?_⟩
  show (before ++ s.encode ++ after).drop (before.length + s.encode.length) = after
  rw [← List.length_append, List.drop_left]

/-- A table of address lists by names, and the list that stands in it. -/
theorem encode_selfDelimiting_addresses :
    let addresses : Signature := .array (.named "Acme.IAddress")
    let table : Signature := .generic "System.Collections.Generic.Dictionary" [.string, addresses]
    let file := Reader.ofBytes ([6, 1, 255] ++ table.encode ++ addresses.encode)
    FitWords table.lengths ∧ FitWords addresses.lengths ∧ table.encode.length = 66 ∧
      decode (file.seek 3) = (.ok table, file.seek 69) ∧ (file.seek 69).rest = addresses.encode ∧
      ¬ addresses.encode <+: table.encode := by
  intro addresses table file
  have fits : FitWords table.lengths := by decide +kernel
  have fits' : FitWords addresses.lengths := by decide +kernel
  have size : table.encode.length = 66 := by decide +kernel
  have different : addresses ≠ table := by decide
  obtain ⟨reading, ends⟩ := encode_selfDelimiting
  obtain ⟨found, behind⟩ := reading table fits [6, 1, 255] addresses.encode
  exact ⟨fits, fits', size, found, behind, mt (ends addresses table fits' fits).1 different⟩

end FluentWrappers.Signature
