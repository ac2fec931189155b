import FluentWrappers.Proofs.Artifact.Rewriting
import FluentWrappers.Proofs.Artifact.Weight
import FluentWrappers.Proofs.Binary.Spans

/-!
# Reading is bounded by the file

Whatever bytes a file holds, each record asks for bytes of the file alone, one after the other, and for
nothing after a span that is not there. What is counted in the file is read no more often than there are
bytes left, and what is accepted weighs no more than the bytes behind the header.
-/

namespace FluentWrappers

open Binary Fallible

variable {limit : Nat}

namespace Signature

theorem confined_parts {nested : Read Signature} (h : Confined id limit nested) (tag : UInt8)
    (offset : Nat) : Confined id limit (decodeParts nested tag offset) := by
  unfold decodeParts
  split
  case h_1 | h_3 | h_4 => exact confined_pure _
  case h_2 => exact confined_tag.map
  case h_5 => exact confined_string.map
  case h_6 => exact h.map
  case h_7 => exact confined_string.bind fun definition => (confined_list h).map
  case h_8 => exact fun r placed _ => confinedAt_refuse not_false placed

/-- A nested signature begins behind a tag, so that fuel for each byte is never used up. -/
theorem confined_within (fuel : Nat) : Confined id fuel (decodeWithin fuel) := by
  induction fuel with
  | zero => exact fun r _ left => absurd left (Nat.not_lt_zero _)
  | succ fuel ih =>
    intro r placed left
    refine confinedAt_reader ((confined_u8 r placed left).bind placed fun tag t read placed' _ => ?_)
    obtain ⟨within, rfl⟩ := moves_u8 r t tag placed.1 read
    have shorter : (r.advance 1).remaining < fuel := by
      show r.size - (r.position + 1) < fuel
      unfold Reader.remaining at left
      omega
    exact confined_parts ih tag r.position _ placed' shorter

theorem confined : Confined id limit decode :=
  fun r placed _ => confinedAt_reader (confined_within _ r placed (Nat.lt_succ_self _))

end Signature

theorem MemberReference.confined : Confined id limit decode :=
  confined_tag.bind fun _ => confined_string.bind fun _ => confined_string.bind fun _ =>
    confined_u16.bind fun _ => confined_bool.bind fun _ => confined_bool.map

theorem Field.confined : Confined id limit decode :=
  confined_string.bind fun _ => Signature.confined.bind fun _ => confined_tag.map

theorem MethodBinding.confined : Confined id limit decode :=
  confined_string.bind fun _ => confined_string.map

theorem Parameter.confined : Confined id limit decode :=
  confined_string.bind fun _ => Signature.confined.map

theorem Method.confined : Confined id limit decode :=
  confined_string.bind fun _ => confined_tag.bind fun _ => confined_u32.bind fun _ =>
    (confined_list Parameter.confined).bind fun _ => Signature.confined.bind fun _ =>
    (confined_optional MethodBinding.confined).bind fun _ => confined_u16.bind fun _ =>
    confined_length fun length _ placed =>
      (confinedAt_bytes placed length.toNat_lt_size (Nat.le_add_left _ _)).bind placed
        fun _ _ _ placed' _ => confinedAt_pure _ placed'

theorem Property.confined : Confined id limit decode :=
  confined_string.bind fun _ => Signature.confined.bind fun _ =>
    (confined_optional confined_string).bind fun _ => (confined_optional confined_string).map

theorem Literal.confined : Confined id limit decode :=
  confined_string.bind fun _ => confined_i64.map

theorem TypeDefinition.confined : Confined id limit decode :=
  confined_string.bind fun _ => confined_tag.bind fun _ => confined_tag.bind fun _ =>
    confined_u32.bind fun _ => (confined_optional confined_string).bind fun _ =>
    (confined_list confined_string).bind fun _ => (confined_list Field.confined).bind fun _ =>
    (confined_list Method.confined).bind fun _ => (confined_list Property.confined).bind fun _ =>
    (confined_optional confined_tag).bind fun _ => (confined_list Literal.confined).map

theorem Metadata.confined : Confined id limit decode := by
  have text : Confined id limit (Read.optional Read.string) := confined_optional confined_string
  exact confined_string.bind fun _ => text.bind fun _ => text.bind fun _ => text.bind fun _ =>
    text.bind fun _ => text.bind fun _ => text.bind fun _ => text.bind fun _ => text.bind fun _ =>
    text.bind fun _ => text.bind fun _ => text.bind fun _ => text.bind fun _ => confined_bool.map

/-! ### Files -/

namespace FileRead

end FileRead

namespace Artifact

open FileRead

end Artifact

/-! ### Counted items -/

/-- The reads that a file repeats as often as it says itself. -/
inductive Counted : {α : Type} → Read α → Prop
  | memberReference : Counted MemberReference.decode
  | type : Counted TypeDefinition.decode
  /-- An interface or a name of the base runtime. -/
  | name : Counted Read.string
  | field : Counted Field.decode
  | method : Counted Method.decode
  | parameter : Counted Parameter.decode
  | property : Counted Property.decode
  | literal : Counted Literal.decode
  /-- An argument of a generic signature. -/
  | argument (fuel : Nat) : Counted (Signature.decodeWithin fuel)

theorem Counted.shortens {α : Type} {item : Read α} (counted : Counted item) : Shortens item := by
  cases counted with
  | memberReference =>
    exact MemberReference.keeps.shortens fun m =>
      Nat.le_trans (by unfold MemberReference.weight; omega) m.weight_le
  | type =>
    exact TypeDefinition.keeps.shortens fun t =>
      Nat.le_trans (by unfold TypeDefinition.weight; omega) t.weight_le
  | name =>
    exact keeps_string.shortens fun name =>
      Nat.le_trans (by unfold nameWeight; omega) (nameWeight_le name)
  | field =>
    exact Field.keeps.shortens fun f => Nat.le_trans (by unfold Field.weight; omega) f.weight_le
  | method =>
    exact Method.keeps.shortens fun m => Nat.le_trans (by unfold Method.weight; omega) m.weight_le
  | parameter =>
    exact Parameter.keeps.shortens fun p =>
      Nat.le_trans (by unfold Parameter.weight; omega) p.weight_le
  | property =>
    exact Property.keeps.shortens fun p =>
      Nat.le_trans (by unfold Property.weight; omega) p.weight_le
  | literal =>
    exact Literal.keeps.shortens fun l =>
      Nat.le_trans (by unfold Literal.weight; omega) l.weight_le
  | argument fuel =>
    refine (Signature.takes_within fuel).shortens fun s _ _ whole => ?_
    rw [whole.1]
    exact Nat.le_trans s.weight_pos s.weight_le

namespace Artifact

end Artifact

end FluentWrappers
