import FluentWrappers.Proofs.Artifact.RoundTrip
import Mathlib.Algebra.Ring.Nat

/-!
# What an artifact weighs

The weight of an artifact counts its member references, types, interfaces, fields, methods, parameters,
properties, literals, names of the base runtime and the nodes of its signatures, and with them every
byte of its texts and its code. Each of these is written with a byte of its own, so that the payload is
at least as long.
-/

namespace FluentWrappers

open Binary

/-! ### Weights -/

def totalWeight {α : Type} (weight : α → Nat) (values : List α) : Nat := (values.map weight).sum

/-- The bytes of a text that may be missing. -/
def optionalWeight (text : Option String) : Nat := text.elim 0 Text.byteCount

/-- An entry that is a name, as an interface is. -/
def nameWeight (name : String) : Nat := 1 + Text.byteCount name

namespace Signature

mutual
/-- One for each node of the signature, and the bytes of the names in it. -/
def weight : Signature → Nat
  | .named name => 1 + Text.byteCount name
  | .array element => 1 + element.weight
  | .generic definition args => 1 + Text.byteCount definition + weightOfAll args
  | _ => 1

def weightOfAll : List Signature → Nat
  | [] => 0
  | s :: rest => s.weight + weightOfAll rest
end

end Signature

def MemberReference.weight (m : MemberReference) : Nat :=
  1 + Text.byteCount m.owner + Text.byteCount m.name

def Field.weight (f : Field) : Nat := 1 + Text.byteCount f.name + f.type.weight

/-- A binding is no member of its own: only its texts count. -/
def MethodBinding.weight (b : MethodBinding) : Nat :=
  Text.byteCount b.interface + Text.byteCount b.method

def Parameter.weight (p : Parameter) : Nat := 1 + Text.byteCount p.name + p.type.weight

def Method.weight (m : Method) : Nat :=
  1 + Text.byteCount m.name + totalWeight Parameter.weight m.params + m.returns.weight +
    m.binding.elim 0 MethodBinding.weight + m.code.length

def Property.weight (p : Property) : Nat :=
  1 + Text.byteCount p.name + p.type.weight + optionalWeight p.getter + optionalWeight p.setter

def Literal.weight (l : Literal) : Nat := 1 + Text.byteCount l.name

def TypeDefinition.weight (t : TypeDefinition) : Nat :=
  1 + Text.byteCount t.name + optionalWeight t.base + totalWeight nameWeight t.interfaces +
    totalWeight Field.weight t.fields + totalWeight Method.weight t.methods +
    totalWeight Property.weight t.properties + totalWeight Literal.weight t.literals

def Metadata.weight (m : Metadata) : Nat :=
  Text.byteCount m.name + totalWeight optionalWeight m.optionalTexts

def Artifact.weight (a : Artifact) : Nat :=
  totalWeight MemberReference.weight a.memberRefs + totalWeight TypeDefinition.weight a.types +
    totalWeight nameWeight a.runtimeRefs + a.metadata.weight

/-! ### Lengths of what is written -/

namespace Binary.Wire

@[simp] theorem length_count (n : Nat) : (count n).length = 4 := length_littleEndian 4 _

@[simp] theorem length_string (text : String) : (string text).length = 4 + Text.byteCount text := by
  simp only [string, List.length_append, length_count, Text.byteCount]

end Binary.Wire

section

variable {α : Type} {item : α → List UInt8} {weight : α → Nat}

theorem totalWeight_le_flatMap (h : ∀ a, weight a ≤ (item a).length) (values : List α) :
    totalWeight weight values ≤ (values.flatMap item).length := by
  induction values with
  | nil => exact Nat.le_refl 0
  | cons a rest ih =>
    rw [List.flatMap_cons, List.length_append]
    exact Nat.add_le_add (h a) ih

theorem totalWeight_le (h : ∀ a, weight a ≤ (item a).length) (values : List α) :
    totalWeight weight values ≤ (Wire.list item values).length := by
  rw [Wire.list, List.length_append]
  exact Nat.le_trans (totalWeight_le_flatMap h values) (Nat.le_add_left _ _)

theorem elim_le (h : ∀ a, weight a ≤ (item a).length) (value : Option α) :
    value.elim 0 weight ≤ (Wire.optional item value).length := by
  cases value with
  | none => exact Nat.zero_le _
  | some a => exact Nat.le_trans (h a) (Nat.le_add_right _ _)

end

theorem byteCount_le (text : String) : Text.byteCount text ≤ (Wire.string text).length := by
  rw [Wire.length_string]
  exact Nat.le_add_left _ _

theorem optionalWeight_le (text : Option String) :
    optionalWeight text ≤ (Wire.optional Wire.string text).length :=
  elim_le byteCount_le text

theorem nameWeight_le (name : String) : nameWeight name ≤ (Wire.string name).length := by
  rw [Wire.length_string, nameWeight]
  omega

/-! ### Weights and lengths -/

namespace Signature

mutual
theorem weight_le : (s : Signature) → s.weight ≤ s.encode.length
  | .void | .primitive _ | .string | .object => Nat.le_add_left _ _
  | .named name => by
    have text := byteCount_le name
    simp only [weight, encode, List.length_cons]
    omega
  | .array element => by
    have nested := weight_le element
    simp only [weight, encode, List.length_cons]
    omega
  | .generic definition args => by
    have text := byteCount_le definition
    have nested := weightOfAll_le args
    simp only [weight, encode, List.length_cons, List.length_append]
    omega

theorem weightOfAll_le : (args : List Signature) → weightOfAll args ≤ (encodeAll args).length
  | [] => Nat.le_refl 0
  | s :: rest => by
    have first := weight_le s
    have others := weightOfAll_le rest
    simp only [weightOfAll, encodeAll, List.length_append]
    omega
end

theorem weight_pos (s : Signature) : 0 < s.weight := by
  cases s <;> unfold weight <;> omega

end Signature

theorem MemberReference.weight_le (m : MemberReference) : m.weight ≤ m.encode.length := by
  simp only [weight, encode, Wire.u8, List.length_append, List.length_singleton, Wire.length_string]
  omega

theorem Field.weight_le (f : Field) : f.weight ≤ f.encode.length := by
  have type := f.type.weight_le
  simp only [weight, encode, List.length_append, Wire.length_string]
  omega

theorem MethodBinding.weight_le (b : MethodBinding) : b.weight ≤ b.encode.length := by
  simp only [weight, encode, List.length_append, Wire.length_string]
  omega

theorem Parameter.weight_le (p : Parameter) : p.weight ≤ p.encode.length := by
  have type := p.type.weight_le
  simp only [weight, encode, List.length_append, Wire.length_string]
  omega

theorem Method.weight_le (m : Method) : m.weight ≤ m.encode.length := by
  have params := totalWeight_le Parameter.weight_le m.params
  have returns := m.returns.weight_le
  have binding := elim_le MethodBinding.weight_le m.binding
  simp only [weight, encode, List.length_append, Wire.length_string]
  omega

theorem Property.weight_le (p : Property) : p.weight ≤ p.encode.length := by
  have type := p.type.weight_le
  have getter := optionalWeight_le p.getter
  have setter := optionalWeight_le p.setter
  simp only [weight, encode, List.length_append, Wire.length_string]
  omega

theorem Literal.weight_le (l : Literal) : l.weight ≤ l.encode.length := by
  simp only [weight, encode, List.length_append, Wire.length_string]
  omega

theorem TypeDefinition.weight_le (t : TypeDefinition) : t.weight ≤ t.encode.length := by
  have base := optionalWeight_le t.base
  have interfaces := totalWeight_le nameWeight_le t.interfaces
  have fields := totalWeight_le Field.weight_le t.fields
  have methods := totalWeight_le Method.weight_le t.methods
  have properties := totalWeight_le Property.weight_le t.properties
  have literals := totalWeight_le Literal.weight_le t.literals
  simp only [weight, encode, List.length_append, Wire.length_string]
  omega

theorem Metadata.weight_le (m : Metadata) : m.weight ≤ m.encode.length := by
  have texts := totalWeight_le_flatMap optionalWeight_le m.optionalTexts
  simp only [weight, encode, List.length_append, Wire.length_string]
  omega

end FluentWrappers
