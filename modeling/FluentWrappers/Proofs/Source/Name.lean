import FluentWrappers.Source.Name
import Mathlib.Logic.Function.Basic

/-!
# Names and their canonical forms

A canonical form is split at its last dot, and the dot is left out where the namespace is empty. So a
name comes back from its canonical form if and only if its simple part holds no dot, and a text comes
back from the name that is read from it unless its only dot is its first character.
-/

namespace FluentWrappers.TypeName

def Dotless (n : TypeName) : Prop := '.' ∉ n.simple.toList

instance (n : TypeName) : Decidable n.Dotless := inferInstanceAs (Decidable ('.' ∉ n.simple.toList))

/-! ### Splitting -/

theorem splitAtLastDot_append {before after : List Char} (dotless : '.' ∉ after) :
    splitAtLastDot (before ++ '.' :: after) = some (before, after) := by
  induction before with
  | nil =>
    rw [List.nil_append, splitAtLastDot, splitAtLastDot_eq_none_iff.2 dotless]
    rfl
  | cons c before ih =>
    rw [List.cons_append, splitAtLastDot, ih]

theorem parse_of_dotless {text : String} (dotless : '.' ∉ text.toList) : parse text = ⟨"", text⟩ := by
  unfold parse
  rw [splitAtLastDot_eq_none_iff.2 dotless]

theorem parse_append {before after : String} (dotless : '.' ∉ after.toList) :
    parse (before ++ "." ++ after) = ⟨before, after⟩ := by
  have characters : (before ++ "." ++ after).toList = before.toList ++ '.' :: after.toList := by
    rw [String.toList_append, String.toList_append, List.append_assoc]
    rfl
  unfold parse
  rw [characters, splitAtLastDot_append dotless]
  exact congrArg₂ TypeName.mk String.ofList_toList String.ofList_toList

/-- A text holds no dot, or else it has a last one, in front of a text without dots. -/
theorem dotless_or_exists_append (text : String) :
    '.' ∉ text.toList ∨ ∃ before after, text = before ++ "." ++ after ∧ '.' ∉ after.toList := by
  cases cut : splitAtLastDot text.toList with
  | none => exact Or.inl (splitAtLastDot_eq_none_iff.1 cut)
  | some parts =>
    obtain ⟨before, after⟩ := parts
    obtain ⟨whole, dotless⟩ := eq_append_of_splitAtLastDot cut
    refine Or.inr ⟨String.ofList before, String.ofList after, ?_, ?_⟩
    · apply String.toList_inj.1
      simp only [String.toList_append, String.toList_ofList, List.append_assoc]
      exact whole
    · rw [String.toList_ofList]
      exact dotless

/-! ### There and back -/

/-- A name that is read from its canonical form has no dot in its simple part. -/
theorem dotless_parse (canonical : String) : (parse canonical).Dotless := by
  rcases dotless_or_exists_append canonical with dotless | ⟨before, after, rfl, dotless⟩
  · rw [parse_of_dotless dotless]
    exact dotless
  · rw [parse_append dotless]
    exact dotless

theorem parse_canonical {n : TypeName} (dotless : n.Dotless) : parse n.canonical = n := by
  obtain ⟨namespaceName, simple⟩ := n
  unfold canonical
  split
  case isTrue bare =>
    obtain rfl : namespaceName = "" := String.isEmpty_iff.1 bare
    exact parse_of_dotless dotless
  case isFalse => exact parse_append dotless

theorem parse_canonical_eq_iff {n : TypeName} : parse n.canonical = n ↔ n.Dotless :=
  ⟨fun same => same ▸ dotless_parse n.canonical, parse_canonical⟩

theorem canonical_inj {m n : TypeName} (dotless : m.Dotless) (dotless' : n.Dotless) :
    m.canonical = n.canonical ↔ m = n := by
  refine ⟨fun same => ?_, congrArg canonical⟩
  rw [← parse_canonical dotless, same, parse_canonical dotless']

theorem canonical_parse_dot {rest : String} (dotless : '.' ∉ rest.toList) :
    (parse ("." ++ rest)).canonical = rest := by
  have first : "." ++ rest = "" ++ "." ++ rest := by rw [String.empty_append]
  rw [first, parse_append dotless]
  rfl

theorem canonical_parse {text : String}
    (inner : ∀ rest : String, '.' ∉ rest.toList → text ≠ "." ++ rest) :
    (parse text).canonical = text := by
  rcases dotless_or_exists_append text with dotless | ⟨before, after, rfl, dotless⟩
  · rw [parse_of_dotless dotless]
    rfl
  · have named : before ≠ "" := by
      rintro rfl
      exact inner after dotless (by rw [String.empty_append])
    rw [parse_append dotless, canonical, if_neg (mt String.isEmpty_iff.1 named)]

/-- A name comes back from its canonical form exactly if its simple part holds no dot. A text comes back
from the name read from it, unless it is a dot before a text without dots: then that text comes back. So
a name that was read stays the same when it is written and read again, and names whose simple parts hold
no dot are told apart by their canonical forms. -/
theorem canonical_correspondence :
    (∀ n : TypeName, parse n.canonical = n ↔ n.Dotless) ∧
    (∀ rest : String, '.' ∉ rest.toList → (parse ("." ++ rest)).canonical = rest) ∧
    (∀ text : String, (∀ rest : String, '.' ∉ rest.toList → text ≠ "." ++ rest) →
      (parse text).canonical = text) ∧
    (∀ text : String, parse (parse text).canonical = parse text) ∧
    ∀ m n : TypeName, m.Dotless → n.Dotless → (m = n ↔ m.canonical = n.canonical) := by
  refine ⟨fun n => parse_canonical_eq_iff, fun rest => canonical_parse_dot, fun text => canonical_parse,
    fun text => parse_canonical (dotless_parse text), fun m n dotless dotless' => ?_⟩
  exact (canonical_inj dotless dotless').symm

/-- Names and texts with an empty namespace, a dot in front and two dots in a row. -/
theorem canonical_correspondence_dotted :
    let bare : TypeName := ⟨"", "Point"⟩
    let doubled : TypeName := ⟨"Acme.", "Point"⟩
    '.' ∉ "Point".toList ∧ (∀ rest : String, '.' ∉ rest.toList → "Acme..Point" ≠ "." ++ rest) ∧
      bare.Dotless ∧ doubled.Dotless ∧ (parse ".Point").canonical = "Point" ∧
      (parse "Acme..Point").canonical = "Acme..Point" ∧ parse doubled.canonical = doubled ∧
      (bare = doubled ↔ bare.canonical = doubled.canonical) := by
  intro bare doubled
  obtain ⟨names, dotted, texts, -, apart⟩ := canonical_correspondence
  have dotless : '.' ∉ "Point".toList := by decide +kernel
  have inner (rest : String) (_ : '.' ∉ rest.toList) : "Acme..Point" ≠ "." ++ rest := by
    intro same
    have first : "Acme..Point".toList.head? = some '.' := by
      rw [same, String.toList_append]
      rfl
    exact absurd first (by decide +kernel)
  exact ⟨dotless, inner, dotless, dotless, dotted "Point" dotless, texts "Acme..Point" inner,
    (names doubled).2 dotless, apart bare doubled dotless dotless⟩

end FluentWrappers.TypeName
