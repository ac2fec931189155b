/-!
# Type names (`SPEC_FULL.md`, 10.5, `QualifiedName`)

A type name is a simple name in a namespace. Its canonical form joins the two by a dot; a canonical
form is split at its last dot, so simple names are taken to hold none.
-/

namespace FluentWrappers

structure TypeName where
  namespaceName : String
  simple : String
  deriving DecidableEq, Repr, Inhabited

namespace TypeName

def splitAtLastDot : List Char → Option (List Char × List Char)
  | [] => none
  | c :: rest =>
    match splitAtLastDot rest with
    | some (before, after) => some (c :: before, after)
    | none => if c = '.' then some ([], rest) else none

def parse (canonical : String) : TypeName :=
  match splitAtLastDot canonical.toList with
  | some (before, after) => ⟨String.ofList before, String.ofList after⟩
  | none => ⟨"", canonical⟩

/-- The namespace, a dot and the simple name; the simple name alone if the namespace is empty (10.5). -/
def canonical (n : TypeName) : String :=
  if n.namespaceName.isEmpty then n.simple else n.namespaceName ++ "." ++ n.simple

def withSimple (n : TypeName) (simple : String) : TypeName :=
  ⟨n.namespaceName, simple⟩

theorem splitAtLastDot_eq_none_iff {cs : List Char} : splitAtLastDot cs = none ↔ '.' ∉ cs := by
  induction cs with
  | nil => simp [splitAtLastDot]
  | cons c rest ih =>
    cases h : splitAtLastDot rest with
    | some parts =>
      have dotted : '.' ∈ rest := Decidable.not_not.1 fun dotless => by
        simp [ih.2 dotless] at h
      simp [splitAtLastDot, h, dotted]
    | none =>
      by_cases hc : c = '.'
      · simp [splitAtLastDot, h, hc]
      · simp [splitAtLastDot, h, hc, ih.1 h, Ne.symm hc]

theorem eq_append_of_splitAtLastDot {cs before after : List Char}
    (h : splitAtLastDot cs = some (before, after)) :
    cs = before ++ '.' :: after ∧ '.' ∉ after := by
  induction cs generalizing before with
  | nil => simp [splitAtLastDot] at h
  | cons c rest ih =>
    cases hr : splitAtLastDot rest with
    | some parts =>
      obtain ⟨front, back⟩ := parts
      simp only [splitAtLastDot, hr, Option.some.injEq, Prod.mk.injEq] at h
      obtain ⟨rfl, rfl⟩ := h
      obtain ⟨split, dotless⟩ := ih hr
      exact ⟨by simp [split], dotless⟩
    | none =>
      by_cases hc : c = '.'
      · simp only [splitAtLastDot, hr, hc, if_true, Option.some.injEq, Prod.mk.injEq] at h
        obtain ⟨rfl, rfl⟩ := h
        exact ⟨by simp [hc], splitAtLastDot_eq_none_iff.1 hr⟩
      · simp [splitAtLastDot, hr, hc] at h

end TypeName

end FluentWrappers
