import FluentWrappers.Proofs.Source.Name
import FluentWrappers.Synthesis.Shape
import Mathlib.Data.List.TakeWhile

/-!
# Which names stay apart

The proxies of differently named types have different names, since the suffix ends the whole name.
The prefix of an interface stands inside the name; it keeps names apart whose simple parts hold no dot.
-/

namespace FluentWrappers

namespace TypeName

/-- The characters before the simple name. -/
def qualifier (n : TypeName) : List Char :=
  if n.namespaceName.isEmpty then [] else n.namespaceName.toList ++ ['.']

theorem toList_canonical (n : TypeName) : n.canonical.toList = n.qualifier ++ n.simple.toList := by
  unfold canonical qualifier
  split
  · rfl
  · rw [String.toList_append, String.toList_append]
    rfl

theorem takeWhile_qualifier (n : TypeName) :
    n.qualifier.reverse.takeWhile (· != '.') = [] := by
  unfold qualifier
  split
  · rfl
  · rw [List.reverse_append]
    rfl

end TypeName

namespace Synthesis

variable {o : EngineOptions} {m n : TypeName}

theorem canonical_proxyName (o : EngineOptions) (n : TypeName) :
    (proxyName o n).canonical = n.canonical ++ o.proxySuffix := by
  apply String.toList_inj.1
  rw [String.toList_append, TypeName.toList_canonical, TypeName.toList_canonical, List.append_assoc,
    ← String.toList_append]
  rfl

theorem canonical_eq_of_proxyName (h : (proxyName o m).canonical = (proxyName o n).canonical) :
    m.canonical = n.canonical := by
  rw [canonical_proxyName, canonical_proxyName] at h
  have characters := congrArg String.toList h
  rw [String.toList_append, String.toList_append] at characters
  exact String.toList_inj.1 (List.append_cancel_right characters)

/-- What follows the last dot of an interface's name, read from the end. -/
theorem takeWhile_interfaceName (dotless : n.Dotless) :
    (interfaceName o n).canonical.toList.reverse.takeWhile (· != '.') =
      n.simple.toList.reverse ++ o.interfacePrefix.toList.reverse.takeWhile (· != '.') := by
  have simple : ∀ c ∈ n.simple.toList.reverse, (c != '.') = true := by
    intro c isIn
    rw [bne_iff_ne]
    rintro rfl
    exact dotless (List.mem_reverse.1 isIn)
  have characters : (interfaceName o n).canonical.toList =
      n.qualifier ++ (o.interfacePrefix.toList ++ n.simple.toList) := by
    rw [TypeName.toList_canonical, ← String.toList_append]
    rfl
  rw [characters, List.reverse_append, List.reverse_append, List.append_assoc,
    List.takeWhile_append_of_pos simple, List.takeWhile_append,
    TypeName.takeWhile_qualifier, List.append_nil]
  split
  case isTrue whole =>
    rw [(List.takeWhile_prefix _).eq_of_length whole]
  case isFalse => rfl

theorem canonical_eq_of_interfaceName (dotless : m.Dotless) (dotless' : n.Dotless)
    (h : (interfaceName o m).canonical = (interfaceName o n).canonical) :
    m.canonical = n.canonical := by
  have ends := takeWhile_interfaceName (o := o) dotless
  rw [h, takeWhile_interfaceName dotless'] at ends
  have simple : n.simple.toList = m.simple.toList :=
    List.reverse_inj.1 (List.append_cancel_right ends)
  have characters := congrArg String.toList h
  rw [TypeName.toList_canonical, TypeName.toList_canonical] at characters
  have prefixed (k : TypeName) : (interfaceName o k).simple.toList =
      o.interfacePrefix.toList ++ k.simple.toList := String.toList_append
  rw [prefixed, prefixed, simple] at characters
  have qualifiers : m.qualifier = n.qualifier := List.append_cancel_right characters
  apply String.toList_inj.1
  rw [TypeName.toList_canonical, TypeName.toList_canonical, qualifiers, simple]

/-! ### Accessors -/

theorem getterName_inj {a b : String} : getterName a = getterName b ↔ a = b := by
  unfold getterName
  rw [← String.toList_inj, String.toList_append, String.toList_append, List.append_cancel_left_eq,
    String.toList_inj]

theorem setterName_inj {a b : String} : setterName a = setterName b ↔ a = b := by
  unfold setterName
  rw [← String.toList_inj, String.toList_append, String.toList_append, List.append_cancel_left_eq,
    String.toList_inj]

theorem getterName_ne_setterName (a b : String) : getterName a ≠ setterName b := by
  intro same
  have characters := congrArg String.toList same
  unfold getterName setterName at characters
  rw [String.toList_append, String.toList_append] at characters
  have first := congrArg List.head? characters
  cases first

theorem getterName_ne_constructorName (a : String) : getterName a ≠ constructorName := by
  intro same
  have characters := congrArg String.toList same
  unfold getterName at characters
  rw [String.toList_append] at characters
  have first := congrArg List.head? characters
  cases first

end Synthesis

end FluentWrappers
