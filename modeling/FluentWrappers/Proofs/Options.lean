import FluentWrappers.Options
import FluentWrappers.Proofs.Text.WordChar
import Mathlib.Data.List.Infix
import Mathlib.Tactic.SplitIfs

/-!
# Sanitised names and validated options

A sanitised name is the longest end of a text's word characters that no ASCII digit begins, and a name
of that form is its own sanitised name. Validation looks at sanitised names only. So validated options
pass unchanged, and it makes no difference whether names are sanitised when they are chosen.
-/

namespace FluentWrappers

open Synthesis (SynthesisError ConfigurationFault)
open Text (InWordClass)

/-! ### Sanitised names -/

/-- The word characters of a text, in order. -/
def wordCharacters (text : String) : List Char := text.toList.filter (InWordClass ·)

/-- No ASCII digit is the first character. -/
def Undigited (cs : List Char) : Prop := ∀ c, cs.head? = some c → ¬ c.isDigit = true

/-- The longest end that no ASCII digit begins. -/
structure LongestEnd (cs name : List Char) : Prop where
  isEnd : name <:+ cs
  undigited : Undigited name
  longest : ∀ other, other <:+ cs → Undigited other → other.length ≤ name.length

theorem undigited_cons {c : Char} {cs : List Char} : Undigited (c :: cs) ↔ ¬ c.isDigit = true := by
  refine ⟨fun undigited => undigited c rfl, ?_⟩
  rintro notDigit first ⟨⟩
  exact notDigit

theorem undigited_dropWhile (cs : List Char) : Undigited (cs.dropWhile Char.isDigit) := by
  intro c first
  have kept := List.head?_dropWhile_not Char.isDigit cs
  rw [first] at kept
  exact Bool.eq_false_iff.1 kept

theorem longestEnd_dropWhile (cs : List Char) : LongestEnd cs (cs.dropWhile Char.isDigit) := by
  refine ⟨List.dropWhile_suffix _, undigited_dropWhile cs, fun other isEnd undigited => ?_⟩
  induction cs with
  | nil => exact isEnd.length_le
  | cons c cs ih =>
    by_cases digit : c.isDigit = true
    · rw [List.dropWhile_cons_of_pos digit]
      rcases List.suffix_cons_iff.1 isEnd with rfl | shorter
      · exact absurd digit (undigited_cons.1 undigited)
      · exact ih shorter
    · rw [List.dropWhile_cons_of_neg digit]
      exact isEnd.length_le

theorem LongestEnd.unique {cs name other : List Char} (h : LongestEnd cs name)
    (h' : LongestEnd cs other) : name = other := by
  have shorter := h'.longest name h.isEnd h.undigited
  have within := List.suffix_of_suffix_length_le h.isEnd h'.isEnd shorter
  exact within.eq_of_length_le (h.longest other h'.isEnd h'.undigited)

theorem toList_sanitizeName (text : String) :
    (sanitizeName text).toList = (wordCharacters text).dropWhile Char.isDigit := by
  unfold sanitizeName wordCharacters
  rw [String.toList_ofList]
  simp only [Text.decide_inWordClass]

/-- The longest end of a text's word characters that no ASCII digit begins is the sanitised name, and
nothing else is. -/
theorem sanitizeName_eq_iff {text name : String} :
    sanitizeName text = name ↔ LongestEnd (wordCharacters text) name.toList := by
  have longest := longestEnd_dropWhile (wordCharacters text)
  rw [← toList_sanitizeName] at longest
  refine ⟨fun same => same ▸ longest, fun h => ?_⟩
  exact String.toList_inj.1 (longest.unique h)

theorem sanitizeName_sublist (text : String) : (sanitizeName text).toList.Sublist text.toList := by
  rw [toList_sanitizeName]
  exact (List.dropWhile_sublist _).trans List.filter_sublist

theorem inWordClass_of_mem_sanitizeName {text : String} {c : Char}
    (member : c ∈ (sanitizeName text).toList) : InWordClass c := by
  rw [toList_sanitizeName] at member
  have kept := (List.dropWhile_sublist _).subset member
  exact of_decide_eq_true (List.mem_filter.1 kept).2

theorem undigited_sanitizeName (text : String) : Undigited (sanitizeName text).toList :=
  (sanitizeName_eq_iff.1 rfl).undigited

/-- The names that sanitising leaves alone are made of word characters, an ASCII digit not being the
first. -/
theorem sanitizeName_eq_self_iff {name : String} : sanitizeName name = name ↔
    (∀ c ∈ name.toList, InWordClass c) ∧ Undigited name.toList := by
  constructor
  · intro same
    rw [← same]
    exact ⟨fun _ => inWordClass_of_mem_sanitizeName, undigited_sanitizeName name⟩
  · rintro ⟨words, undigited⟩
    have whole : wordCharacters name = name.toList :=
      List.filter_eq_self.2 fun c member => decide_eq_true (words c member)
    rw [sanitizeName_eq_iff, whole]
    exact ⟨List.suffix_rfl, undigited, fun other isEnd _ => isEnd.length_le⟩

theorem sanitizeName_sanitizeName (text : String) :
    sanitizeName (sanitizeName text) = sanitizeName text :=
  sanitizeName_eq_self_iff.2
    ⟨fun _ => inWordClass_of_mem_sanitizeName, undigited_sanitizeName text⟩

/-! ### Validated options -/

/-- The error, whichever accessor name had been given. -/
def Synthesis.SynthesisError.forgetAccessor : SynthesisError → SynthesisError
  | .configuration (.accessorNameEmpty _) => .configuration (.accessorNameEmpty "")
  | error => error

namespace EngineOptions

variable {o p v : EngineOptions}

/-- Options pass validation if the accessor has a name, the affixes of interfaces and proxies are not
both empty, interfaces and fluent wrappers have different prefixes, and waits take time. -/
theorem validate_eq_ok_iff : o.validate = .ok v ↔ v = o.sanitized ∧ v.objectProperty ≠ "" ∧
    ¬ (v.interfacePrefix = "" ∧ v.proxySuffix = "") ∧ v.interfacePrefix ≠ v.fluentPrefix ∧
    v.waitTimeoutMs ≠ 0 := by
  have faultless : ∀ accessor, o.sanitized.fault? accessor = none ↔
      o.sanitized.objectProperty ≠ "" ∧
      ¬ (o.sanitized.interfacePrefix = "" ∧ o.sanitized.proxySuffix = "") ∧
      o.sanitized.interfacePrefix ≠ o.sanitized.fluentPrefix ∧ o.sanitized.waitTimeoutMs ≠ 0 := by
    intro accessor
    simp only [EngineOptions.fault?, String.isEmpty_iff, Bool.and_eq_true]
    split_ifs <;> simp_all
  unfold EngineOptions.validate
  constructor
  · intro valid
    split at valid
    case h_1 => cases valid
    case h_2 none =>
      cases valid
      exact ⟨rfl, (faultless _).1 none⟩
  · rintro ⟨rfl, sound⟩
    rw [(faultless _).2 sound]

theorem sanitized_sanitized (o : EngineOptions) : o.sanitized.sanitized = o.sanitized := by
  simp only [sanitized, sanitizeName_sanitizeName]

theorem validate_validated (valid : o.validate = .ok v) : v.validate = .ok v := by
  obtain ⟨rfl, sound⟩ := validate_eq_ok_iff.1 valid
  exact validate_eq_ok_iff.2 ⟨o.sanitized_sanitized.symm, sound⟩

/-- The names as they were given are seen in one error only, the one that quotes the accessor's. -/
theorem validate_of_sanitized_eq (same : o.sanitized = p.sanitized) :
    o.validate.mapError (·.forgetAccessor) = p.validate.mapError (·.forgetAccessor) := by
  unfold validate fault?
  rw [same]
  split_ifs <;> rfl

/-! ### Choosing names -/

/-- The options that are names. -/
inductive NameOption where
  | interfacePrefix | proxySuffix | fluentPrefix | objectProperty

/-- The options with one name as it is given. -/
def give (o : EngineOptions) : NameOption × String → EngineOptions
  | (.interfacePrefix, name) => { o with interfacePrefix := name }
  | (.proxySuffix, name) => { o with proxySuffix := name }
  | (.fluentPrefix, name) => { o with fluentPrefix := name }
  | (.objectProperty, name) => { o with objectProperty := name }

/-- The options with one name sanitised. -/
def choose (o : EngineOptions) : NameOption × String → EngineOptions
  | (.interfacePrefix, name) => o.withInterfacePrefix name
  | (.proxySuffix, name) => o.withProxySuffix name
  | (.fluentPrefix, name) => o.withFluentPrefix name
  | (.objectProperty, name) => o.withObjectProperty name

theorem sanitized_give (o : EngineOptions) (choice : NameOption × String) :
    (o.give choice).sanitized = o.sanitized.choose choice := by
  obtain ⟨option, name⟩ := choice
  cases option <;> rfl

theorem sanitized_choose (o : EngineOptions) (choice : NameOption × String) :
    (o.choose choice).sanitized = o.sanitized.choose choice := by
  obtain ⟨option, name⟩ := choice
  cases option <;>
    simp only [choose, withInterfacePrefix, withProxySuffix, withFluentPrefix, withObjectProperty,
      sanitized, sanitizeName_sanitizeName]

theorem sanitized_foldl_choose (choices : List (NameOption × String)) (o : EngineOptions) :
    (choices.foldl choose o).sanitized = (choices.foldl give o).sanitized := by
  rw [← List.foldl_hom sanitized fun o choice => (sanitized_choose o choice).symm,
    ← List.foldl_hom sanitized fun o choice => (sanitized_give o choice).symm]

/-- The sanitised name of a text is the longest end of its word characters that no ASCII digit begins.
It is a subsequence of the text, all its characters are word characters, and it is its own sanitised
name. Validated options pass validation unchanged. Names that are sanitised as they are chosen, in
whatever order and however often, lead to the same validated options or the same error as names given
as they are, save for the accessor name that the error may quote. -/
theorem sanitizing_projects :
    (∀ text name : String, sanitizeName text = name ↔ LongestEnd (wordCharacters text) name.toList) ∧
    (∀ text : String, (sanitizeName text).toList.Sublist text.toList ∧
      (∀ c ∈ (sanitizeName text).toList, InWordClass c) ∧
      sanitizeName (sanitizeName text) = sanitizeName text) ∧
    (∀ o v : EngineOptions, o.validate = .ok v → v.validate = .ok v) ∧
    ∀ (o : EngineOptions) (choices : List (NameOption × String)),
      (choices.foldl choose o).validate.mapError (·.forgetAccessor) =
        (choices.foldl give o).validate.mapError (·.forgetAccessor) := by
  refine ⟨fun text name => sanitizeName_eq_iff, fun text => ?_, fun o v => validate_validated,
    fun o choices => ?_⟩
  · exact ⟨sanitizeName_sublist text, fun _ => inWordClass_of_mem_sanitizeName,
      sanitizeName_sanitizeName text⟩
  · exact validate_of_sanitized_eq (sanitized_foldl_choose choices o)

/-- In the text a digit comes to the front as the mark before it goes, and a digit beyond ASCII stays
there. Of the options, some pass validation, and others lack an accessor name, which the error quotes as
it was given or as it was sanitised. -/
theorem sanitizing_projects_chain :
    let text := "!1२ Foo-é"
    let given : EngineOptions := { fluentPrefix := "9Chain-", objectProperty := "Inner Value" }
    let valid : EngineOptions := { fluentPrefix := "Chain", objectProperty := "InnerValue" }
    let choices := [(.interfacePrefix, "1I"), (.proxySuffix, "Pro xy"), (.fluentPrefix, "9Chain-"),
      (.objectProperty, "!!")]
    sanitizeName text = "२Fooé" ∧ LongestEnd (wordCharacters text) "२Fooé".toList ∧
      'é' ∈ (sanitizeName text).toList ∧ InWordClass 'é' ∧
      given.validate = .ok valid ∧ valid.validate = .ok valid ∧
      (choices.foldl choose {}).validate = .error (.configuration (.accessorNameEmpty "")) ∧
      (choices.foldl give {}).validate = .error (.configuration (.accessorNameEmpty "!!")) ∧
      (choices.foldl choose {}).validate.mapError (·.forgetAccessor) =
        (choices.foldl give {}).validate.mapError (·.forgetAccessor) := by
  intro text given valid choices
  obtain ⟨longest, projected, validated, chosen⟩ := sanitizing_projects
  have sanitised : sanitizeName text = "२Fooé" := by decide +kernel
  have member : 'é' ∈ (sanitizeName text).toList := by decide +kernel
  have passes : given.validate = .ok valid := by decide +kernel
  exact ⟨sanitised, (longest text "२Fooé").1 sanitised, member, (projected text).2.1 'é' member, passes,
    validated given valid passes, by decide +kernel, by decide +kernel, chosen {} choices⟩

end EngineOptions

end FluentWrappers
