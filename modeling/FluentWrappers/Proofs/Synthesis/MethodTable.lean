import FluentWrappers.Proofs.FirstOccurrence
import FluentWrappers.Proofs.Synthesis.Memoize
import FluentWrappers.Proofs.Synthesis.Shape
import FluentWrappers.Synthesis.Synthesizer

/-!
# Method tables of fluent wrappers

What a fluent wrapper declares is a list of entries that can be told from the members and the options. It
is made if no two entries have the same name and number of parameters, and then each is found by them.
Otherwise the first entry that repeats an earlier one is refused, and nothing is left in the cache.
-/

namespace FluentWrappers.Synthesis

open Fallible

/-! ### Entries -/

/-- A method as callers know it. -/
structure MethodEntry where
  kind : MethodKind
  name : String
  arity : Nat
  deriving DecidableEq, Repr

def MethodEntry.signature (e : MethodEntry) : String × Nat := (e.name, e.arity)

def MethodSpec.entry (m : MethodSpec) : MethodEntry := ⟨m.kind, m.name, m.arity⟩

/-- The entries for a member: its setter and, unless it is suppressed, its getter. -/
def memberEntries (options : TypeOptions) (m : Member) : List MethodEntry :=
  ⟨.instanceMethod, m.fluentSetter, 1⟩ ::
    if m.hasFluentGetter options.settersOnly then [⟨.instanceMethod, m.fluentGetter, 0⟩] else []

/-- The entries of a fluent wrapper: two constructors, those for the members in order, the accessor to
what is wrapped, and a factory if it is given a name that is not blank. -/
def fluentEntries (objectProperty : String) (options : TypeOptions) (members : List Member) :
    List MethodEntry :=
  [⟨.constructor, constructorName, 0⟩, ⟨.constructor, constructorName, 1⟩] ++
    members.flatMap (memberEntries options) ++
    [⟨.instanceMethod, getterName objectProperty, 0⟩] ++
    ((options.staticFactory.bind Text.notBlank?).map fun name => ⟨.staticMethod, name, 0⟩).toList

/-- No two entries have the same name and number of parameters. -/
def TellApart (entries : List MethodEntry) : Prop := (entries.map MethodEntry.signature).Nodup

instance (entries : List MethodEntry) : Decidable (TellApart entries) :=
  inferInstanceAs (Decidable (List.Nodup _))

variable {c : FluentContext} {options : TypeOptions} {members : List Member}
  {methods : List MethodSpec}

theorem entries_methodsOf (m : Member) :
    (c.methodsOf options m).map MethodSpec.entry = memberEntries options m := by
  unfold FluentContext.methodsOf memberEntries
  split <;> rfl

theorem entries_wantedOf :
    (c.wantedOf options members).map MethodSpec.entry =
      fluentEntries c.objectProperty options members := by
  have ofMembers : (members.flatMap (c.methodsOf options)).map MethodSpec.entry =
      members.flatMap (memberEntries options) := by
    rw [List.map_flatMap]
    exact congrArg (List.flatMap · members) (funext entries_methodsOf)
  have ofFactory : (c.factoryOf options).map MethodSpec.entry =
      ((options.staticFactory.bind Text.notBlank?).map
        fun name => (⟨.staticMethod, name, 0⟩ : MethodEntry)).toList := by
    unfold FluentContext.factoryOf
    cases options.staticFactory.bind Text.notBlank? <;> rfl
  unfold FluentContext.wantedOf fluentEntries
  rw [List.map_append, List.map_append, List.map_append, ofMembers, ofFactory]
  rfl

theorem tellApart_entries : TellApart (methods.map MethodSpec.entry) ↔ Unambiguous methods := by
  unfold TellApart Unambiguous
  rw [List.map_map]
  rfl

theorem find?_of_unambiguous {m : MethodSpec} (distinct : Unambiguous methods) (isIn : m ∈ methods) :
    methods.find? (fun other => other.name == m.name && other.arity == m.arity) = some m := by
  have found := FirstOccurrence.find?_key distinct isIn
  exact found

/-! ### Requests for a fluent wrapper -/

namespace Synthesizer

variable {s : Synthesizer} {proxy interface : SynthesizedType} {p : Progress}

def fluentContextOf (s : Synthesizer) (proxy interface : SynthesizedType) : FluentContext :=
  ⟨fluentName s.options proxy.name, interface.name, proxy.name, s.options.objectProperty⟩

/-- The key under which the fluent wrapper of a proxy is made. -/
def fluentKeyOf (s : Synthesizer) (proxy : SynthesizedType) : CacheKey :=
  ⟨.fluent, (fluentName s.options proxy.name).canonical⟩

section

variable (someMembers : proxy.members ≠ []) (running : p.session.isCancelled = false)
  (free : p.session.cache.slotOf? (s.fluentKeyOf proxy) = none)

include someMembers running free

theorem fluent_of_ok {t : SynthesizedType}
    (made : fluentType (s.fluentContextOf proxy interface) proxy options = .ok t) :
    s.fluent proxy interface options p =
      (.ok (some t), (p.enter (s.fluentKeyOf proxy)).leave p.cache.slots.length (some t)) := by
  unfold fluent
  refine memoize_of_ok running free ?_
  rw [if_neg (by simpa using someMembers)]
  refine bind_ok (a := t) ?_
  rw [lift_apply]
  exact congrArg (·, _) made

theorem fluent_of_error {e : SynthesisError}
    (refused : fluentType (s.fluentContextOf proxy interface) proxy options = .error e) :
    s.fluent proxy interface options p = (.error e,
      (p.enter (s.fluentKeyOf proxy)).abandon (s.fluentKeyOf proxy) p.cache.slots.length e) := by
  unfold fluent
  refine memoize_of_error running free ?_
  rw [if_neg (by simpa using someMembers)]
  refine bind_error ?_
  rw [lift_apply]
  exact congrArg (·, _) refused

end

/-- The fluent wrapper of a proxy with members, asked for under a key that is not in the cache, fails
exactly if two of its entries have the same name and number of parameters. What is refused is the first
entry that repeats an earlier one, and the key stays out of the cache. If all entries can be told apart
the wrapper has them in order, and each is found by its name and number of parameters. -/
theorem fluent_declares (s : Synthesizer) (proxy interface : SynthesizedType) (options : TypeOptions)
    (p : Progress) (someMembers : proxy.members ≠ []) (running : p.session.isCancelled = false)
    (absent : p.session.cache.contains (s.fluentKeyOf proxy) = false) :
    let entries := fluentEntries s.options.objectProperty options proxy.members
    let result := (s.fluent proxy interface options p).1
    let after := (s.fluent proxy interface options p).2.session
    ((∃ fault, result = .error (.configuration fault)) ↔ ¬ TellApart entries) ∧
      (¬ TellApart entries → after.cache.contains (s.fluentKeyOf proxy) = false ∧
        after.types = p.session.types ∧ ∃ earlier e later, entries = earlier ++ e :: later ∧
          TellApart earlier ∧ ¬ TellApart (earlier ++ [e]) ∧ result = .error (.configuration
            (.methodDeclaredTwice (fluentName s.options proxy.name).canonical e.name e.arity))) ∧
      (TellApart entries → ∃ t, result = .ok (some t) ∧ t.methods.map MethodSpec.entry = entries ∧
        (t.methods.map fun m => (m.name, m.arity)).Nodup ∧
          ∀ e ∈ entries, ∃ m, t.findMethod? e.name e.arity = some m ∧ m.entry = e) := by
  intro entries result after
  have free : p.session.cache.slotOf? (s.fluentKeyOf proxy) = none := by
    simpa [Cache.contains] using absent
  have isTable : ((s.fluentContextOf proxy interface).wantedOf options proxy.members).map
      MethodSpec.entry = entries := entries_wantedOf
  cases shape : fluentType (s.fluentContextOf proxy interface) proxy options with
  | ok t =>
    obtain ⟨rfl, distinct⟩ := fluentType_eq_ok_iff.1 shape
    have run := fluent_of_ok someMembers running free shape
    have isResult : result = .ok (some (fluentOf (s.fluentContextOf proxy interface) proxy options)) :=
      congrArg Prod.fst run
    have apart : TellApart entries := isTable ▸ tellApart_entries.2 distinct
    refine ⟨iff_of_false ?_ (not_not.2 apart), fun clash => absurd apart clash, fun _ => ?_⟩
    · rintro ⟨fault, isFault⟩
      rw [isResult] at isFault
      cases isFault
    · refine ⟨_, isResult, isTable, distinct, fun e isIn => ?_⟩
      rw [← isTable] at isIn
      obtain ⟨m, isMethod, rfl⟩ := List.mem_map.1 isIn
      exact ⟨m, find?_of_unambiguous distinct isMethod, rfl⟩
  | error fault =>
    have run := fluent_of_error someMembers running free shape
    obtain ⟨earlier, m, later, isSplit, distinct, clash, rfl⟩ := firstClash_of_fluentType shape
    have isResult := congrArg Prod.fst run
    have isAfter := congrArg (·.2.session) run
    replace isResult : result = _ := isResult
    replace isAfter : after = _ := isAfter
    rw [isSplit, List.map_append, List.map_cons] at isTable
    have ambiguous : ¬ TellApart entries := by
      intro apart
      rw [← isTable, ← List.map_cons, ← List.map_append, tellApart_entries,
        List.append_cons] at apart
      exact clash apart.of_append
    refine ⟨iff_of_true ⟨_, isResult⟩ ambiguous, fun _ => ⟨?_, ?_, ?_⟩,
      fun apart => absurd apart ambiguous⟩
    · rw [isAfter]
      exact congrArg Option.isSome (Cache.slotOf?_release_claim free)
    · rw [isAfter]
      exact types_enter free
    · refine ⟨_, m.entry, _, isTable.symm, tellApart_entries.2 distinct, ?_, isResult⟩
      rw [← List.map_singleton, ← List.map_append, tellApart_entries]
      exact clash

/-- The proxy of a person with a renamed setter, a blank getter name and a getter that is always there. -/
def personProxy : SynthesizedType where
  name := ⟨"Acme", "PersonProxy"⟩
  kind := .proxy
  source := ⟨"Acme", "Person"⟩
  members := [
    { name := "Name", type := .string, setterName := some "Named", getterName := some "  " },
    { name := "Age", type := .primitive .i32, suppressGetter := some false }]

def personInterface : SynthesizedType where
  name := ⟨"Acme", "IPerson"⟩
  kind := .interface
  source := ⟨"Acme", "Person"⟩

/-- With setters only and a factory the wrapper of a person has these methods. A factory that is called
like the getter of the age is refused. -/
theorem fluent_declares_person :
    let s : Synthesizer := ⟨.empty, {}⟩
    let p : Progress := ⟨Session.start 1000, []⟩
    personProxy.members ≠ [] ∧ p.session.isCancelled = false ∧
      p.session.cache.contains (s.fluentKeyOf personProxy) = false ∧
      (∃ t, (s.fluent personProxy personInterface ⟨true, some "Create"⟩ p).1 = .ok (some t) ∧
        t.methods.map MethodSpec.entry = [⟨.constructor, ".ctor", 0⟩, ⟨.constructor, ".ctor", 1⟩,
          ⟨.instanceMethod, "Named", 1⟩, ⟨.instanceMethod, "Age", 1⟩, ⟨.instanceMethod, "Age", 0⟩,
          ⟨.instanceMethod, "get_Object", 0⟩, ⟨.staticMethod, "Create", 0⟩]) ∧
      ∃ fault, (s.fluent personProxy personInterface ⟨true, some "Age"⟩ p).1 =
        .error (.configuration fault) := by
  intro s p
  have apart : TellApart (fluentEntries "Object" ⟨true, some "Create"⟩ personProxy.members) := by
    decide +kernel
  have ambiguous : ¬ TellApart (fluentEntries "Object" ⟨true, some "Age"⟩ personProxy.members) := by
    decide +kernel
  obtain ⟨-, -, declares⟩ :=
    fluent_declares s personProxy personInterface ⟨true, some "Create"⟩ p nofun rfl rfl
  obtain ⟨fails, -, -⟩ :=
    fluent_declares s personProxy personInterface ⟨true, some "Age"⟩ p nofun rfl rfl
  obtain ⟨t, made, isTable, -, -⟩ := declares apart
  exact ⟨nofun, rfl, rfl, ⟨t, made, isTable.trans (by decide +kernel)⟩, fails.2 ambiguous⟩

end Synthesizer

end FluentWrappers.Synthesis
