import FluentWrappers.Proofs.Synthesis.History

/-!
# When a synthesis succeeds

From lawful progress the synthesis of a source type succeeds exactly if the type has no members at all,
or is clean and its fluent wrapper has no two methods alike. It makes the three wrappers of the type and
what its members ask for, and nothing else.
-/

namespace FluentWrappers.Synthesis

open Fallible

namespace Synthesizer

def wrappersOf (s : Synthesizer) (root : SourceType) : Wrappers :=
  ⟨s.madeInterface root, s.madeProxy root, s.madeFluent root⟩

/-- The key is one for a wrapper of the source type. -/
def IsWrapperKey (s : Synthesizer) (root : SourceType) (key : CacheKey) : Prop :=
  key = s.keyOf .interface root ∨ key = s.keyOf .proxy root ∨ key = s.keyOf .fluent root

/-- The synthesis of the source type asks for the key. -/
def Makes (s : Synthesizer) (root : SourceType) (key : CacheKey) : Prop :=
  s.hasMembers root = true ∧ (s.IsWrapperKey root key ∨ s.AsksAny (s.memberNeeds root) key)

/-- The synthesis of the source type can succeed where the old keys are complete. -/
def Ready (s : Synthesizer) (old : CacheKey → Prop) (root : SourceType) : Prop :=
  s.catalog.extract root = .ok [] ∨ s.hasMembers root = true ∧ ¬ s.Clashes root ∧
    (old (s.interfaceKey root) ∧ old (s.proxyKey root) ∨ (s.Strict → s.Clean old root))

variable {s : Synthesizer} {old within : CacheKey → Prop} {p q : Progress} {root : SourceType}
  {key : CacheKey} {kind : ProductKind}

theorem resolvedMembers_ne_nil (some : s.hasMembers root = true) : s.resolvedMembers root ≠ [] := by
  obtain ⟨members, found, isSome⟩ := SourceCatalog.exists_extract (hasMembers_iff.1 some)
  rw [resolvedMembers_eq found]
  exact mt List.map_eq_nil_iff.1 isSome

theorem Makes.of_asks (asks : s.AsksAny (s.memberNeeds root) key) : s.Makes root key := by
  refine ⟨?_, Or.inr asks⟩
  obtain ⟨name, isIn, -⟩ := asks
  obtain ⟨-, m, eligible, -⟩ := exists_member_of_memberNeeds isIn
  exact hasMembers_iff.2 ⟨m, eligible⟩

theorem step_makes (apart : s.Apart) (known : s.catalog.Known root)
    (isKey : s.IsWrapperKey root (s.keyOf kind root))
    (step : Step s old (fun key => key = s.keyOf kind root ∨ s.AsksAny (s.memberNeeds root) key)
      p q) : Step s old (s.Makes root) p q := by
  refine step.mono fun key made within => ?_
  rcases within with rfl | asks
  · obtain ⟨type, has⟩ := made
    have product := step.lawful.has_product apart known has
    refine ⟨hasMembers_of_product product ?_, Or.inl isKey⟩
    rintro rfl
    rcases isKey with same | same | same <;> cases congrArg CacheKey.kind same
  · exact Makes.of_asks asks

theorem fluentType_madeProxy (some : ¬ s.Clashes root) :
    fluentType (s.fluentContext root) (s.madeProxy root) root.options = .ok (s.madeFluent root) :=
  fluentType_eq_ok_iff.2 ⟨rfl, not_not.1 some⟩

theorem ends_fluentType (hasSome : s.hasMembers root = true)
    (images : s.Strict → ∀ m, s.catalog.EligibleMember root m → s.image? m.type ≠ none) :
    Ends (do
        return some (← fluentType (s.fluentContext root) (s.madeProxy root) root.options) :
          Synth (Option SynthesizedType)) p
      (fun made q => q = p ∧ IsProduct s .fluent root made)
      (fun e q => q = p ∧ e ≠ .cancelled ∧ s.Clashes root) := by
  by_cases clashes : s.Clashes root
  · rcases shape : fluentType (s.fluentContext root) (s.madeProxy root) root.options with e | t
    · have lifted : (liftM (Except.error e : Except SynthesisError SynthesizedType) :
          Synth SynthesizedType) p = (.error e, p) := rfl
      have live : e ≠ .cancelled := by
        obtain ⟨method, arity, rfl⟩ := methodDeclaredTwice_of_fluentType shape
        exact fun same => by cases same
      exact ends_bind_error lifted ⟨rfl, live, clashes⟩
    · exact absurd (fluentType_eq_ok_iff.1 shape).2 clashes
  · have lifted : (liftM (fluentType (s.fluentContext root) (s.madeProxy root) root.options) :
        Synth SynthesizedType) p = (.ok (s.madeFluent root), p) := by
      rw [lift_apply, fluentType_madeProxy clashes]
    refine ends_bind_ok lifted (ends_pure ⟨rfl, ?_⟩)
    exact {
      eq_product := (product_fluent hasSome clashes).symm
      empty := fun same => by cases same
      images := fun strict _ _ => images strict }

/-- The fluent wrapper fails only for two methods alike. -/
theorem ends_fluent (apart : s.Apart) (known : s.catalog.Known root) (lawful : Lawful s old p)
    (idle : p.scope = []) (some : s.hasMembers root = true)
    (images : s.Strict → ∀ m, s.catalog.EligibleMember root m → s.image? m.type ≠ none) :
    Ends (s.fluent (s.madeProxy root) (s.madeInterface root) root.options) p
      (fun made q => Step s old (s.Makes root) p q ∧ (Whole s old p → Whole s old q) ∧
        made = s.product root .fluent ∧ ¬ s.Clashes root ∧ q.Bound (s.keyOf .fluent root))
      (fun e q => Step s old (s.Makes root) p q ∧ e ≠ .cancelled ∧ s.Clashes root) := by
  have isWrapper : s.IsWrapperKey root (s.keyOf .fluent root) := Or.inr (Or.inr rfl)
  have free : s.keyOf .fluent root ∉ p.scope := idle ▸ List.not_mem_nil
  have other : s.keyOf .fluent root ∉ s.memberKeys root := by
    intro isKey
    obtain ⟨kind, isKind, same⟩ := mem_memberKeys_iff.1 isKey
    exact absurd (congrArg CacheKey.kind same).symm isKind.ne_fluent
  have members : (s.madeProxy root).members.isEmpty = false := by
    rw [List.isEmpty_eq_false_iff]
    exact resolvedMembers_ne_nil some
  unfold fluent
  refine (lawful.ends_memoize (fun _ => False) (s.Clashes root) apart known rfl free
    (fun _ _ => loose_of_fluent rfl) ?_).mono ?_ ?_
  · intro _ entered
    rw [members, if_neg Bool.false_ne_true]
    refine (ends_fluentType some images).mono ?_ ?_
    · rintro made q ⟨rfl, product⟩
      exact ⟨Step.refl entered, id, product, fun isKey => absurd isKey other⟩
    · rintro e q ⟨rfl, live, clashes⟩
      exact ⟨Step.refl entered, live, clashes⟩
  · rintro made q ⟨step, whole, product, bound⟩
    have distinct : ¬ s.Clashes root := by
      intro clashes
      have none : s.product root .fluent = none := if_neg fun h => h.2 clashes
      have empty := product.empty (product.eq_product.trans none)
      rw [hasMembers_of_extract_nil empty] at some
      cases some
    refine ⟨step.weaken ?_, whole, product.eq_product, distinct, bound⟩
    rintro key (rfl | impossible)
    · exact ⟨some, Or.inl isWrapper⟩
    · exact impossible.elim
  · rintro e q ⟨step, live, clashes, -⟩
    exact ⟨step.weaken fun _ impossible => impossible.elim, live, clashes⟩

theorem not_ready_of_blocked (blocked : s.Blocked old root) (fresh : ¬ old (s.keyOf kind root))
    (isKind : kind = .interface ∨ kind = .proxy) : ¬ s.Ready old root := by
  rintro (empty | ⟨some, -, made | clean⟩)
  · exact blocked.1 empty
  · rcases isKind with rfl | rfl
    · exact fresh made.1
    · exact fresh made.2
  · exact blocked.2 ⟨some, clean⟩

theorem ends_synthesize (apart : s.Apart) (known : s.catalog.Known root) (lawful : Lawful s old p)
    (idle : p.scope = []) :
    Ends (s.synthesize root) p
      (fun made q => Step s old (s.Makes root) p q ∧ (Whole s old p → Whole s old q) ∧
        (made = none ∧ s.catalog.extract root = .ok [] ∨
          made = some (s.wrappersOf root) ∧ s.hasMembers root = true ∧ ¬ s.Clashes root ∧
            ∀ key, s.IsWrapperKey root key → q.Bound key))
      (fun e q => Step s old (s.Makes root) p q ∧ e ≠ .cancelled ∧ ¬ s.Ready old root) := by
  have resolves : s.Resolves old s.nestingBound s.members := resolves_members apart
  have isInterface : s.IsWrapperKey root (s.keyOf .interface root) := Or.inl rfl
  have isProxy : s.IsWrapperKey root (s.keyOf .proxy root) := Or.inr (Or.inl rfl)
  have room {p : Progress} (idle : p.scope = []) : Room s (s.nestingBound + 1) p :=
    room_of_idle idle (Nat.le_succ _)
  have interfaces : s.Produces old .interface root p (s.interface root) :=
    produces_interfaceVia resolves apart known lawful (fun _ => room idle)
      (idle ▸ List.not_mem_nil)
  unfold synthesize
  refine interfaces.bind ?_ ?_
  · rintro made q ⟨step, whole, product, boundInterface⟩
    have step := step_makes apart known isInterface step
    have idle := step.scope.trans idle
    cases some : s.hasMembers root with
    | false =>
      have none : s.product root .interface = none := product_eq_none some nofun
      have empty := product.empty (product.eq_product.trans none)
      rw [product.eq_product, none]
      exact ends_pure ⟨step, whole, Or.inl ⟨rfl, empty⟩⟩
    | true =>
      rw [product.eq_product, product_interface some]
      have proxies : s.Produces old .proxy root q
          (s.proxy root (Option.some (s.madeInterface root).name)) :=
        produces_proxyVia resolves apart known step.lawful (fun _ => room idle)
          (idle ▸ List.not_mem_nil)
      refine proxies.bind ?_ ?_
      · rintro _ r ⟨stepProxy, wholeProxy, product, boundProxy⟩
        have stepProxy := step_makes apart known isProxy stepProxy
        have idle := stepProxy.scope.trans idle
        have made := product.eq_product.trans (product_proxy some)
        have images (strict : s.Strict) := product.images strict (by simp [made]) nofun
        rw [made]
        refine (ends_fluent apart known stepProxy.lawful idle some images).bind ?_ ?_
        · rintro _ r' ⟨stepFluent, wholeFluent, rfl, distinct, boundFluent⟩
          rw [product_fluent some distinct]
          refine ends_pure ⟨(step.trans stepProxy).trans stepFluent,
            wholeFluent ∘ wholeProxy ∘ whole, Or.inr ⟨rfl, rfl, distinct, ?_⟩⟩
          rintro key (rfl | rfl | rfl)
          · exact stepFluent.bound (stepProxy.bound boundInterface)
          · exact stepFluent.bound boundProxy
          · exact boundFluent
        · rintro e r' ⟨stepFluent, live, clashes⟩
          refine ⟨(step.trans stepProxy).trans stepFluent, live, ?_⟩
          rintro (empty | ⟨-, distinct, -⟩)
          · rw [hasMembers_of_extract_nil empty] at some
            cases some
          · exact distinct clashes
      · rintro e r ⟨stepProxy, live, blocked, fresh⟩
        exact ⟨step.trans (stepProxy.weaken fun _ => Makes.of_asks), live,
          not_ready_of_blocked blocked fresh (Or.inr rfl)⟩
  · rintro e q ⟨step, live, blocked, fresh⟩
    exact ⟨step.weaken fun _ => Makes.of_asks, live,
      not_ready_of_blocked blocked fresh (Or.inl rfl)⟩

end Synthesizer

end FluentWrappers.Synthesis
