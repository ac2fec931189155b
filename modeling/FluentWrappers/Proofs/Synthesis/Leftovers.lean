import FluentWrappers.Proofs.Synthesis.Closure
import FluentWrappers.Proofs.Synthesis.Independence
import FluentWrappers.Proofs.Synthesis.Parts

/-!
# What failures leave behind

A production that fails gives its own key free, but what it completed on the way stays, and may mention
types that were never completed. A later synthesis takes such leftovers for good: it succeeds exactly
if it would in a fresh session or all bad members that it reaches lie behind leftovers. A synthesis
that succeeds in a fresh session is not affected by leftovers.
-/

namespace FluentWrappers.Synthesis

/-! ### Setting leftovers aside -/

section

variable {s : Synthesizer} {left : Session}

theorem Lawful.setAside (lawful : Lawful s noKey ⟨left, []⟩) :
    Lawful s (Progress.Made ⟨left, []⟩) ⟨left, []⟩ :=
  { lawful with
    aside := fun _ => id
    supplied := fun _ _ _ _ made fresh => absurd made fresh }

theorem whole_setAside (s : Synthesizer) (left : Session) :
    Whole s (Progress.Made ⟨left, []⟩) ⟨left, []⟩ :=
  fun _ _ _ _ made fresh => absurd made fresh

end

namespace Synthesizer

/-- The synthesis of the source type fails in a fresh session, but leftovers keep it from finding out. -/
def Undermined (s : Synthesizer) (left : Session) (b : SourceType) : Prop :=
  s.hasMembers b = true ∧ ¬ s.Clashes b ∧ ¬ s.Clean noKey b ∧
    (Progress.Made ⟨left, []⟩ (s.interfaceKey b) ∧ Progress.Made ⟨left, []⟩ (s.proxyKey b) ∨
      s.Clean (Progress.Made ⟨left, []⟩) b)

variable {s : Synthesizer} {left session' : Session} {b : SourceType} {old : CacheKey → Prop}

theorem Clean.of_noKey (clean : s.Clean noKey b) : s.Clean old b :=
  fun t m path => clean_noKey.1 clean t m
    (Relation.ReflTransGen.mono (fun _ _ refers => refers.1) _ _ path)

theorem Ready.of_noKey (ready : s.Ready noKey b) : s.Ready old b := by
  rcases ready with empty | ⟨some, distinct, made | clean⟩
  · exact Or.inl empty
  · exact made.1.elim
  · exact Or.inr ⟨some, distinct, Or.inr fun strict => Clean.of_noKey (clean strict)⟩

theorem Ready.stable (ready : s.Ready noKey b) (some : s.hasMembers b = true) :
    s.Stable noKey b := by
  rcases ready with empty | ⟨-, -, made | clean⟩
  · rw [hasMembers_of_extract_nil empty] at some
    cases some
  · exact made.1.elim
  · exact ⟨some, clean⟩

theorem not_ready_of_undermined (strict : s.Strict) (undermined : s.Undermined left b) :
    ¬ s.Ready noKey b := by
  obtain ⟨some, -, unclean, -⟩ := undermined
  exact fun ready => unclean ((ready.stable some).2 strict)

theorem ready_iff (strict : s.Strict) : s.Ready (Progress.Made ⟨left, []⟩) b ↔
    s.Ready noKey b ∨ s.Undermined left b := by
  constructor
  · rintro (empty | ⟨some, distinct, bound⟩)
    · exact Or.inl (Or.inl empty)
    · by_cases clean : s.Clean noKey b
      · exact Or.inl (Or.inr ⟨some, distinct, Or.inr fun _ => clean⟩)
      · exact Or.inr ⟨some, distinct, clean, bound.imp_right fun clean => clean strict⟩
  · rintro (ready | ⟨some, distinct, -, bound⟩)
    · exact ready.of_noKey
    · exact Or.inr ⟨some, distinct, bound.imp_right fun clean _ => clean⟩

/-! ### After any requests -/

section

variable (apart : s.Apart) (lawful : Lawful s old ⟨left, []⟩) (whole : Whole s old ⟨left, []⟩)
  (known : s.catalog.Known b)

include apart lawful whole known

/-- Where all but the old keys are whole, the synthesis succeeds exactly if the source type is ready. -/
theorem succeeds_iff_ready :
    (∃ made, (run left (s.synthesize b)).1 = .ok made) ↔ s.Ready old b := by
  constructor
  · rintro ⟨made, succeeds⟩
    exact (ready_of_synthesize apart lawful whole known (Prod.ext succeeds rfl)).2.2.1
  · intro ready
    have faults := (run_synthesize apart known lawful rfl).2.2
    cases result : (run left (s.synthesize b)).1 with
    | ok made => exact ⟨made, rfl⟩
    | error e => exact absurd ready (faults e result)

end

theorem eq_of_succeeds {left' : Session} (apart : s.Apart) (known : s.catalog.Known b)
    (lawful : Lawful s noKey ⟨left, []⟩) (lawful' : Lawful s noKey ⟨left', []⟩)
    {made made' : Option Wrappers} (succeeds : (run left (s.synthesize b)).1 = .ok made)
    (succeeds' : (run left' (s.synthesize b)).1 = .ok made') : made = made' := by
  obtain ⟨-, first⟩ := (run_synthesize apart known lawful rfl).2.1 made succeeds
  obtain ⟨-, second⟩ := (run_synthesize apart known lawful' rfl).2.1 made' succeeds'
  rcases first with ⟨rfl, empty⟩ | ⟨rfl, some, -⟩ <;>
    rcases second with ⟨rfl, empty'⟩ | ⟨rfl, some', -⟩
  · rfl
  · rw [hasMembers_of_extract_nil empty] at some'
    cases some'
  · rw [hasMembers_of_extract_nil empty'] at some
    cases some
  · rfl

/-- What the synthesis of a source type that was ready without leftovers has come to is rooted in stable
types, whatever failed before. -/
theorem rooted_of_ready (apart : s.Apart) (known : s.catalog.Known b)
    (lawful : Lawful s noKey ⟨left, []⟩) (ready : s.Ready noKey b) {w : Wrappers}
    (ran : run left (s.synthesize b) = (.ok (some w), session')) :
    w = s.wrappersOf b ∧ Lawful s noKey ⟨session', []⟩ ∧
      Rooted s (s.Stable noKey) ⟨session', []⟩ b := by
  obtain ⟨step, results, -⟩ := run_synthesize apart known lawful ran
  have lawful := step.lawful
  obtain ⟨-, ⟨isNone, -⟩ | ⟨isSome, some, distinct, bound⟩⟩ := results _ rfl
  · cases isNone
  · have stable := ready.stable some
    have opened (v : SourceType) (foreign : v.Foreign) : s.Open noKey v :=
      ⟨_, s.interfaceKey_mem_mentionKeys foreign, id⟩
    have heir (u v : SourceType) (stable : s.Stable noKey u) (needs : s.Needs u v)
        (foreign : v.Foreign) : s.Stable noKey v := stable.needs needs foreign (opened v foreign)
    have isKey : s.interfaceKey b ∈ s.memberKeys b := List.mem_cons_self
    have made := made_of_isWrapperKey apart known lawful rfl some distinct (Or.inl rfl)
      (bound _ (Or.inl rfl))
    refine ⟨Option.some.inj isSome, lawful, ?_⟩
    exact {
      known, some, distinct, bound, heir
      supplied := lawful.supplied b _ known isKey made id stable
      first := fun v => heir b v stable
      served := fun v stable foreign served =>
        lawful.supplied v _ served.known List.mem_cons_self
          (lawful.interface_of_served apart rfl served foreign) id stable }

end Synthesizer

variable {s : Synthesizer} {good : SourceType → Prop} {old : CacheKey → Prop} {root : SourceType}
  {session : Session}

/-- If the types of a closure have names of their own, it holds nothing but parts. -/
theorem part_of_mem_closure {t : SynthesizedType} {roots : List TypeName}
    (apart : s.Apart) (lawful : Lawful s old ⟨session, []⟩)
    (rooted : Rooted s good ⟨session, []⟩ root) (plain : s.catalog.Unsynthesized)
    (areParts : ∀ name ∈ roots, IsPartName s good ⟨session, []⟩ root name)
    (distinct : ((session.closure roots).map (·.name)).Nodup) (isIn : t ∈ session.closure roots) :
    Part s good ⟨session, []⟩ root t := by
  have follows : Follows session.types roots [] (reachFrom session.types roots []) :=
    follows_reachFrom fun _ isIn => absurd isIn List.not_mem_nil
  -- a part of a reached name is in the closure, where no other type has its name
  have partOf {t : SynthesizedType} (isIn : t ∈ session.types)
      (isReached : t.name ∈ reachFrom session.types roots [])
      (isPart : IsPartName s good ⟨session, []⟩ root t.name) : Part s good ⟨session, []⟩ root t := by
    obtain ⟨t', part, same⟩ := isPart
    have isListed := part.mem_types rooted lawful apart rfl
    have isIn' : t' ∈ session.closure roots := Session.mem_closure.2 ⟨isListed, same ▸ isReached⟩
    obtain rfl :=
      List.inj_on_of_nodup_map distinct isIn' (Session.mem_closure.2 ⟨isIn, isReached⟩) same
    exact part
  have followed : ∀ name ∈ reachFrom session.types roots [],
      IsPartName s good ⟨session, []⟩ root name ∧
        ∀ u ∈ session.types, u.name = name → name ∈ reachFrom session.types roots [] := by
    refine forall_mem_reachFrom ?_ ?_ fun _ isIn => absurd isIn List.not_mem_nil
    · rintro name t ⟨isPart, isReached⟩ found other isDependency
      obtain ⟨isListed, rfl⟩ := mem_of_latest? found
      have isReached := isReached t isListed rfl
      have part := partOf isListed isReached isPart
      obtain ⟨isMentioned, -, notRoot⟩ := mem_dependencies.1 isDependency
      refine ⟨(part.of_mentioned rooted plain isMentioned).resolve_left ?_, ?_⟩
      · rintro rfl
        exact notRoot rfl
      · rintro u isListed' rfl
        obtain ⟨u', found'⟩ := exists_latest? isListed'
        exact follows.closed t.name isReached t found u.name isDependency u' found'
    · intro name isRoot
      refine ⟨areParts name isRoot, ?_⟩
      rintro u isListed rfl
      obtain ⟨u', found⟩ := exists_latest? isListed
      exact follows.pending u.name isRoot u' found
  obtain ⟨isListed, isReached⟩ := Session.mem_closure.1 isIn
  exact partOf isListed isReached (followed t.name isReached).1

open Synthesizer (run apart_of_dotless)

/-- After any requests, with success or without, the synthesis of a source type succeeds if it does in a
fresh session, with the same result and without mentions of anything that is not completed, or if it
is undermined. No source type is undermined by requests that all succeed. -/
theorem synthesize_after (s : Synthesizer) (timeout : UInt64) (requests : List Request)
    (b : SourceType) (dereferences : s.options.dereference = true)
    (failFast : s.options.failFast = true) (dotless : ∀ t ∈ s.catalog.types, t.name.Dotless)
    (admits : ∀ request ∈ requests, s.Admits request) (known : s.catalog.Known b) :
    let served := s.serve (Session.start timeout) requests
    let fresh := run (Session.start timeout) (s.synthesize b)
    let next := run served.2 (s.synthesize b)
    ((∃ made, next.1 = .ok made) ↔ (∃ made, fresh.1 = .ok made) ∨ s.Undermined served.2 b) ∧
    (s.Undermined served.2 b → ¬ ∃ made, fresh.1 = .ok made) ∧
    ((∀ response ∈ served.1, response.Succeeds) → ¬ s.Undermined served.2 b) ∧
    (∀ made, fresh.1 = .ok made → next.1 = .ok made) ∧
    (s.catalog.Unsynthesized → ∀ w, fresh.1 = .ok (some w) →
      let closure := next.2.closure [w.interface.name, w.proxy.name, w.fluent.name]
      (closure.map (·.name)).Nodup → ∀ t ∈ closure, ∀ name ∈ t.mentionedNames,
        name = MethodTarget.rootConstructor.owner ∨ ∃ t' ∈ next.2.types, t'.name = name) := by
  intro served fresh next
  have apart := apart_of_dotless dotless
  have strict : s.Strict := ⟨dereferences, failFast⟩
  have before := lawful_start s timeout
  have lawful : Lawful s noKey ⟨served.2, []⟩ := Synthesizer.serve_lawful apart admits before
  have nextIff : (∃ made, next.1 = .ok made) ↔ s.Ready (Progress.Made ⟨served.2, []⟩) b :=
    Synthesizer.succeeds_iff_ready apart lawful.setAside (whole_setAside s served.2) known
  have freshIff : (∃ made, fresh.1 = .ok made) ↔ s.Ready noKey b :=
    Synthesizer.succeeds_iff_ready apart before (whole_start s timeout) known
  have same (made : Option Wrappers) (succeeds : fresh.1 = .ok made) : next.1 = .ok made := by
    obtain ⟨made', succeeds'⟩ := nextIff.2 (freshIff.1 ⟨made, succeeds⟩).of_noKey
    rw [Synthesizer.eq_of_succeeds apart known before lawful succeeds succeeds', succeeds']
  refine ⟨?exactly, ?fails, ?successes, same, ?mentions⟩
  case exactly => rw [nextIff, freshIff, Synthesizer.ready_iff strict]
  case fails =>
    intro undermined succeeds
    exact Synthesizer.not_ready_of_undermined strict undermined (freshIff.1 succeeds)
  case successes =>
    intro succeed undermined
    have whole : Whole s noKey ⟨served.2, []⟩ :=
      (Synthesizer.serve_succeeds apart admits succeed before (whole_start s timeout)).1
    have succeeds : ∃ made, next.1 = .ok made :=
      nextIff.2 ((Synthesizer.ready_iff strict).2 (Or.inr undermined))
    exact Synthesizer.not_ready_of_undermined strict undermined
      ((Synthesizer.succeeds_iff_ready apart lawful whole known).1 succeeds)
  case mentions =>
    intro plain w succeeds closure distinct t isIn name isMention
    obtain ⟨rfl, lawful', rooted⟩ := Synthesizer.rooted_of_ready apart known lawful
      (freshIff.1 ⟨_, succeeds⟩) (Prod.ext (same _ succeeds) rfl)
    have roots : ∀ name ∈ [(s.wrappersOf b).interface.name, (s.wrappersOf b).proxy.name,
        (s.wrappersOf b).fluent.name], IsPartName s (s.Stable noKey) ⟨next.2, []⟩ b name := by
      simp only [List.forall_mem_cons]
      exact ⟨rooted.exists_wrapper (Or.inl rfl), rooted.exists_wrapper (Or.inr (Or.inl rfl)),
        rooted.exists_wrapper (Or.inr (Or.inr rfl)), List.forall_mem_nil _⟩
    have part := part_of_mem_closure apart lawful' rooted plain roots distinct isIn
    refine (part.of_mentioned rooted plain isMention).imp_right ?_
    rintro ⟨t', part', isNamed⟩
    exact ⟨t', part'.mem_types rooted lawful' apart rfl, isNamed⟩

/-! ### A leftover that is taken for good -/

def brokenOrder : SourceType where
  name := ⟨"Depot", "Order"⟩
  members := [
    { name := "Previous", type := .named ⟨"Depot", "Order"⟩ },
    { name := "Lines", type := .named ⟨"Depot", "Line"⟩ },
    { name := "Buyer", type := .named ⟨"Depot", "Buyer"⟩ }]

def orderLine : SourceType where
  name := ⟨"Depot", "Line"⟩
  members := [{ name := "Order", type := .named ⟨"Depot", "Order"⟩ }]

/-- The buyer of an order is unknown. -/
def depot : Synthesizer where
  catalog := ⟨[brokenOrder, orderLine], []⟩
  options := {}

/-- The session after the order's synthesis. -/
def brokenDepot : Session := (depot.serve (Session.start 1) [.synthesize brokenOrder]).2

theorem known_orderLine : depot.catalog.Known orderLine := by
  unfold SourceCatalog.Known
  decide +kernel

theorem orderLine_fails : (run (Session.start 1) (depot.synthesize orderLine)).1.isOk = false := by
  decide +kernel

theorem orderLine_succeeds : (run brokenDepot (depot.synthesize orderLine)).1 =
    .ok (some (depot.wrappersOf orderLine)) := by decide +kernel

theorem synthesize_after_depot :
    (∀ t ∈ depot.catalog.types, t.name.Dotless) ∧ depot.catalog.Known brokenOrder ∧
      depot.catalog.Known orderLine ∧ depot.Undermined brokenDepot orderLine := by
  have dotless : ∀ t ∈ depot.catalog.types, t.name.Dotless := by decide +kernel
  have known : depot.catalog.Known brokenOrder := by unfold SourceCatalog.Known; decide +kernel
  have admits : ∀ request ∈ [Request.synthesize brokenOrder], depot.Admits request :=
    List.forall_mem_singleton.2 known
  obtain ⟨exactly, -⟩ := synthesize_after depot 1 [.synthesize brokenOrder] orderLine rfl rfl dotless
    admits known_orderLine
  refine ⟨dotless, known, known_orderLine, (exactly.1 ⟨_, orderLine_succeeds⟩).resolve_left ?_⟩
  rintro ⟨made, succeeds⟩
  have fails := orderLine_fails
  rw [succeeds] at fails
  cases fails

/-- After the order has failed, its line succeeds, which it does not in a fresh session, and mentions the
order's interface, which no completed type is named. -/
theorem orderLine_mentions_leftover :
    depot.catalog.Unsynthesized ∧ depot.catalog.Known brokenOrder ∧ depot.catalog.Known orderLine ∧
      (run (Session.start 1) (depot.synthesize brokenOrder)).1.isOk = false ∧
      (run (Session.start 1) (depot.synthesize orderLine)).1.isOk = false ∧
      (run brokenDepot (depot.synthesize orderLine)).1 =
        .ok (some (depot.wrappersOf orderLine)) ∧
      ∃ t ∈ (run brokenDepot (depot.synthesize orderLine)).2.closure
          [(depot.wrappersOf orderLine).interface.name, (depot.wrappersOf orderLine).proxy.name,
            (depot.wrappersOf orderLine).fluent.name],
        ∃ name ∈ t.mentionedNames, name ≠ MethodTarget.rootConstructor.owner ∧
          name ∉ (run brokenDepot (depot.synthesize orderLine)).2.types.map (·.name) := by
  refine ⟨by decide +kernel, by unfold SourceCatalog.Known; decide +kernel, known_orderLine,
    by decide +kernel, orderLine_fails, orderLine_succeeds, depot.madeInterface orderLine, ?_,
    ⟨"Depot", "IOrder"⟩, by decide +kernel⟩
  exact Session.mem_closure_of_root List.mem_cons_self (by decide +kernel)

end FluentWrappers.Synthesis
