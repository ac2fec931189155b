import FluentWrappers.Proofs.Synthesis.Resolution

/-!
# Synthesis that ends at the first failure

When the first failure ends everything, the synthesis of a source type fails to make a member's type
independent exactly if a source type that it reaches has a bad member, and it names such a member.
Else it gives the wrappers, unless the fluent wrapper would declare a method twice.
-/

namespace FluentWrappers.Synthesis

open Fallible

namespace Synthesizer

variable {s : Synthesizer} {root : SourceType} {p : Progress}

/-! ### After the proxies are made -/

/-- Once no production is under way, what a complete proxy's source type reaches is complete too. -/
theorem bound_of_reaches (orderly : Orderly s p) (idle : p.scope = [])
    (known : s.catalog.Known root) (made : p.Bound (s.proxyKey root)) {t : SourceType}
    (reached : s.catalog.Reaches root t) : s.catalog.Known t ∧ p.Bound (s.proxyKey t) := by
  induction reached with
  | refl => exact ⟨known, made⟩
  | @tail t u _ refers ih =>
    obtain ⟨knownOwner, bound⟩ := ih
    -- the owner's proxy is complete, since nothing is under way, and so covers the owner's members
    obtain ⟨foreign, m, eligible, name, isIn, found⟩ := refers
    obtain ⟨c, -, covers⟩ := orderly.complete bound (idle ▸ List.not_mem_nil)
    obtain ⟨-, -, supports⟩ := covers t knownOwner rfl
    obtain ⟨v, found', proxy⟩ := (supports m eligible).1 name isIn
    obtain rfl := Option.some.inj (found.symm.trans found')
    exact ⟨SourceCatalog.known_of_get? found, proxy foreign⟩

theorem not_badMember_of_reaches (orderly : Orderly s p) (idle : p.scope = [])
    (known : s.catalog.Known root) (made : p.Bound (s.proxyKey root)) (t : SourceType) (m : Member)
    (reached : s.catalog.Reaches root t) : ¬ s.catalog.BadMember t m := by
  rintro ⟨eligible, resists⟩
  obtain ⟨knownOwner, bound⟩ := bound_of_reaches orderly idle known made reached
  obtain ⟨c, -, covers⟩ := orderly.complete bound (idle ▸ List.not_mem_nil)
  obtain ⟨-, -, supports⟩ := covers t knownOwner rfl
  obtain ⟨names, definitions⟩ := supports m eligible
  rcases resists with ⟨name, isIn, missing | ⟨u, found, foreign, barren⟩⟩ | ⟨d, isIn, unknown⟩
  · obtain ⟨u, found, -⟩ := names name isIn
    rw [missing] at found
    cases found
  · obtain ⟨v, found', proxy⟩ := names name isIn
    obtain rfl := Option.some.inj (found.symm.trans found')
    exact not_bound_proxyKey (SourceCatalog.known_of_get? found) barren orderly (proxy foreign)
  · rw [definitions d isIn] at unknown
    cases unknown

/-! ### The whole synthesis -/

theorem leads_fluent (orderly : Orderly s p) {proxy : SynthesizedType} (some : proxy.members ≠ [])
    (interface : SynthesizedType) (options : TypeOptions) :
    Leads (s.fluent proxy interface options) p (fun made _ => ∃ t, made = .some t)
      (fun e => ∃ method arity, e = .configuration
        (.methodDeclaredTwice (fluentName s.options proxy.name).canonical method arity)) := by
  have free : ¬ p.Bound ⟨.fluent, (fluentName s.options proxy.name).canonical⟩ := by
    intro bound
    rcases orderly.owned _ bound with isOwned | isEnum
    · rcases isOwned.kind with isKind | isKind | isKind <;> cases isKind
    · cases isEnum
  unfold fluent
  refine leads_memoize orderly.running (slotOf?_eq_none free) ?_
  rw [if_neg (by simpa using some)]
  let context : FluentContext :=
    ⟨fluentName s.options proxy.name, interface.name, proxy.name, s.options.objectProperty⟩
  have shape (q : Progress) :
      Leads (liftM (fluentType context proxy options) : Synth SynthesizedType) q (fun _ _ => True)
        (fun e => ∃ method arity, e = .configuration
          (.methodDeclaredTwice context.name.canonical method arity)) :=
    leads_lift (fun _ _ => trivial) fun _ refused => methodDeclaredTwice_of_fluentType refused
  exact (shape _).bind fun t _ _ => leads_pure ⟨t, rfl⟩

theorem leads_synthesize (dereferences : s.options.dereference = true)
    (failFast : s.options.failFast = true) (shown : ∀ t, s.catalog.Known t → ¬ s.Hidden t)
    (known : s.catalog.Known root) (eligible : ∃ m, s.catalog.EligibleMember root m)
    (timeout : UInt64) :
    let clean := ∀ t m, s.catalog.Reaches root t → ¬ s.catalog.BadMember t m
    Leads (s.synthesize root) ⟨Session.start timeout, []⟩
      (fun made _ => clean ∧ ∃ wrappers, made = some wrappers)
      (fun e => Blamed s root e ∨ clean ∧ ∃ method arity, e = .configuration (.methodDeclaredTwice
        (fluentName s.options (proxyName s.options root.name)).canonical method arity)) := by
  intro clean
  have finds : s.FindsMembers root s.nestingBound s.members :=
    findsMembers_members dereferences failFast shown
  have usable : s.Usable root root := ⟨known, Relation.ReflTransGen.refl, eligible⟩
  have orderly := orderly_start s timeout
  have room : Room s (s.nestingBound + 1) ⟨Session.start timeout, []⟩ := by
    constructor
    · exact fun _ isIn => absurd isIn List.not_mem_nil
    · show _ < 3 * s.catalog.types.length + 4 + 1 + 0
      omega
  unfold synthesize
  have interfaces := leads_interfaceVia finds usable orderly room List.not_mem_nil
  refine Leads.bind (interfaces.weaken fun _ => Or.inl) ?_
  rintro _ q ⟨orderly, grows, interface, rfl⟩
  have idle : q.scope = [] := grows.scope
  have proxies := leads_proxyVia finds usable orderly (room.grows grows)
    (idle ▸ List.not_mem_nil) (some interface.name)
  refine Leads.bind (proxies.weaken fun _ => Or.inl) ?_
  rintro _ r ⟨orderly, growsFurther, bound, proxy, rfl, isNamed, hasMembers⟩
  have idle : r.scope = [] := growsFurther.scope.trans idle
  have isClean : clean := not_badMember_of_reaches orderly idle known bound
  have fluents := leads_fluent orderly hasMembers interface root.options
  rw [isNamed] at fluents
  refine Leads.bind (fluents.weaken fun _ twice => Or.inr ⟨isClean, twice⟩) ?_
  rintro _ _ ⟨fluent, rfl⟩
  exact leads_pure ⟨isClean, _, rfl⟩

theorem not_hidden_of_dotless (dotless : ∀ t ∈ s.catalog.types, t.name.Dotless) (t : SourceType)
    (known : s.catalog.Known t) : ¬ s.Hidden t := by
  rintro ⟨-, -, u, known', different, -, same⟩
  exact different (canonical_eq_of_interfaceName (dotless u known'.mem) (dotless t known.mem) same)

/-- A synthesis that ends at the first failure fails for a member exactly if the source type reaches one
with a bad member, and the failure names such a member. -/
theorem synthesize_failFast (s : Synthesizer) (source : SourceType) (timeout : UInt64)
    (dereferences : s.options.dereference = true) (failFast : s.options.failFast = true)
    (dotless : ∀ t ∈ s.catalog.types, t.name.Dotless) (known : s.catalog.Known source)
    (eligible : ∃ m, s.catalog.EligibleMember source m) :
    let result := (run (Session.start timeout) (s.synthesize source)).1
    ((∃ owner member type reason, result = .error (.dereference owner member type reason)) ↔
      ∃ t m, s.catalog.Reaches source t ∧ s.catalog.BadMember t m) ∧
    (∀ owner member type reason, result = .error (.dereference owner member type reason) →
      ∃ t m, s.catalog.Reaches source t ∧ s.catalog.BadMember t m ∧
        owner = t.canonical ∧ member = m.name ∧ type = m.type.text) ∧
    ((∀ t m, s.catalog.Reaches source t → ¬ s.catalog.BadMember t m) →
      (∃ wrappers, result = .ok (some wrappers)) ∨
      ∃ method arity, result = .error (.configuration (.methodDeclaredTwice
        (fluentName s.options (proxyName s.options source.name)).canonical method arity))) := by
  have spec := leads_synthesize dereferences failFast (not_hidden_of_dotless dotless) known eligible
    timeout
  intro result
  rcases ended : s.synthesize source ⟨Session.start timeout, []⟩ with ⟨e | made, q⟩
  · have isResult : result = .error e := congrArg Prod.fst ended
    rcases spec.fault ended with ⟨t, m, reason, reached, bad, rfl⟩ | ⟨clean, method, arity, rfl⟩
    · refine ⟨⟨fun _ => ⟨t, m, reached, bad⟩, fun _ => ⟨_, _, _, _, isResult⟩⟩, ?_, ?_⟩
      · intro owner member type reason' same
        rw [isResult] at same
        cases same
        exact ⟨t, m, reached, bad, rfl, rfl, rfl⟩
      · exact fun clean => absurd bad (clean t m reached)
    · rw [isResult]
      refine ⟨⟨nofun, ?_⟩, nofun, fun _ => Or.inr ⟨method, arity, rfl⟩⟩
      rintro ⟨t, m, reached, bad⟩
      exact absurd bad (clean t m reached)
  · have isResult : result = .ok made := congrArg Prod.fst ended
    obtain ⟨clean, wrappers, rfl⟩ := spec.result ended
    rw [isResult]
    refine ⟨⟨nofun, ?_⟩, nofun, fun _ => Or.inl ⟨wrappers, rfl⟩⟩
    rintro ⟨t, m, reached, bad⟩
    exact absurd bad (clean t m reached)

end Synthesizer

def order : SourceType where
  name := ⟨"Shop", "Order"⟩
  members := [{ name := "Items", type := .array (.named ⟨"Shop", "Item"⟩) }]

def item : SourceType where
  name := ⟨"Shop", "Item"⟩
  members := [
    { name := "Order", type := .named ⟨"Shop", "Order"⟩ },
    { name := "Seller", type := .named ⟨"Shop", "Seller"⟩ }]

/-- Orders and their items refer to each other, and the seller of an item is unknown. -/
def shop : Synthesizer where
  catalog := ⟨[order, item], []⟩
  options := {}

theorem synthesize_failFast_shop :
    shop.catalog.Known order ∧ (∃ m, shop.catalog.EligibleMember order m) ∧
      (∀ t ∈ shop.catalog.types, t.name.Dotless) ∧
      ∃ owner member type reason,
        (Synthesizer.run (Session.start 1) (shop.synthesize order)).1 =
          .error (.dereference owner member type reason) := by
  have known : shop.catalog.Known order := by unfold SourceCatalog.Known; decide +kernel
  have ofOrder : shop.catalog.extract order = .ok order.members := by decide +kernel
  have ofItem : shop.catalog.extract item = .ok item.members := by decide +kernel
  have eligible := SourceCatalog.exists_eligibleMember ofOrder (List.cons_ne_nil _ _)
  have dotless : ∀ t ∈ shop.catalog.types, t.name.Dotless := by decide +kernel
  have known' : shop.catalog.get? ⟨"Shop", "Item"⟩ = some item := by decide +kernel
  have refers : shop.catalog.Refers order item := by
    refine ⟨⟨rfl, nofun⟩, order.members[0], ⟨order.members, ofOrder, List.mem_cons_self⟩, ?_⟩
    exact ⟨⟨"Shop", "Item"⟩, List.mem_cons_self, known'⟩
  have bad : shop.catalog.BadMember item item.members[1] := by
    refine ⟨⟨item.members, ofItem, List.getElem_mem _⟩, Or.inl ⟨⟨"Shop", "Seller"⟩, ?_, ?_⟩⟩
    · exact List.mem_cons_self
    · exact Or.inl (by decide +kernel)
  obtain ⟨refused, -⟩ :=
    Synthesizer.synthesize_failFast shop order 1 rfl rfl dotless known eligible
  exact ⟨known, eligible, dotless, refused.2 ⟨item, _, Relation.ReflTransGen.single refers, bad⟩⟩

/-- Where simple names have dots, two source types can have interfaces of one canonical name. The second of
them then has no member, and a synthesis that meets the first one's interface does not notice this. -/
theorem synthesize_failFast_dotted :
    let outer : SourceType :=
      { name := ⟨"A.IB", "C"⟩, members := [{ name := "X", type := .primitive .i32 }] }
    let inner : SourceType := { name := ⟨"A", "B.IC"⟩ }
    let holder : SourceType := { name := ⟨"", "Holder"⟩, members := [
      { name := "P", type := .named outer.name }, { name := "Q", type := .named inner.name }] }
    let s : Synthesizer := ⟨⟨[outer, inner, holder], []⟩, {}⟩
    s.options.dereference = true ∧ s.options.failFast = true ∧ s.catalog.Known holder ∧
      (∃ m, s.catalog.EligibleMember holder m) ∧ (∃ m, s.catalog.BadMember holder m) ∧
      ∃ wrappers, (Synthesizer.run (Session.start 1) (s.synthesize holder)).1 = .ok (some wrappers) := by
  intro outer inner holder s
  have known : s.catalog.Known holder := by unfold SourceCatalog.Known; decide +kernel
  have extracted : s.catalog.extract holder = .ok holder.members := by decide +kernel
  have none : s.catalog.extract inner = .ok [] := by decide +kernel
  have found : s.catalog.get? inner.name = some inner := by decide +kernel
  have eligible := SourceCatalog.exists_eligibleMember extracted (List.cons_ne_nil _ _)
  have bad : s.catalog.BadMember holder holder.members[1] := by
    refine ⟨⟨holder.members, extracted, List.getElem_mem _⟩, Or.inl ⟨inner.name, ?_, ?_⟩⟩
    · exact List.mem_cons_self
    · refine Or.inr ⟨inner, found, ⟨rfl, nofun⟩, Or.inl ?_⟩
      rintro ⟨m, members, same, isIn⟩
      rw [none] at same
      cases same
      cases isIn
  have made : ((Synthesizer.run (Session.start 1) (s.synthesize holder)).1.toOption.bind id).isSome := by
    decide +kernel
  refine ⟨rfl, rfl, known, eligible, ⟨_, bad⟩, ?_⟩
  rcases run : (Synthesizer.run (Session.start 1) (s.synthesize holder)).1 with e | _ | wrappers
  · rw [run] at made
    cases made
  · rw [run] at made
    cases made
  · exact ⟨wrappers, rfl⟩

end FluentWrappers.Synthesis
