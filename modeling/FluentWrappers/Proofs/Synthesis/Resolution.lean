import FluentWrappers.Proofs.Synthesis.Orderly
import FluentWrappers.Proofs.Synthesis.Shape

/-!
# Resolving member types when failures end everything

From orderly progress with room for nesting, what stands for a type is found, and the type is
supported from then on; or the search ends with a failure. A failure names a bad member of a source
type that the first one reaches, or else the type at hand resists. Since a failure ends everything, only
what succeeds has to leave the progress orderly.
-/

namespace FluentWrappers.Synthesis

open Fallible

/-! ### Failures -/

/-- The failure names a bad member of a source type that is reached. -/
def Blamed (s : Synthesizer) (root : SourceType) (e : SynthesisError) : Prop :=
  ∃ t m reason, s.catalog.Reaches root t ∧ s.catalog.BadMember t m ∧
    e = .dereference t.canonical m.name m.type.text reason

/-- The failure is one that the member at which it comes up answers for. -/
def Plain (e : SynthesisError) : Prop :=
  e ≠ .cancelled ∧ ∀ owner member type reason, e ≠ .dereference owner member type reason

def Faulty (s : Synthesizer) (root : SourceType) (names definitions : List TypeName)
    (e : SynthesisError) : Prop :=
  Blamed s root e ∨ Plain e ∧ s.catalog.ResistsAny names definitions

theorem Faulty.mono {s : Synthesizer} {root : SourceType} {e : SynthesisError}
    {names names' definitions definitions' : List TypeName}
    (h : Faulty s root names definitions e) (more : names ⊆ names')
    (moreDefinitions : definitions ⊆ definitions') : Faulty s root names' definitions' e := by
  rcases h with blamed | ⟨plain, resists⟩
  · exact Or.inl blamed
  · exact Or.inr ⟨plain, resists.mono more moreDefinitions⟩

theorem plain_unknownType (name : String) : Plain (.unknownType name) :=
  ⟨nofun, nofun⟩

theorem plain_noMembers (u : SourceType) : Plain (noMembers u) :=
  ⟨nofun, nofun⟩

theorem plain_inheritanceCycle (name : String) : Plain (.configuration (.inheritanceCycle name)) :=
  ⟨nofun, nofun⟩

theorem memberFailure_of_plain {e : SynthesisError} (plain : Plain e) (t : SourceType)
    (m : Member) : Synthesizer.memberFailure t m e =
      .dereference t.canonical m.name m.type.text e.message := by
  cases e with
  | cancelled => exact absurd rfl plain.1
  | dereference owner member type reason => exact absurd rfl (plain.2 owner member type reason)
  | _ => rfl

namespace Synthesizer

variable {s : Synthesizer} {root u : SourceType} {fuel : Nat} {p : Progress}

/-! ### What is to be shown of each function -/

/-- The foreign types of the names are reached. -/
def ReachesAll (s : Synthesizer) (root : SourceType) (names : List TypeName) : Prop :=
  ∀ name ∈ names, ∀ u, s.catalog.get? name = some u → u.Foreign → s.catalog.Reaches root u

def FindsNamed (s : Synthesizer) (root : SourceType) (fuel : Nat)
    (named : TypeName → Synth TypeRef) : Prop :=
  ∀ name p, Orderly s p → Room s fuel p → s.ReachesAll root [name] →
    Leads (named name) p (fun _ q => Orderly s q ∧ Grows p q ∧ SupportsName s q name)
      (Faulty s root [name] [])

def FindsTypes (s : Synthesizer) (root : SourceType) (fuel : Nat)
    (dereference : TypeRef → Synth TypeRef) : Prop :=
  ∀ type p, Orderly s p → Room s fuel p → s.ReachesAll root type.mentions →
    Leads (dereference type) p (fun _ q => Orderly s q ∧ Grows p q ∧ Supports s q type)
      (Faulty s root type.mentions type.definitions)

/-- The type is reached, is in the catalog and has eligible members. -/
structure Usable (s : Synthesizer) (root u : SourceType) : Prop where
  known : s.catalog.Known u
  reached : s.catalog.Reaches root u
  eligible : ∃ m, s.catalog.EligibleMember u m

theorem Usable.owned {key : CacheKey} (usable : s.Usable root u) (isKey : key ∈ s.memberKeys u) :
    s.Owned key := ⟨u, usable.known, usable.eligible, isKey⟩

def FindsMembers (s : Synthesizer) (root : SourceType) (fuel : Nat) (members : MemberResolver) :
    Prop :=
  ∀ u p, Orderly s p → Room s fuel p → s.Usable root u →
    Leads (members u) p (fun found q => Orderly s q ∧ Grows p q ∧ ∃ ms, found = some ms ∧ ms ≠ [] ∧
      ∀ m, s.catalog.EligibleMember u m → Supports s q m.type) (Blamed s root)

/-! ### Members -/

section

variable {dereference : TypeRef → Synth TypeRef}

theorem leads_resolveMember (finds : s.FindsTypes root fuel dereference)
    (failFast : s.options.failFast = true) (reached : s.catalog.Reaches root u) {m : Member}
    (eligible : s.catalog.EligibleMember u m) (orderly : Orderly s p) (room : Room s fuel p) :
    Leads (s.resolveMember dereference u m) p
      (fun _ q => Orderly s q ∧ Grows p q ∧ Supports s q m.type) (Blamed s root) := by
  have referred : s.ReachesAll root m.type.mentions := by
    intro name isIn v found foreign
    exact Relation.ReflTransGen.tail reached ⟨foreign, m, eligible, name, isIn, found⟩
  have spec := finds m.type p orderly room referred
  rcases run : dereference m.type p with ⟨e | type, q⟩
  · have thrown := resolveMember_of_error (s := s) (u := u) run
    rw [if_pos (Or.inr failFast)] at thrown
    refine leads_of_error thrown ?_
    rcases spec.fault run with blamed | ⟨plain, resists⟩
    · obtain ⟨t, n, reason, reachedOwner, bad, rfl⟩ := blamed
      exact ⟨t, n, reason, reachedOwner, bad, rfl⟩
    · exact ⟨u, m, e.message, reached, ⟨eligible, resists⟩, memberFailure_of_plain plain u m⟩
  · exact leads_of_ok (resolveMember_of_ok run) (spec.result run)

theorem leads_mapM_resolveMember (finds : s.FindsTypes root fuel dereference)
    (failFast : s.options.failFast = true) (reached : s.catalog.Reaches root u) {ms : List Member}
    (eligible : ∀ m ∈ ms, s.catalog.EligibleMember u m) (orderly : Orderly s p)
    (room : Room s fuel p) :
    Leads (ms.mapM (s.resolveMember dereference u)) p (fun found q => Orderly s q ∧ Grows p q ∧
      found.length = ms.length ∧ ∀ m ∈ ms, Supports s q m.type) (Blamed s root) := by
  induction ms generalizing p with
  | nil =>
    have nothing : ∀ m ∈ ([] : List Member), Supports s p m.type := nofun
    exact leads_pure ⟨orderly, Grows.refl p, rfl, nothing⟩
  | cons m ms ih =>
    rw [List.mapM_cons]
    refine (leads_resolveMember finds failFast reached (eligible m List.mem_cons_self) orderly
      room).bind ?_
    rintro first q ⟨orderly, grows, supported⟩
    refine (ih (fun n isIn => eligible n (List.mem_cons_of_mem m isIn)) orderly
      (room.grows grows)).bind ?_
    rintro others r ⟨orderly, growsFurther, sameLength, others⟩
    refine leads_pure ⟨orderly, grows.trans growsFurther, congrArg (· + 1) sameLength, ?_⟩
    intro n isIn
    rcases List.mem_cons.1 isIn with rfl | isIn
    · exact supported.mono fun _ => growsFurther.bound
    · exact others n isIn

theorem findsMembers_resolveMembers (finds : s.FindsTypes root fuel dereference)
    (failFast : s.options.failFast = true) (dereferences : s.options.dereference = true) :
    s.FindsMembers root fuel (s.resolveMembers dereference) := by
  intro u p orderly room usable
  obtain ⟨ms, found, some⟩ := SourceCatalog.exists_extract usable.eligible
  have each (m : Member) : s.catalog.EligibleMember u m ↔ m ∈ ms :=
    SourceCatalog.eligibleMember_iff found
  have members : (liftM (s.catalog.extract u) : Synth (List Member)) p = (.ok ms, p) := by
    rw [lift_apply, found]
  refine leads_bind_ok members ?_
  rw [if_neg (by simpa using some), dereferences, Bool.not_true, if_neg Bool.false_ne_true]
  refine (leads_mapM_resolveMember finds failFast usable.reached (fun m isIn => (each m).2 isIn)
    orderly room).bind ?_
  rintro resolved q ⟨orderly, grows, sameLength, supported⟩
  refine leads_pure ⟨orderly, grows, resolved, rfl, ?_, fun m isEligible =>
    supported m ((each m).1 isEligible)⟩
  rintro rfl
  exact some (List.length_eq_zero_iff.1 sameLength.symm)

theorem resolveMembers_of_extract_nil (empty : s.catalog.extract u = .ok []) :
    s.resolveMembers dereference u p = (.ok none, p) := by
  have members : (liftM (s.catalog.extract u) : Synth (List Member)) p = (.ok [], p) := by
    rw [lift_apply, empty]
  unfold resolveMembers
  rw [bind_ok members]
  rfl

theorem resolveMembers_of_extract_error {e : SynthesisError}
    (cyclic : s.catalog.extract u = .error e) :
    s.resolveMembers dereference u p = (.error e, p) := by
  have members : (liftM (s.catalog.extract u) : Synth (List Member)) p = (.error e, p) := by
    rw [lift_apply, cyclic]
  unfold resolveMembers
  rw [bind_error members]

end

/-! ### Interfaces, proxies and clones of source types with eligible members -/

theorem leads_inScope {α : Type} {key : CacheKey} {inside outside : Synth α}
    {post : α → Progress → Prop} {failed : SynthesisError → Prop}
    (pending : key ∈ p.scope → Leads inside p post failed)
    (idle : key ∉ p.scope → Leads outside p post failed) :
    Leads (inScope key >>= fun isPending => if isPending = true then inside else outside) p post
      failed := by
  have found : inScope key p = (.ok (p.scope.contains key), p) := rfl
  refine leads_bind_ok found ?_
  by_cases isIn : key ∈ p.scope
  · rw [if_pos (List.contains_iff_mem.2 isIn)]
    exact pending isIn
  · rw [if_neg (mt List.contains_iff_mem.1 isIn)]
    exact idle isIn

section

variable {members : MemberResolver}

theorem covers_of_kind {key : CacheKey} {type : SynthesizedType} (other : key.kind ≠ .proxy) :
    Covers s p key type := by
  intro v _ same
  exact absurd (congrArg CacheKey.kind same) other

theorem leads_interfaceVia (finds : s.FindsMembers root fuel members) (usable : s.Usable root u)
    (orderly : Orderly s p) (room : Room s (fuel + 1) p) (idle : s.interfaceKey u ∉ p.scope) :
    Leads (s.interfaceVia memoize members u) p (fun made q => Orderly s q ∧ Grows p q ∧
      ∃ t, made = some t) (Blamed s root) := by
  have isOwned : s.Owned (s.interfaceKey u) := usable.owned (by simp [memberKeys])
  show Leads (memoize (s.interfaceKey u) _) p _ _
  refine (orderly.leads_memoize idle (Or.inl isOwned) fun entered => ?_).mono ?_ fun _ => id
  · refine (finds u _ entered (room.enter isOwned) usable).bind ?_
    rintro _ q ⟨orderly, grows, ms, rfl, -, -⟩
    exact leads_pure ⟨orderly, grows, _, rfl, covers_of_kind fun same => by cases same⟩
  · rintro _ q ⟨orderly, grows, -, t, rfl, -⟩
    exact ⟨orderly, grows, t, rfl⟩

/-- The proxy that is made, now or before, is one of the source type. -/
theorem leads_proxyVia (finds : s.FindsMembers root fuel members) (usable : s.Usable root u)
    (orderly : Orderly s p) (room : Room s (fuel + 1) p) (idle : s.proxyKey u ∉ p.scope)
    (interface : Option TypeName) :
    Leads (s.proxyVia memoize members u interface) p (fun made q => Orderly s q ∧ Grows p q ∧
      q.Bound (s.proxyKey u) ∧ ∃ t, made = some t ∧ t.name = proxyName s.options u.name ∧
        t.members ≠ []) (Blamed s root) := by
  have isOwned : s.Owned (s.proxyKey u) := usable.owned (by simp [memberKeys])
  show Leads (memoize (s.proxyKey u) _) p _ _
  refine (orderly.leads_memoize idle (Or.inl isOwned) fun entered => ?_).mono ?_ fun _ => id
  · refine (finds u _ entered (room.enter isOwned) usable).bind ?_
    rintro _ q ⟨orderly, grows, ms, rfl, some, supported⟩
    have lifted : (liftM (proxyType (proxyName s.options u.name) u ms interface) :
        Synth SynthesizedType) q = (.ok (proxyOf (proxyName s.options u.name) u ms interface), q) := by
      rw [lift_apply, proxyType_eq]
    refine leads_bind_ok lifted (leads_pure ⟨orderly, grows, _, rfl, ?_⟩)
    intro v known' same
    obtain rfl := eq_of_proxyKey usable.known known' same
    exact ⟨rfl, some, supported⟩
  · rintro _ q ⟨orderly, grows, bound, t, rfl, covers⟩
    obtain ⟨isNamed, some, -⟩ := covers u usable.known rfl
    exact ⟨orderly, grows, bound, t, rfl, isNamed, some⟩

theorem leads_ensureInterfaceVia (finds : s.FindsMembers root fuel members)
    (usable : s.Usable root u) (orderly : Orderly s p) (room : Room s (fuel + 1) p) :
    Leads (s.ensureInterfaceVia memoize members u) p (fun _ q => Orderly s q ∧ Grows p q)
      (Blamed s root) := by
  unfold ensureInterfaceVia
  refine leads_inScope (fun _ => ?_) fun idle => ?_
  · exact leads_pure ⟨orderly, Grows.refl p⟩
  · refine (leads_interfaceVia finds usable orderly room idle).bind ?_
    rintro _ q ⟨orderly, grows, t, rfl⟩
    exact leads_pure ⟨orderly, grows⟩

theorem leads_ensureProxyVia (finds : s.FindsMembers root fuel members) (usable : s.Usable root u)
    (orderly : Orderly s p) (room : Room s (fuel + 1) p) (interface : TypeName) :
    Leads (s.ensureProxyVia memoize members u interface) p (fun _ q => Orderly s q ∧ Grows p q ∧
      q.Bound (s.proxyKey u)) (Blamed s root) := by
  unfold ensureProxyVia
  refine leads_inScope (fun isIn => ?_) fun idle => ?_
  · exact leads_pure ⟨orderly, Grows.refl p, orderly.bound_of_scope isIn⟩
  · refine (leads_proxyVia finds usable orderly room idle _).bind ?_
    rintro _ q ⟨orderly, grows, bound, -⟩
    exact leads_pure ⟨orderly, grows, bound⟩

theorem leads_referenceInterfaceVia (finds : s.FindsMembers root fuel members)
    (usable : s.Usable root u) (orderly : Orderly s p) (room : Room s (fuel + 1) p) :
    Leads (s.referenceInterfaceVia memoize members u) p (fun _ q => Orderly s q ∧ Grows p q ∧
      q.Bound (s.proxyKey u)) (Blamed s root) := by
  unfold referenceInterfaceVia
  refine (leads_ensureInterfaceVia finds usable orderly room).bind ?_
  rintro interface q ⟨orderly, grows⟩
  refine (leads_ensureProxyVia finds usable orderly (room.grows grows) interface).bind ?_
  rintro _ r ⟨orderly, growsFurther, bound⟩
  exact leads_pure ⟨orderly, grows.trans growsFurther, bound⟩

theorem leads_cloneStructVia (finds : s.FindsMembers root fuel members) (usable : s.Usable root u)
    (orderly : Orderly s p) (room : Room s (fuel + 1) p) :
    Leads (s.cloneStructVia memoize members u) p (fun _ q => Orderly s q ∧ Grows p q ∧
      q.Bound (s.proxyKey u)) (Blamed s root) := by
  have isOwned : s.Owned (cloneKey u) := usable.owned (by simp [memberKeys])
  unfold cloneStructVia
  refine (leads_ensureInterfaceVia finds usable orderly room).bind ?_
  rintro interface q ⟨orderly, toProxy⟩
  refine (leads_ensureProxyVia finds usable orderly (room.grows toProxy) interface).bind ?_
  rintro _ r ⟨orderly, toClone, bound⟩
  have room := (room.grows toProxy).grows toClone
  refine leads_inScope (fun _ => ?_) fun idle => ?_
  · exact leads_pure ⟨orderly, toProxy.trans toClone, bound⟩
  · refine (orderly.leads_memoize idle (Or.inl isOwned) fun entered => ?_).bind ?_
    · refine (finds u _ entered (room.enter isOwned) usable).bind ?_
      rintro _ r ⟨orderly, grows, ms, rfl, -, -⟩
      have lifted : (liftM (structType u ms) : Synth SynthesizedType) r =
          (.ok (structOf u ms), r) := by
        rw [lift_apply, structType_eq]
      refine leads_bind_ok lifted (leads_pure ⟨orderly, grows, _, rfl, ?_⟩)
      exact covers_of_kind fun same => by cases same
    · rintro _ r' ⟨orderly, grows, -, t, rfl, -⟩
      exact leads_pure ⟨orderly, (toProxy.trans toClone).trans grows, grows.bound bound⟩

end

/-! ### Barren source types -/

/-- The type has no eligible members, and the interface of another has the name of its interface. -/
def Hidden (s : Synthesizer) (t : SourceType) : Prop :=
  t.Foreign ∧ s.catalog.extract t = .ok [] ∧ ∃ u, s.catalog.Known u ∧ u.canonical ≠ t.canonical ∧
    (∃ m, s.catalog.EligibleMember u m) ∧
      (interfaceName s.options u.name).canonical = (interfaceName s.options t.name).canonical

section

variable {dereference : TypeRef → Synth TypeRef}

theorem not_bound_interfaceKey (known : s.catalog.Known u) (foreign : u.Foreign)
    (empty : s.catalog.extract u = .ok []) (shown : ¬ s.Hidden u) (orderly : Orderly s p) :
    ¬ p.Bound (s.interfaceKey u) := by
  intro bound
  rcases orderly.owned _ bound with ⟨v, known', eligible, isKey⟩ | isEnum
  · have same := congrArg CacheKey.name (interfaceKey_of_mem isKey)
    refine shown ⟨foreign, empty, v, known', ?_, eligible, same.symm⟩
    intro sameName
    obtain rfl := known'.eq known sameName
    exact SourceCatalog.not_barren_of_eligibleMember eligible
      (SourceCatalog.barren_of_extract_nil empty)
  · cases isEnum

theorem not_bound_proxyKey (known : s.catalog.Known u) (barren : s.catalog.Barren u)
    (orderly : Orderly s p) : ¬ p.Bound (s.proxyKey u) := by
  intro bound
  rcases orderly.owned _ bound with ⟨v, known', eligible, isKey⟩ | isEnum
  · obtain rfl := eq_of_proxyKey known known' (proxyKey_of_mem isKey)
    exact SourceCatalog.not_barren_of_eligibleMember eligible barren
  · cases isEnum

theorem slotOf?_eq_none {key : CacheKey} (h : ¬ p.Bound key) : p.cache.slotOf? key = none := by
  cases free : p.cache.slotOf? key with
  | none => rfl
  | some slot => exact absurd ⟨slot, free⟩ h

theorem leads_ensureInterface_empty (known : s.catalog.Known u) (foreign : u.Foreign)
    (empty : s.catalog.extract u = .ok []) (shown : ¬ s.Hidden u) (orderly : Orderly s p) :
    Leads (s.ensureInterfaceVia memoize (s.resolveMembers dereference) u) p (fun _ _ => False) Plain := by
  have free := not_bound_interfaceKey known foreign empty shown orderly
  have made : Leads (s.interfaceVia memoize (s.resolveMembers dereference) u) p
      (fun type _ => type = none) Plain := by
    refine leads_memoize orderly.running (slotOf?_eq_none free) ?_
    exact leads_bind_ok (resolveMembers_of_extract_nil empty) (leads_pure rfl)
  unfold ensureInterfaceVia
  refine leads_inScope (fun isIn => ?_) fun idle => ?_
  · exact absurd (orderly.bound_of_scope isIn) free
  · refine made.bind ?_
    rintro _ q rfl
    exact leads_throw (plain_noMembers u)

theorem leads_ensureInterface_cyclic {name : String}
    (cyclic : s.catalog.extract u = .error (.configuration (.inheritanceCycle name)))
    (orderly : Orderly s p) :
    Leads (s.ensureInterfaceVia memoize (s.resolveMembers dereference) u) p (fun _ q => q = p) Plain := by
  unfold ensureInterfaceVia
  refine leads_inScope (fun _ => leads_pure rfl) fun idle => ?_
  by_cases bound : p.Bound (s.interfaceKey u)
  · obtain ⟨c, complete, -⟩ := orderly.complete bound idle
    exact leads_bind_ok (memoize_complete orderly.running complete) (leads_pure rfl)
  · have made : Leads (s.interfaceVia memoize (s.resolveMembers dereference) u) p
        (fun _ _ => False) Plain := by
      refine leads_memoize orderly.running (slotOf?_eq_none bound) ?_
      exact leads_bind_error (resolveMembers_of_extract_error cyclic) (plain_inheritanceCycle name)
    exact made.bind fun _ _ absurd => absurd.elim

theorem leads_ensureProxy_cyclic {name : String}
    (cyclic : s.catalog.extract u = .error (.configuration (.inheritanceCycle name)))
    (known : s.catalog.Known u) (orderly : Orderly s p) (interface : TypeName) :
    Leads (s.ensureProxyVia memoize (s.resolveMembers dereference) u interface) p (fun _ _ => False)
      Plain := by
  have free := not_bound_proxyKey known (SourceCatalog.barren_of_extract_error cyclic) orderly
  have made : Leads (s.proxyVia memoize (s.resolveMembers dereference) u interface) p
      (fun _ _ => False) Plain := by
    refine leads_memoize orderly.running (slotOf?_eq_none free) ?_
    exact leads_bind_error (resolveMembers_of_extract_error cyclic) (plain_inheritanceCycle name)
  unfold ensureProxyVia
  refine leads_inScope (fun isIn => ?_) fun _ => ?_
  · exact absurd (orderly.bound_of_scope isIn) free
  · exact made.bind fun _ _ absurd => absurd.elim

/-- What begins with the interface and the proxy of a barren type comes to nothing. -/
theorem leads_barren {α : Type} {rest : TypeName → Synth α} (known : s.catalog.Known u)
    (foreign : u.Foreign) (barren : s.catalog.Barren u) (shown : ¬ s.Hidden u)
    (orderly : Orderly s p) :
    Leads (do
      let interface ← s.ensureInterfaceVia memoize (s.resolveMembers dereference) u
      s.ensureProxyVia memoize (s.resolveMembers dereference) u interface
      rest interface) p (fun _ _ => False) Plain := by
  rcases s.catalog.extract_cases u with ⟨members, found, some⟩ | empty | ⟨name, cyclic⟩
  · have eligible := SourceCatalog.exists_eligibleMember found some
    exact absurd barren (SourceCatalog.not_barren_of_eligibleMember eligible)
  · -- without members there is no interface
    exact (leads_ensureInterface_empty known foreign empty shown orderly).bind
      fun _ _ absurd => absurd.elim
  · -- the interface may be found under the name of another type's, the proxy may not
    refine (leads_ensureInterface_cyclic cyclic orderly).bind ?_
    rintro interface q rfl
    exact (leads_ensureProxy_cyclic cyclic known orderly interface).bind
      fun _ _ absurd => absurd.elim

end

/-! ### Types -/

theorem leads_cloneEnumVia (orderly : Orderly s p) (room : Room s fuel p) (underlying : Primitive)
    (literals : List Literal) :
    Leads (cloneEnumVia memoize u underlying literals) p (fun _ q => Orderly s q ∧ Grows p q)
      (Blamed s root) := by
  have idle : ⟨.enumClone, u.canonical⟩ ∉ p.scope := by
    intro isIn
    rcases (room.owned _ isIn).kind with isKind | isKind | isKind <;> cases isKind
  unfold cloneEnumVia
  refine (orderly.leads_memoize idle (Or.inr rfl) fun entered => ?_).bind ?_
  · exact leads_pure ⟨entered, Grows.refl _, _, rfl, covers_of_kind fun same => by cases same⟩
  · rintro _ q ⟨orderly, grows, -, t, rfl, -⟩
    exact leads_pure ⟨orderly, grows⟩

section

variable {dereference : TypeRef → Synth TypeRef}

/-- What stands for a foreign type is found with its proxy, unless the type is barren. -/
theorem leads_foreign (finds : s.FindsMembers root fuel (s.resolveMembers dereference))
    (known : s.catalog.Known u) (foreign : u.Foreign) (shown : ¬ s.Hidden u)
    (reached : s.catalog.Reaches root u) (orderly : Orderly s p) (room : Room s (fuel + 1) p)
    {isStruct : Prop} [Decidable isStruct] :
    Leads (if isStruct then s.cloneStructVia memoize (s.resolveMembers dereference) u
      else s.referenceInterfaceVia memoize (s.resolveMembers dereference) u) p
      (fun _ q => Orderly s q ∧ Grows p q ∧ q.Bound (s.proxyKey u))
      (fun e => Blamed s root e ∨ Plain e ∧ s.catalog.Barren u) := by
  by_cases eligible : ∃ m, s.catalog.EligibleMember u m
  · have usable : s.Usable root u := ⟨known, reached, eligible⟩
    split
    · exact (leads_cloneStructVia finds usable orderly room).weaken fun _ => Or.inl
    · exact (leads_referenceInterfaceVia finds usable orderly room).weaken
        fun _ => Or.inl
  · have barren : s.catalog.Barren u := Or.inl eligible
    split
    · exact (leads_barren known foreign barren shown orderly).mono
        (fun _ _ absurd => absurd.elim) fun _ plain => Or.inr ⟨plain, barren⟩
    · exact (leads_barren known foreign barren shown orderly).mono
        (fun _ _ absurd => absurd.elim) fun _ plain => Or.inr ⟨plain, barren⟩

theorem findsNamed_replaceNamed
    (finds : s.FindsMembers root fuel (s.resolveMembers dereference))
    (shown : ∀ t, s.catalog.Known t → ¬ s.Hidden t) :
    s.FindsNamed root (fuel + 1) (s.replaceNamedVia memoize (s.resolveMembers dereference)) := by
  intro name p orderly room reached
  have isIn : name ∈ [name] := List.mem_singleton_self name
  unfold replaceNamedVia
  cases found : s.catalog.get? name with
  | none =>
    have missing : (liftM (s.catalog.require name) : Synth SourceType) p =
        (.error (.unknownType name.canonical), p) := by
      rw [lift_apply, SourceCatalog.require, found]
    exact leads_bind_error missing
      (Or.inr ⟨plain_unknownType _, Or.inl ⟨name, isIn, Or.inl found⟩⟩)
  | some u =>
    have required : (liftM (s.catalog.require name) : Synth SourceType) p = (.ok u, p) := by
      rw [lift_apply, SourceCatalog.require, found]
    have known := SourceCatalog.known_of_get? found
    refine leads_bind_ok required ?_
    split
    case h_1 underlying literals isEnum =>
      have native : ¬ u.Foreign := fun foreign => foreign.2 underlying literals isEnum
      refine (leads_cloneEnumVia orderly room underlying literals).mono ?_ fun _ => Or.inl
      rintro _ q ⟨orderly, grows⟩
      exact ⟨orderly, grows, u, found, fun foreign => absurd foreign native⟩
    case h_2 notEnum =>
      by_cases runtime : u.isRuntime = true
      · have native : ¬ u.Foreign := fun foreign => by simp [foreign.1] at runtime
        rw [if_pos runtime]
        exact leads_pure ⟨orderly, Grows.refl p, u, found, fun foreign => absurd foreign native⟩
      · have foreign : u.Foreign := ⟨Bool.eq_false_of_not_eq_true runtime, notEnum⟩
        rw [if_neg runtime]
        have isReached := reached name isIn u found foreign
        refine (leads_foreign finds known foreign (shown u known) isReached orderly room).mono ?_ ?_
        · rintro _ q ⟨orderly, grows, bound⟩
          exact ⟨orderly, grows, u, found, fun _ => bound⟩
        · rintro e (blamed | ⟨plain, barren⟩)
          · exact Or.inl blamed
          · exact Or.inr ⟨plain, Or.inl ⟨name, isIn, Or.inr ⟨u, found, foreign, barren⟩⟩⟩

end

section

variable {named : TypeName → Synth TypeRef}

theorem ReachesAll.of_subset {names more : List TypeName} (h : s.ReachesAll root more)
    (subset : names ⊆ more) : s.ReachesAll root names :=
  fun name isIn => h name (subset isIn)

mutual

theorem leads_replaceType (finds : s.FindsNamed root fuel named) (type : TypeRef) (p : Progress)
    (orderly : Orderly s p) (room : Room s fuel p) (reached : s.ReachesAll root type.mentions) :
    Leads (s.replaceType named type) p (fun _ q => Orderly s q ∧ Grows p q ∧ Supports s q type)
      (Faulty s root type.mentions type.definitions) := by
  cases type with
  | named name =>
    unfold replaceType
    refine (finds name p orderly room reached).mono ?_ fun _ fault => fault
    rintro _ q ⟨orderly, grows, supported⟩
    exact ⟨orderly, grows, List.forall_mem_singleton.2 supported, nofun⟩
  | array element =>
    unfold replaceType
    refine (leads_replaceType finds element p orderly room reached).bind ?_
    rintro _ q ⟨orderly, grows, supported⟩
    exact leads_pure ⟨orderly, grows, supported⟩
  | generic definition args =>
    unfold replaceType
    by_cases registered : s.catalog.isRuntimeGeneric definition = true
    · rw [if_pos registered]
      have spec := leads_replaceTypes finds args p orderly room reached
      refine Leads.bind (spec.weaken ?_) ?_
      · intro e fault
        exact fault.mono (List.Subset.refl _) (List.subset_cons_self definition _)
      · rintro _ q ⟨orderly, grows, supported⟩
        refine leads_pure ⟨orderly, grows, supported.1, ?_⟩
        exact List.forall_mem_cons.2 ⟨registered, supported.2⟩
    · rw [if_neg registered]
      refine leads_throw (Or.inr ⟨plain_unknownType _, Or.inr ⟨definition, ?_, ?_⟩⟩)
      · exact List.mem_cons_self
      · exact Bool.eq_false_of_not_eq_true registered
  | primitive | string | object | synthesized =>
    unfold replaceType
    exact leads_pure ⟨orderly, Grows.refl p, supportsAll_nil⟩

theorem leads_replaceTypes (finds : s.FindsNamed root fuel named) (types : List TypeRef)
    (p : Progress) (orderly : Orderly s p) (room : Room s fuel p)
    (reached : s.ReachesAll root (TypeRef.mentionsOfAll types)) :
    Leads (s.replaceTypes named types) p (fun _ q => Orderly s q ∧ Grows p q ∧
      SupportsAll s q (TypeRef.mentionsOfAll types) (TypeRef.definitionsOfAll types))
      (Faulty s root (TypeRef.mentionsOfAll types) (TypeRef.definitionsOfAll types)) := by
  cases types with
  | nil =>
    unfold replaceTypes
    exact leads_pure ⟨orderly, Grows.refl p, supportsAll_nil⟩
  | cons type rest =>
    unfold replaceTypes
    have first := leads_replaceType finds type p orderly room
      (reached.of_subset (List.subset_append_left _ _))
    refine Leads.bind (first.weaken ?_) ?_
    · intro e fault
      exact fault.mono (List.subset_append_left _ _) (List.subset_append_left _ _)
    rintro _ q ⟨orderly, grows, supported⟩
    have others := leads_replaceTypes finds rest q orderly (room.grows grows)
      (reached.of_subset (List.subset_append_right _ _))
    refine Leads.bind (others.weaken ?_) ?_
    · intro e fault
      exact fault.mono (List.subset_append_right _ _) (List.subset_append_right _ _)
    rintro _ r ⟨orderly, growsFurther, supportedRest⟩
    have supportedFirst := supported.mono fun _ => growsFurther.bound
    exact leads_pure ⟨orderly, grows.trans growsFurther, supportedFirst.append supportedRest⟩

end

end

/-- With room for nesting, the fuel does not run out. -/
theorem findsNamed_dereferenceNamed (dereferences : s.options.dereference = true)
    (failFast : s.options.failFast = true) (shown : ∀ t, s.catalog.Known t → ¬ s.Hidden t) :
    s.FindsNamed root fuel (s.dereferenceNamedVia memoize fuel) := by
  induction fuel with
  | zero =>
    -- every level of nesting has its own key in the scope, and there are not so many
    intro name p orderly room
    exact absurd room (not_room_zero orderly.distinct)
  | succ fuel ih =>
    have types : s.FindsTypes root fuel (s.replaceType (s.dereferenceNamedVia memoize fuel)) :=
      leads_replaceType ih
    exact findsNamed_replaceNamed (findsMembers_resolveMembers types failFast dereferences) shown

theorem findsMembers_members (dereferences : s.options.dereference = true)
    (failFast : s.options.failFast = true) (shown : ∀ t, s.catalog.Known t → ¬ s.Hidden t) :
    s.FindsMembers root s.nestingBound s.members := by
  have types : s.FindsTypes root s.nestingBound s.dereference :=
    leads_replaceType (findsNamed_dereferenceNamed dereferences failFast shown)
  exact findsMembers_resolveMembers types failFast dereferences

end Synthesizer

end FluentWrappers.Synthesis
