import FluentWrappers.Proofs.Synthesis.Lawful
import FluentWrappers.Proofs.Synthesis.Resolution

/-!
# Resolving member types after any history

From lawful progress with room for nesting a search for what stands for a type agrees with the table
of images and leaves lawful progress, whether it succeeds or not. If it succeeds, the keys for all that
it looked into are bound; if it fails, the type has no image or mentions a type that is not clean.
Besides, nothing is made but what the type asks for.
-/

namespace FluentWrappers.Synthesis

open Fallible

/-! ### What is asked for -/

namespace Synthesizer

/-- Making what stands for the one source type looks into the other. -/
def Looks (s : Synthesizer) (t u : SourceType) : Prop := t.Foreign ∧ s.Needs t u

/-- Making what stands for the source type asks for the key. -/
def Asks (s : Synthesizer) (u : SourceType) (key : CacheKey) : Prop :=
  ∃ v, Relation.ReflTransGen s.Looks u v ∧ key ∈ s.mentionKeys v

def AsksAny (s : Synthesizer) (names : List TypeName) (key : CacheKey) : Prop :=
  ∃ name ∈ names, ∃ u, s.catalog.get? name = some u ∧ s.Asks u key

/-- The keys for mentions of the names are bound. -/
def Binds (s : Synthesizer) (p : Progress) (names : List TypeName) : Prop :=
  ∀ name ∈ names, ∀ u, s.catalog.get? name = some u → ∀ key ∈ s.mentionKeys u, p.Bound key

/-- A production from the members of the open type fails where failures end everything. -/
def Unclean (s : Synthesizer) (old : CacheKey → Prop) (u : SourceType) : Prop :=
  s.Strict ∧ s.Open old u ∧ ¬ s.Clean old u

/-- One of the names is that of a foreign type that is not clean. -/
def Harmed (s : Synthesizer) (old : CacheKey → Prop) (names : List TypeName) : Prop :=
  ∃ name ∈ names, ∃ u, s.catalog.get? name = some u ∧ u.Foreign ∧ s.Unclean old u

variable {s : Synthesizer} {old : CacheKey → Prop} {p q : Progress} {u v : SourceType}
  {key : CacheKey} {names names' : List TypeName}

theorem Asks.of_mem (isKey : key ∈ s.mentionKeys u) : s.Asks u key :=
  ⟨u, Relation.ReflTransGen.refl, isKey⟩

theorem Asks.of_members (foreign : u.Foreign) (asks : s.AsksAny (s.memberNeeds u) key) :
    s.Asks u key := by
  obtain ⟨name, isIn, v, found, w, path, isKey⟩ := asks
  exact ⟨w, path.head ⟨foreign, name, isIn, found⟩, isKey⟩

theorem AsksAny.subset (asks : s.AsksAny names key) (more : names ⊆ names') :
    s.AsksAny names' key := by
  obtain ⟨name, isIn, rest⟩ := asks
  exact ⟨name, more isIn, rest⟩

theorem Binds.mono (bound : ∀ key, p.Bound key → q.Bound key) (binds : s.Binds p names) :
    s.Binds q names :=
  fun name isIn u found key isKey => bound key (binds name isIn u found key isKey)

theorem binds_nil : s.Binds p [] := fun _ isIn => absurd isIn List.not_mem_nil

theorem Binds.append (first : s.Binds p names) (second : s.Binds p names') :
    s.Binds p (names ++ names') := by
  intro name isIn
  exact (List.mem_append.1 isIn).elim (first name) (second name)

theorem Harmed.subset (harmed : s.Harmed old names) (more : names ⊆ names') :
    s.Harmed old names' := by
  obtain ⟨name, isIn, rest⟩ := harmed
  exact ⟨name, more isIn, rest⟩

theorem Harmed.strict (harmed : s.Harmed old names) : s.Strict := by
  obtain ⟨-, -, -, -, -, strict, -⟩ := harmed
  exact strict

theorem unclean_of_blocked (blocked : s.Blocked old u) (some : s.hasMembers u = true)
    (isKey : key ∈ s.mentionKeys u) (fresh : ¬ old key) : s.Unclean old u := by
  have unclean : ¬ (s.Strict → s.Clean old u) := fun clean => blocked.2 ⟨some, clean⟩
  rw [Classical.not_imp] at unclean
  exact ⟨unclean.1, ⟨key, isKey, fresh⟩, unclean.2⟩

theorem memberNeeds_of_no_members (none : s.hasMembers u = false) : s.memberNeeds u = [] := by
  rw [List.eq_nil_iff_forall_not_mem]
  intro name isIn
  obtain ⟨-, m, eligible, -⟩ := exists_member_of_memberNeeds isIn
  rw [hasMembers_iff.2 ⟨m, eligible⟩] at none
  cases none

/-! ### What is to be shown of each function -/

variable {fuel : Nat}

/-- The search is for what stands for the type. -/
def Finds (s : Synthesizer) (old : CacheKey → Prop) (fuel : Nat) (type : TypeRef)
    (search : Synth TypeRef) : Prop :=
  ∀ p, Lawful s old p → Room s fuel p → Ends search p
    (fun t q => Step s old (s.AsksAny (s.needs type)) p q ∧ (Whole s old p → Whole s old q) ∧
      s.image? type = some t ∧ s.Binds q (s.needs type))
    (fun e q => Step s old (s.AsksAny (s.needs type)) p q ∧ e ≠ .cancelled ∧
      (s.image? type = none ∨ s.Harmed old type.mentions) ∧ (¬ s.Strict → s.Binds q (s.needs type)))

/-- The function resolves the members of known source types. -/
def Resolves (s : Synthesizer) (old : CacheKey → Prop) (fuel : Nat) (members : MemberResolver) :
    Prop :=
  ∀ u p, s.catalog.Known u → Lawful s old p → (s.hasMembers u = true → Room s fuel p) →
    Ends (members u) p
      (fun found q => Step s old (s.AsksAny (s.memberNeeds u)) p q ∧
        (Whole s old p → Whole s old q) ∧
        (found = some (s.resolvedMembers u) ∧ s.hasMembers u = true ∧ Supplied s q u ∨
          found = none ∧ s.catalog.extract u = .ok []))
      (fun e q => Step s old (s.AsksAny (s.memberNeeds u)) p q ∧ e ≠ .cancelled ∧
        s.Blocked old u)

/-! ### Members -/

section

variable {dereference : TypeRef → Synth TypeRef}

theorem memberFailure_ne_cancelled {e : SynthesisError} (live : e ≠ .cancelled) (m : Member) :
    memberFailure u m e ≠ .cancelled := by
  cases e with
  | cancelled => exact absurd rfl live
  | _ => exact nofun

theorem ends_resolveMember (finds : ∀ type, s.Finds old fuel type (dereference type))
    (apart : s.Apart) (on : s.options.dereference = true) (lawful : Lawful s old p)
    (room : Room s fuel p) (m : Member) :
    Ends (s.resolveMember dereference u m) p
      (fun found q => Step s old (s.AsksAny (s.needs m.type)) p q ∧
        (Whole s old p → Whole s old q) ∧ found = s.resolved m ∧
        (s.Strict → s.image? m.type ≠ none) ∧ s.Binds q (s.needs m.type))
      (fun e q => Step s old (s.AsksAny (s.needs m.type)) p q ∧ e ≠ .cancelled ∧ s.Strict ∧
        (s.image? m.type = none ∨ s.Harmed old m.type.mentions)) := by
  have spec := finds m.type p lawful room
  rcases run : dereference m.type p with ⟨e | type, q⟩
  · obtain ⟨step, live, reason, binds⟩ := spec.fault run
    have ended := resolveMember_of_error (s := s) (u := u) run
    cases failFast : s.options.failFast with
    | true =>
      rw [if_pos (Or.inr failFast)] at ended
      exact ends_of_error ended ⟨step, memberFailure_ne_cancelled live m, ⟨on, failFast⟩, reason⟩
    | false =>
      -- the member is kept, as the table has it
      have lenient : ¬ s.Strict := fun ⟨_, isOn⟩ => by simp [failFast] at isOn
      have image : s.image? m.type = none := reason.resolve_right fun harmed => lenient harmed.strict
      rw [if_neg (by simp [live, failFast])] at ended
      exact ends_of_ok ended ⟨step, fun _ => step.lawful.whole apart lenient,
        (resolved_of_no_image image).symm, fun strict => absurd strict lenient, binds lenient⟩
  · obtain ⟨step, whole, image, binds⟩ := spec.result run
    exact ends_of_ok (resolveMember_of_ok run) ⟨step, whole, (resolved_of_image on image).symm,
      fun _ => by simp [image], binds⟩

theorem ends_mapM_resolveMember (finds : ∀ type, s.Finds old fuel type (dereference type))
    (apart : s.Apart) (on : s.options.dereference = true) (lawful : Lawful s old p)
    (room : Room s fuel p) (ms : List Member) :
    let within := s.AsksAny (ms.flatMap fun m => s.needs m.type)
    Ends (ms.mapM (s.resolveMember dereference u)) p
      (fun found q => Step s old within p q ∧ (Whole s old p → Whole s old q) ∧
        found = ms.map s.resolved ∧ (s.Strict → ∀ m ∈ ms, s.image? m.type ≠ none) ∧
        s.Binds q (ms.flatMap fun m => s.needs m.type))
      (fun e q => Step s old within p q ∧ e ≠ .cancelled ∧ s.Strict ∧
        ∃ m ∈ ms, s.image? m.type = none ∨ s.Harmed old m.type.mentions) := by
  intro within
  induction ms generalizing p with
  | nil =>
    have nothing : s.Strict → ∀ m ∈ ([] : List Member), s.image? m.type ≠ none := fun _ => nofun
    exact ends_pure ⟨Step.refl lawful, id, rfl, nothing, binds_nil⟩
  | cons m ms ih =>
    have ofFirst (key : CacheKey) (asks : s.AsksAny (s.needs m.type) key) : within key :=
      asks.subset (List.subset_append_left _ _)
    have ofRest (key : CacheKey) (asks : s.AsksAny (ms.flatMap fun m => s.needs m.type) key) :
        within key := asks.subset (List.subset_append_right _ _)
    rw [List.mapM_cons]
    refine (ends_resolveMember finds apart on lawful room m).bind ?_ ?_
    · rintro first q ⟨step, whole, rfl, image, binds⟩
      have step := step.weaken ofFirst
      refine (ih step.lawful (step.room room)).bind ?_ ?_
      · rintro others r ⟨stepRest, wholeRest, rfl, images, bindsRest⟩
        have stepRest := stepRest.weaken ofRest
        refine ends_pure ⟨step.trans stepRest, wholeRest ∘ whole, rfl, fun strict => ?_, ?_⟩
        · exact List.forall_mem_cons.2 ⟨image strict, images strict⟩
        · exact (binds.mono fun _ => stepRest.bound).append bindsRest
      · rintro e r ⟨stepRest, live, strict, n, isIn, reason⟩
        exact ⟨step.trans (stepRest.weaken ofRest), live, strict, n, List.mem_cons_of_mem m isIn,
          reason⟩
    · rintro e q ⟨step, live, strict, reason⟩
      exact ⟨step.weaken ofFirst, live, strict, m, List.mem_cons_self, reason⟩

/-- A member that has no image, or one that mentions a type that is not clean, blocks its type. -/
theorem blocked_of_member {m : Member} (strict : s.Strict) (eligible : s.catalog.EligibleMember u m)
    (reason : s.image? m.type = none ∨ s.Harmed old m.type.mentions) : s.Blocked old u := by
  constructor
  · intro empty
    exact SourceCatalog.not_barren_of_eligibleMember ⟨m, eligible⟩
      (SourceCatalog.barren_of_extract_nil empty)
  · rintro ⟨-, clean⟩
    rcases reason with none | ⟨name, isIn, v, found, foreign, -, isOpen, unclean⟩
    · exact clean strict u m Relation.ReflTransGen.refl ⟨eligible, (s.image?_eq_none_iff _).1 none⟩
    · exact unclean ((clean strict).step ⟨⟨foreign, m, eligible, name, isIn, found⟩, isOpen⟩)

theorem resolves_resolveMembers (finds : ∀ type, s.Finds old fuel type (dereference type))
    (apart : s.Apart) : s.Resolves old fuel (s.resolveMembers dereference) := by
  intro u p known lawful room
  rcases extracted : s.catalog.extract u with e | members
  · have failed : s.resolveMembers dereference u p = (.error e, p) :=
      resolveMembers_of_extract_error extracted
    obtain ⟨name, rfl⟩ := SourceCatalog.eq_inheritanceCycle_of_extract extracted
    refine ends_of_error failed ⟨Step.refl lawful, nofun, by simp [extracted], ?_⟩
    rintro ⟨some, -⟩
    simp [hasMembers_of_extract_error extracted] at some
  · by_cases none : members = []
    · subst none
      exact ends_of_ok (resolveMembers_of_extract_nil extracted)
        ⟨Step.refl lawful, id, Or.inr ⟨rfl, rfl⟩⟩
    · have some := hasMembers_of_extract extracted none
      have each (m : Member) : s.catalog.EligibleMember u m ↔ m ∈ members :=
        SourceCatalog.eligibleMember_iff extracted
      have lifted : (liftM (s.catalog.extract u) : Synth (List Member)) p = (.ok members, p) := by
        rw [lift_apply, extracted]
      refine ends_bind_ok lifted ?_
      rw [if_neg (by simpa using none), resolvedMembers_eq extracted]
      cases on : s.options.dereference with
      | false =>
        have asDeclared : members.map s.resolved = members := by
          rw [funext (resolved_of_no_dereference on), List.map_id']
        have lenient : ¬ s.Strict := fun ⟨isOn, _⟩ => by simp [on] at isOn
        refine ends_pure ⟨Step.refl lawful, id, Or.inl ⟨by rw [asDeclared], some, ?_⟩⟩
        refine ⟨fun strict => absurd strict lenient, ?_⟩
        rintro v ⟨name, isIn, -⟩
        rw [memberNeeds_of_no_dereference on] at isIn
        exact absurd isIn List.not_mem_nil
      | true =>
        rw [memberNeeds_eq extracted on]
        refine (ends_mapM_resolveMember finds apart on lawful (room some) members).bind ?_ ?_
        · rintro _ q ⟨step, whole, rfl, images, binds⟩
          refine ends_pure ⟨step, whole, Or.inl ⟨rfl, some, ?_, ?_⟩⟩
          · exact fun strict m eligible => images strict m ((each m).1 eligible)
          · rintro v ⟨name, isIn, found⟩
            rw [memberNeeds_eq extracted on] at isIn
            exact binds name isIn v found
        · rintro e q ⟨step, live, strict, m, isIn, reason⟩
          exact ⟨step, live, blocked_of_member strict ((each m).2 isIn) reason⟩

end

/-! ### Interfaces, proxies and clones -/

section

variable {members : MemberResolver} {kind : ProductKind}

theorem ends_inScope {α : Type} {inside outside : Synth α} {post : α → Progress → Prop}
    {failed : SynthesisError → Progress → Prop} (pending : key ∈ p.scope → Ends inside p post failed)
    (idle : key ∉ p.scope → Ends outside p post failed) :
    Ends (inScope key >>= fun isPending => if isPending = true then inside else outside) p post
      failed := by
  have found : inScope key p = (.ok (p.scope.contains key), p) := rfl
  refine ends_bind_ok found ?_
  by_cases isIn : key ∈ p.scope
  · rw [if_pos (List.contains_iff_mem.2 isIn)]
    exact pending isIn
  · rw [if_neg (mt List.contains_iff_mem.1 isIn)]
    exact idle isIn

theorem owned_of_hasMembers (known : s.catalog.Known u) (some : s.hasMembers u = true)
    (isKey : key ∈ s.memberKeys u) : s.Owned key :=
  ⟨u, known, hasMembers_iff.1 some, isKey⟩

/-- The production of the kind from the source type gives its product. -/
def Produces (s : Synthesizer) (old : CacheKey → Prop) (kind : ProductKind) (u : SourceType)
    (p : Progress) (production : Synth (Option SynthesizedType)) : Prop :=
  Ends production p
    (fun made q => Step s old
        (fun key => key = s.keyOf kind u ∨ s.AsksAny (s.memberNeeds u) key) p q ∧
      (Whole s old p → Whole s old q) ∧ IsProduct s kind u made ∧ q.Bound (s.keyOf kind u))
    (fun e q => Step s old (s.AsksAny (s.memberNeeds u)) p q ∧ e ≠ .cancelled ∧
      s.Blocked old u ∧ ¬ old (s.keyOf kind u))

theorem produces_of_members {rest : Option (List Member) → Synth (Option SynthesizedType)}
    (resolves : s.Resolves old fuel members) (apart : s.Apart) (known : s.catalog.Known u)
    (isKind : kind.OfMembers) (nothing : rest none = pure none)
    (shape : s.hasMembers u = true → ∀ q,
      rest (some (s.resolvedMembers u)) q = (.ok (s.product u kind), q))
    (lawful : Lawful s old p) (room : s.hasMembers u = true → Room s (fuel + 1) p)
    (idle : s.keyOf kind u ∉ p.scope) :
    s.Produces old kind u p (memoize (s.keyOf kind u) (members u >>= rest)) := by
  have isKey : s.keyOf kind u ∈ s.memberKeys u := mem_memberKeys_iff.2 ⟨kind, isKind, rfl⟩
  refine lawful.ends_memoize _ _ apart known rfl idle
    (fun fresh blocked => loose_of_not_stable apart known isKey fresh blocked.2) ?_
  intro free entered
  have inside (some : s.hasMembers u = true) : Room s fuel (p.enter (s.keyOf kind u)) :=
    (room some).enter (owned_of_hasMembers known some isKey)
  refine (resolves u _ known entered inside).bind ?_ fun e q failed => failed
  rintro _ q ⟨step, whole, ⟨rfl, some, supplied⟩ | ⟨rfl, empty⟩⟩
  · obtain ⟨t, made⟩ := product_eq_some some isKind.ne_enumClone fun same =>
      absurd same isKind.ne_fluent
    have product : IsProduct s kind u (s.product u kind) := by
      refine ⟨rfl, fun isNone => ?_, fun strict _ _ => supplied.1 strict⟩
      rw [made] at isNone
      cases isNone
    exact ends_of_ok (shape some q) ⟨step, whole, product, fun _ _ => supplied⟩
  · have none := product_eq_none (hasMembers_of_extract_nil empty) isKind.ne_enumClone
    rw [nothing]
    have product : IsProduct s kind u .none :=
      ⟨none.symm, fun _ => empty, fun _ isSome => absurd rfl isSome⟩
    exact ends_pure ⟨step, whole, product, fun _ isSome => absurd rfl isSome⟩

theorem produces_interfaceVia (resolves : s.Resolves old fuel members) (apart : s.Apart)
    (known : s.catalog.Known u) (lawful : Lawful s old p)
    (room : s.hasMembers u = true → Room s (fuel + 1) p) (idle : s.interfaceKey u ∉ p.scope) :
    s.Produces old .interface u p (s.interfaceVia memoize members u) := by
  refine produces_of_members resolves apart known (Or.inl rfl) rfl (fun some q => ?_) lawful room
    idle
  rw [product_interface some]
  rfl

theorem produces_proxyVia (resolves : s.Resolves old fuel members) (apart : s.Apart)
    (known : s.catalog.Known u) (lawful : Lawful s old p)
    (room : s.hasMembers u = true → Room s (fuel + 1) p) (idle : s.proxyKey u ∉ p.scope) :
    s.Produces old .proxy u p (s.proxyVia memoize members u (some (s.productName u .interface))) := by
  refine produces_of_members resolves apart known (Or.inr (Or.inl rfl)) rfl (fun some q => ?_)
    lawful room idle
  rw [product_proxy some]
  have lifted : (liftM (proxyType (s.productName u .proxy) u (s.resolvedMembers u)
      (.some (s.productName u .interface))) : Synth SynthesizedType) q =
        (.ok (s.madeProxy u), q) := by
    rw [lift_apply, proxyType_eq]
    rfl
  exact bind_ok lifted

theorem produces_structClone (resolves : s.Resolves old fuel members) (apart : s.Apart)
    (known : s.catalog.Known u) (lawful : Lawful s old p)
    (room : s.hasMembers u = true → Room s (fuel + 1) p) (idle : cloneKey u ∉ p.scope) :
    s.Produces old .structClone u p (memoize (cloneKey u) do
      match ← members u with
      | none => return none
      | some members => return some (← structType u members)) := by
  refine produces_of_members resolves apart known (Or.inr (Or.inr rfl)) rfl (fun some q => ?_)
    lawful room idle
  rw [product_structClone some]
  have lifted : (liftM (structType u (s.resolvedMembers u)) : Synth SynthesizedType) q =
      (.ok (s.madeStruct u), q) := by
    rw [lift_apply, structType_eq]
    rfl
  exact bind_ok lifted

/-! ### References to foreign types -/

/-- No production from the members of the foreign type can succeed. -/
def Refuses (s : Synthesizer) (old : CacheKey → Prop) (u : SourceType) : Prop :=
  s.hasMembers u = false ∨ s.Unclean old u

theorem refuses_of_blocked (blocked : s.Blocked old u) (isKey : key ∈ s.mentionKeys u)
    (fresh : ¬ old key) : s.Refuses old u := by
  cases some : s.hasMembers u with
  | false => exact Or.inl some
  | true => exact Or.inr (unclean_of_blocked blocked some isKey fresh)

/-- The scope holds only keys of source types with members. -/
theorem hasMembers_of_scope (apart : s.Apart) (known : s.catalog.Known u) (room : Room s fuel p)
    (isKey : key ∈ s.memberKeys u) (isIn : key ∈ p.scope) : s.hasMembers u = true := by
  obtain ⟨v, known', eligible, isKey'⟩ := room.owned key isIn
  obtain rfl := apart.of_memberKeys known known' isKey isKey'
  exact hasMembers_iff.2 eligible

variable (resolves : s.Resolves old fuel members) (apart : s.Apart) (known : s.catalog.Known u)
  (foreign : u.Foreign)

include resolves apart known foreign

theorem ends_ensureInterfaceVia (lawful : Lawful s old p) (room : Room s (fuel + 1) p) :
    Ends (s.ensureInterfaceVia memoize members u) p
      (fun name q => Step s old (s.Asks u) p q ∧ (Whole s old p → Whole s old q) ∧
        name = s.productName u .interface ∧ s.hasMembers u = true ∧ q.Bound (s.interfaceKey u))
      (fun e q => Step s old (s.Asks u) p q ∧ e ≠ .cancelled ∧ s.Refuses old u) := by
  have isKey := s.interfaceKey_mem_mentionKeys foreign
  have within (key : CacheKey)
      (asks : key = s.interfaceKey u ∨ s.AsksAny (s.memberNeeds u) key) : s.Asks u key :=
    asks.elim (fun same => same ▸ Asks.of_mem isKey) (Asks.of_members foreign)
  unfold ensureInterfaceVia
  refine ends_inScope (fun isIn => ?_) fun idle => ?_
  · have isMemberKey : s.interfaceKey u ∈ s.memberKeys u := List.mem_cons_self
    have some := hasMembers_of_scope apart known room isMemberKey isIn
    exact ends_pure ⟨Step.refl lawful, id, rfl, some, lawful.bound_of_scope isIn⟩
  · refine (produces_interfaceVia resolves apart known lawful (fun _ => room) idle).bind ?_ ?_
    · rintro made q ⟨step, whole, product, bound⟩
      cases some : s.hasMembers u with
      | true =>
        rw [product.eq_product, product_interface some]
        exact ends_pure ⟨step.weaken within, whole, rfl, rfl, bound⟩
      | false =>
        have none : s.product u .interface = none := product_eq_none some nofun
        rw [product.eq_product, none]
        exact ends_throw ⟨step.weaken within, nofun, Or.inl some⟩
    · rintro e q ⟨step, live, blocked, fresh⟩
      exact ⟨step.weaken fun key => Asks.of_members foreign, live,
        refuses_of_blocked blocked isKey fresh⟩

theorem ends_ensureProxyVia (lawful : Lawful s old p) (room : Room s (fuel + 1) p) :
    Ends (s.ensureProxyVia memoize members u (s.productName u .interface)) p
      (fun _ q => Step s old (s.Asks u) p q ∧ (Whole s old p → Whole s old q) ∧
        q.Bound (s.proxyKey u))
      (fun e q => Step s old (s.Asks u) p q ∧ e ≠ .cancelled ∧ s.Refuses old u) := by
  have isKey := s.proxyKey_mem_mentionKeys foreign
  have within (key : CacheKey)
      (asks : key = s.proxyKey u ∨ s.AsksAny (s.memberNeeds u) key) : s.Asks u key :=
    asks.elim (fun same => same ▸ Asks.of_mem isKey) (Asks.of_members foreign)
  unfold ensureProxyVia
  refine ends_inScope (fun isIn => ?_) fun idle => ?_
  · exact ends_pure ⟨Step.refl lawful, id, lawful.bound_of_scope isIn⟩
  · refine (produces_proxyVia resolves apart known lawful (fun _ => room) idle).bind ?_ ?_
    · rintro made q ⟨step, whole, -, bound⟩
      exact ends_pure ⟨step.weaken within, whole, bound⟩
    · rintro e q ⟨step, live, blocked, fresh⟩
      exact ⟨step.weaken fun key => Asks.of_members foreign, live,
        refuses_of_blocked blocked isKey fresh⟩

/-- The interface and the proxy of a foreign type come before what else stands for it. -/
theorem ends_reference {α : Type} {rest : TypeName → Synth α} {post : α → Progress → Prop}
    (lawful : Lawful s old p) (room : Room s (fuel + 1) p)
    (next : ∀ q, Step s old (s.Asks u) p q → (Whole s old p → Whole s old q) →
      s.hasMembers u = true → q.Bound (s.interfaceKey u) → q.Bound (s.proxyKey u) →
      Ends (rest (s.productName u .interface)) q post
        (fun e q => Step s old (s.Asks u) p q ∧ e ≠ .cancelled ∧ s.Refuses old u)) :
    Ends (do
      let interface ← s.ensureInterfaceVia memoize members u
      s.ensureProxyVia memoize members u interface
      rest interface) p post
      (fun e q => Step s old (s.Asks u) p q ∧ e ≠ .cancelled ∧ s.Refuses old u) := by
  refine (ends_ensureInterfaceVia resolves apart known foreign lawful room).bind ?_
    fun e q failed => failed
  rintro _ q ⟨step, whole, rfl, some, boundInterface⟩
  refine (ends_ensureProxyVia resolves apart known foreign step.lawful (step.room room)).bind ?_ ?_
  · rintro _ r ⟨stepProxy, wholeProxy, boundProxy⟩
    exact next r (step.trans stepProxy) (wholeProxy ∘ whole) some (stepProxy.bound boundInterface)
      boundProxy
  · rintro e r ⟨stepProxy, live, refuses⟩
    exact ⟨step.trans stepProxy, live, refuses⟩

theorem ends_referenceInterfaceVia (lawful : Lawful s old p) (room : Room s (fuel + 1) p)
    (other : u.kind ≠ .struct) :
    Ends (s.referenceInterfaceVia memoize members u) p
      (fun t q => Step s old (s.Asks u) p q ∧ (Whole s old p → Whole s old q) ∧
        s.hasMembers u = true ∧ t = .synthesized (s.standIn u) ∧
        ∀ key ∈ s.mentionKeys u, q.Bound key)
      (fun e q => Step s old (s.Asks u) p q ∧ e ≠ .cancelled ∧ s.Refuses old u) := by
  refine ends_reference resolves apart known foreign lawful room ?_
  intro q step whole some boundInterface boundProxy
  have stand : s.standIn u = s.productName u .interface := if_neg other
  refine ends_pure ⟨step, whole, some, by rw [stand], ?_⟩
  rw [mentionKeys_foreign foreign, if_neg other]
  simp [boundInterface, boundProxy]

theorem ends_cloneStructVia (lawful : Lawful s old p) (room : Room s (fuel + 1) p)
    (isStruct : u.kind = .struct) :
    Ends (s.cloneStructVia memoize members u) p
      (fun t q => Step s old (s.Asks u) p q ∧ (Whole s old p → Whole s old q) ∧
        s.hasMembers u = true ∧ t = .synthesized (s.standIn u) ∧
        ∀ key ∈ s.mentionKeys u, q.Bound key)
      (fun e q => Step s old (s.Asks u) p q ∧ e ≠ .cancelled ∧ s.Refuses old u) := by
  have stand : s.standIn u = u.name := if_pos isStruct
  have keys : s.mentionKeys u = s.memberKeys u := by
    rw [mentionKeys_foreign foreign, if_pos isStruct]
  have isKey : cloneKey u ∈ s.mentionKeys u := by simp [keys, memberKeys]
  have within (key : CacheKey)
      (asks : key = cloneKey u ∨ s.AsksAny (s.memberNeeds u) key) : s.Asks u key :=
    asks.elim (fun same => same ▸ Asks.of_mem isKey) (Asks.of_members foreign)
  refine ends_reference resolves apart known foreign lawful room ?_
  intro q step whole some boundInterface boundProxy
  rw [stand, keys]
  refine ends_inScope (fun isIn => ?_) fun idle => ?_
  · have boundClone := step.lawful.bound_of_scope isIn
    refine ends_pure ⟨step, whole, some, rfl, ?_⟩
    simp only [memberKeys, List.forall_mem_cons]
    exact ⟨boundInterface, boundProxy, boundClone, List.forall_mem_nil _⟩
  · have room := step.room room
    refine (produces_structClone resolves apart known step.lawful (fun _ => room) idle).bind ?_ ?_
    · rintro made r ⟨stepClone, wholeClone, product, boundClone⟩
      rw [product.eq_product, product_structClone some]
      refine ends_pure ⟨step.trans (stepClone.weaken within), wholeClone ∘ whole, some, rfl, ?_⟩
      simp only [memberKeys, List.forall_mem_cons]
      exact ⟨stepClone.bound boundInterface, stepClone.bound boundProxy, boundClone,
        List.forall_mem_nil _⟩
    · rintro e r ⟨stepClone, live, blocked, fresh⟩
      have stepClone := stepClone.weaken fun key => Asks.of_members foreign
      exact ⟨step.trans stepClone, live, refuses_of_blocked blocked isKey fresh⟩

end

/-! ### Names -/

theorem ends_cloneEnumVia (apart : s.Apart) (known : s.catalog.Known u) (lawful : Lawful s old p)
    (room : Room s fuel p) {underlying : Primitive} {literals : List Literal}
    (isEnum : u.kind = .enumeration underlying literals) :
    Ends (cloneEnumVia memoize u underlying literals) p
      (fun t q => Step s old (s.Asks u) p q ∧ (Whole s old p → Whole s old q) ∧
        t = .synthesized u.name ∧ ∀ key ∈ s.mentionKeys u, q.Bound key)
      (fun _ _ => False) := by
  have keys := mentionKeys_enum (s := s) isEnum
  have idle : s.keyOf .enumClone u ∉ p.scope := by
    intro isIn
    rcases (room.owned _ isIn).kind with isKind | isKind | isKind <;> cases isKind
  have other : s.keyOf .enumClone u ∉ s.memberKeys u := by
    intro isKey
    obtain ⟨kind, isKind, same⟩ := mem_memberKeys_iff.1 isKey
    exact absurd (congrArg CacheKey.kind same).symm isKind.ne_enumClone
  unfold cloneEnumVia
  refine (lawful.ends_memoize (fun _ => False) False apart known rfl idle
    (fun _ blame => blame.elim) fun free entered => ?_).bind ?_ ?_
  · have product : IsProduct s .enumClone u (some (enumType u underlying literals)) :=
      ⟨(product_enumClone isEnum).symm, nofun, fun _ _ other => absurd rfl other⟩
    exact ends_pure ⟨Step.refl entered, id, product, fun isKey => absurd isKey other⟩
  · rintro made q ⟨step, whole, product, bound⟩
    rw [product.eq_product, product_enumClone isEnum, keys]
    refine ends_pure ⟨step.weaken ?_, whole, rfl, List.forall_mem_singleton.2 bound⟩
    rintro key (rfl | impossible)
    · exact Asks.of_mem (keys ▸ List.mem_singleton_self _)
    · exact impossible.elim
  · exact fun _ _ ⟨_, _, impossible, _⟩ => impossible

section

variable {dereference : TypeRef → Synth TypeRef}

/-- A foreign type without members brings forth nothing. -/
theorem step_of_no_members (apart : s.Apart) (known : s.catalog.Known u) (foreign : u.Foreign)
    (none : s.hasMembers u = false) {within : CacheKey → Prop} (step : Step s old (s.Asks u) p q) :
    Step s old within p q := by
  refine step.mono fun key made asks => ?_
  obtain ⟨v, path, isKey⟩ := asks
  have self : v = u := by
    rcases path.cases_head with rfl | ⟨w, ⟨-, name, isIn, -⟩, -⟩
    · rfl
    · rw [memberNeeds_of_no_members none] at isIn
      exact absurd isIn List.not_mem_nil
  subst self
  rcases of_mem_mentionKeys isKey with ⟨-, underlying, literals, isEnum⟩ | ⟨-, isMemberKey⟩
  · exact absurd isEnum (foreign.2 underlying literals)
  · rw [step.lawful.hasMembers_of_made apart known isMemberKey made] at none
    cases none

theorem ends_foreign (resolves : s.Resolves old fuel (s.resolveMembers dereference))
    (apart : s.Apart) (known : s.catalog.Known u) (foreign : u.Foreign) (lawful : Lawful s old p)
    (room : Room s (fuel + 1) p) :
    Ends (if u.kind = .struct then s.cloneStructVia memoize (s.resolveMembers dereference) u
        else s.referenceInterfaceVia memoize (s.resolveMembers dereference) u) p
      (fun t q => Step s old (s.Asks u) p q ∧ (Whole s old p → Whole s old q) ∧
        s.hasMembers u = true ∧ t = .synthesized (s.standIn u) ∧
        ∀ key ∈ s.mentionKeys u, q.Bound key)
      (fun e q => Step s old (s.Asks u) p q ∧ e ≠ .cancelled ∧ s.Refuses old u) := by
  split
  case isTrue isStruct =>
    exact ends_cloneStructVia resolves apart known foreign lawful room isStruct
  case isFalse other =>
    exact ends_referenceInterfaceVia resolves apart known foreign lawful room other

theorem finds_replaceNamedVia (resolves : s.Resolves old fuel (s.resolveMembers dereference))
    (apart : s.Apart) (name : TypeName) :
    s.Finds old (fuel + 1) (.named name)
      (s.replaceNamedVia memoize (s.resolveMembers dereference) name) := by
  intro p lawful room
  have isMention : name ∈ (TypeRef.named name).mentions := List.mem_singleton_self name
  unfold replaceNamedVia image? needs
  cases found : s.catalog.get? name with
  | none =>
    have missing : (liftM (s.catalog.require name) : Synth SourceType) p =
        (.error (.unknownType name.canonical), p) := by
      rw [lift_apply, SourceCatalog.require, found]
    have image : s.namedImage? name = none := namedImage?_eq_none_iff.2 (Or.inl found)
    rw [image]
    exact ends_bind_error missing
      ⟨Step.refl lawful, (plain_unknownType _).1, Or.inl rfl, fun _ => binds_nil⟩
  | some u =>
    have required : (liftM (s.catalog.require name) : Synth SourceType) p = (.ok u, p) := by
      rw [lift_apply, SourceCatalog.require, found]
    have known := SourceCatalog.known_of_get? found
    have asks (key : CacheKey) (ofType : s.Asks u key) : s.AsksAny [name] key :=
      ⟨name, List.mem_singleton_self name, u, found, ofType⟩
    have binds {q : Progress} (bound : ∀ key ∈ s.mentionKeys u, q.Bound key) : s.Binds q [name] := by
      rintro other isIn v found'
      obtain rfl := List.mem_singleton.1 isIn
      obtain rfl := Option.some.inj (found.symm.trans found')
      exact bound
    refine ends_bind_ok required ?_
    rw [namedImage?_eq found]
    split
    case h_1 underlying literals isEnum =>
      rw [sourceImage?_enum isEnum, Option.isSome_some, if_pos rfl]
      refine (ends_cloneEnumVia apart known lawful room isEnum).mono ?_ fun _ _ impossible =>
        impossible.elim
      rintro _ q ⟨step, whole, rfl, bound⟩
      exact ⟨step.weaken asks, whole, rfl, binds bound⟩
    case h_2 notEnum =>
      by_cases runtime : u.isRuntime = true
      · have keys := mentionKeys_runtime (s := s) notEnum runtime
        rw [if_pos runtime, sourceImage?_runtime notEnum runtime, Option.isSome_some, if_pos rfl]
        exact ends_pure ⟨Step.refl lawful, id, rfl, binds (by simp [keys])⟩
      · have foreign : u.Foreign := ⟨Bool.eq_false_of_not_eq_true runtime, notEnum⟩
        rw [if_neg runtime, sourceImage?_foreign foreign]
        refine (ends_foreign resolves apart known foreign lawful room).mono ?_ ?_
        · rintro _ q ⟨step, whole, some, rfl, bound⟩
          rw [if_pos some, Option.isSome_some, if_pos rfl]
          exact ⟨step.weaken asks, whole, rfl, binds bound⟩
        · rintro e q ⟨step, live, refuses⟩
          cases some : s.hasMembers u with
          | false =>
            exact ⟨step_of_no_members apart known foreign some step, live, Or.inl rfl,
              fun _ => binds_nil⟩
          | true =>
            have unclean := refuses.resolve_left (by simp [some])
            rw [if_pos rfl, Option.isSome_some, if_pos rfl]
            exact ⟨step.weaken asks, live, Or.inr ⟨name, isMention, u, found, foreign, unclean⟩,
              fun lenient => absurd unclean.1 lenient⟩

end

/-! ### Types -/

/-- The search is for what stands for each of the types. -/
def FindsAll (s : Synthesizer) (old : CacheKey → Prop) (fuel : Nat) (types : List TypeRef)
    (search : Synth (List TypeRef)) : Prop :=
  ∀ p, Lawful s old p → Room s fuel p → Ends search p
    (fun ts q => Step s old (s.AsksAny (s.needsOfAll types)) p q ∧
      (Whole s old p → Whole s old q) ∧ s.images? types = some ts ∧ s.Binds q (s.needsOfAll types))
    (fun e q => Step s old (s.AsksAny (s.needsOfAll types)) p q ∧ e ≠ .cancelled ∧
      (s.images? types = none ∨ s.Harmed old (TypeRef.mentionsOfAll types)) ∧
      (¬ s.Strict → s.Binds q (s.needsOfAll types)))

section

variable {named : TypeName → Synth TypeRef}

mutual

theorem finds_replaceType (finds : ∀ name, s.Finds old fuel (.named name) (named name))
    (type : TypeRef) : s.Finds old fuel type (s.replaceType named type) := by
  intro p lawful room
  cases type with
  | named name =>
    unfold replaceType
    exact finds name p lawful room
  | array element =>
    unfold replaceType image? needs
    refine (finds_replaceType finds element p lawful room).bind ?_ ?_
    · rintro t q ⟨step, whole, image, binds⟩
      rw [image]
      exact ends_pure ⟨step, whole, rfl, binds⟩
    · rintro e q ⟨step, live, reason, binds⟩
      exact ⟨step, live, reason.imp Option.map_eq_none_iff.2 id, binds⟩
  | generic definition args =>
    unfold replaceType image? needs
    by_cases registered : s.catalog.isRuntimeGeneric definition = true
    · simp only [if_pos registered]
      refine (finds_replaceTypes finds args p lawful room).bind ?_ ?_
      · rintro ts q ⟨step, whole, images, binds⟩
        rw [images]
        exact ends_pure ⟨step, whole, rfl, binds⟩
      · rintro e q ⟨step, live, reason, binds⟩
        exact ⟨step, live, reason.imp Option.map_eq_none_iff.2 id, binds⟩
    · rw [if_neg registered, if_neg registered, if_neg registered]
      exact ends_throw ⟨Step.refl lawful, (plain_unknownType _).1, Or.inl rfl, fun _ => binds_nil⟩
  | primitive | string | object | synthesized =>
    unfold replaceType image?
    exact ends_pure ⟨Step.refl lawful, id, rfl, binds_nil⟩

theorem finds_replaceTypes (finds : ∀ name, s.Finds old fuel (.named name) (named name))
    (types : List TypeRef) : s.FindsAll old fuel types (s.replaceTypes named types) := by
  intro p lawful room
  cases types with
  | nil =>
    unfold replaceTypes images?
    exact ends_pure ⟨Step.refl lawful, id, rfl, binds_nil⟩
  | cons type rest =>
    unfold replaceTypes images? needsOfAll
    refine (finds_replaceType finds type p lawful room).bind ?_ ?_
    · rintro t q ⟨step, whole, image, binds⟩
      rw [image, Option.isSome_some, if_pos rfl, Option.bind_some]
      have step := step.weaken fun key asks => asks.subset
        (List.subset_append_left (s.needs type) (s.needsOfAll rest))
      refine (finds_replaceTypes finds rest q step.lawful (step.room room)).bind ?_ ?_
      · rintro ts r ⟨stepRest, wholeRest, images, bindsRest⟩
        have stepRest := stepRest.weaken fun key asks => asks.subset
          (List.subset_append_right (s.needs type) (s.needsOfAll rest))
        rw [images]
        exact ends_pure ⟨step.trans stepRest, wholeRest ∘ whole, rfl,
          (binds.mono fun _ => stepRest.bound).append bindsRest⟩
      · rintro e r ⟨stepRest, live, reason, bindsRest⟩
        have stepRest := stepRest.weaken fun key asks => asks.subset
          (List.subset_append_right (s.needs type) (s.needsOfAll rest))
        refine ⟨step.trans stepRest, live, ?_, fun lenient =>
          (binds.mono fun _ => stepRest.bound).append (bindsRest lenient)⟩
        exact reason.imp Option.map_eq_none_iff.2 fun harmed =>
          harmed.subset (List.subset_append_right _ _)
    · rintro e q ⟨step, live, reason, binds⟩
      have step := step.weaken fun key asks => asks.subset (List.subset_append_left (s.needs type)
        (if (s.image? type).isSome then s.needsOfAll rest else []))
      refine ⟨step, live, ?_, fun lenient => (binds lenient).append ?_⟩
      · refine reason.imp (fun none => ?_) fun harmed =>
          harmed.subset (List.subset_append_left _ _)
        rw [none]
        rfl
      · have none : s.image? type = none :=
          reason.resolve_right fun harmed => lenient harmed.strict
        rw [none]
        exact binds_nil

end

end

/-! ### All levels of nesting -/

theorem finds_dereferenceNamedVia (apart : s.Apart) (name : TypeName) :
    s.Finds old fuel (.named name) (s.dereferenceNamedVia memoize fuel name) := by
  induction fuel generalizing name with
  | zero =>
    -- every level of nesting has its own key in the scope, and there are not so many
    intro p lawful room
    exact absurd room (not_room_zero lawful.distinct)
  | succ fuel ih =>
    -- members are resolved by searches of the level below
    have types := finds_replaceType ih
    exact finds_replaceNamedVia (resolves_resolveMembers types apart) apart name

theorem finds_dereference (apart : s.Apart) (type : TypeRef) :
    s.Finds old s.nestingBound type (s.dereference type) :=
  finds_replaceType (finds_dereferenceNamedVia apart) type

theorem resolves_members (apart : s.Apart) : s.Resolves old s.nestingBound s.members :=
  resolves_resolveMembers (finds_dereference apart) apart

theorem room_of_idle (idle : p.scope = []) (more : s.nestingBound ≤ fuel) : Room s fuel p where
  owned key isIn := by
    rw [idle] at isIn
    exact absurd isIn List.not_mem_nil
  enough := by
    rw [idle]
    unfold nestingBound at more
    show _ < fuel + 0
    omega

end Synthesizer

end FluentWrappers.Synthesis
