import FluentWrappers.Proofs.Synthesis.Lawful

/-!
# The first synthesis of a session

Where simple names hold dots, interfaces of different source types may have one name. Yet what a
session completes for its first source type is its own: the key of its interface is claimed before
anything else is looked at, the names of proxies are never shared, and no member asks for a fluent
wrapper. All three show the eligible members, each with some type.
-/

namespace FluentWrappers.Synthesis

open Fallible

/-! ### Members with other types -/

/-- The member is one of others, apart from its type. -/
def Among (members : List Member) (m : Member) : Prop := ∃ type, m.withType type ∈ members

def untyped (m : Member) : Member := m.withType .object

/-- The eligible members of the source type in their order, each with some type. -/
def Retyped (s : Synthesizer) (u : SourceType) (members : List Member) : Prop :=
  ∃ declared, s.catalog.extract u = .ok declared ∧ members.map untyped = declared.map untyped

section

variable {s : Synthesizer} {u : SourceType} {m : Member} {members : List Member}

theorem Retyped.nodup_names (retyped : Retyped s u members) : (members.map (·.name)).Nodup := by
  obtain ⟨declared, found, same⟩ := retyped
  have ofUntyped (ms : List Member) : ms.map (·.name) = (ms.map untyped).map (·.name) := by
    rw [List.map_map]
    rfl
  rw [ofUntyped, same, ← ofUntyped]
  exact SourceCatalog.nodup_names_extract found

theorem Retyped.among (retyped : Retyped s u members) (eligible : s.catalog.EligibleMember u m) :
    Among members m := by
  obtain ⟨declared, found, same⟩ := retyped
  obtain ⟨declared', found', isIn⟩ := eligible
  obtain rfl := Except.ok.inj (found.symm.trans found')
  have isIn : untyped m ∈ members.map untyped := same ▸ List.mem_map_of_mem isIn
  obtain ⟨n, isMember, sameUntyped⟩ := List.mem_map.1 isIn
  have sameTyped : (untyped n).withType n.type = (untyped m).withType n.type := by rw [sameUntyped]
  have isRetyped : n = m.withType n.type := sameTyped
  exact ⟨n.type, isRetyped ▸ isMember⟩

end

/-! ### Guarded progress -/

/-- The type of a key, if the key is one of the root's, is the root's own. -/
structure Fits (s : Synthesizer) (root : SourceType) (key : CacheKey) (t : SynthesizedType) :
    Prop where
  interface : key = s.interfaceKey root → t.name = interfaceName s.options root.name
  proxy : key = s.proxyKey root → ∃ members, Retyped s root members ∧
    t = proxyOf (proxyName s.options root.name) root members
      (some (interfaceName s.options root.name))

/-- The key of the root's interface is taken, and no key of the root has what is not its own. -/
structure Guarded (s : Synthesizer) (root : SourceType) (p : Progress) : Prop where
  tidy : p.cache.Tidy
  claimed : p.Bound (s.interfaceKey root)
  fits : ∀ key t, p.Has key t → Fits s root key t
  bare : ∀ key : CacheKey, key.kind = .fluent → p.cache.slotOf? key = none
  listed : ∀ key t, p.Has key t → t ∈ p.cache.types

/-- From one progress to a guarded one that keeps the scope, the slots and the types. -/
structure Guards (s : Synthesizer) (root : SourceType) (p q : Progress) : Prop extends
    Grows p q where
  guarded : Guarded s root q
  kept : ∀ key t, p.Has key t → q.Has key t

variable {s : Synthesizer} {root u : SourceType} {p q r : Progress} {key other : CacheKey}
  {slot : Nat} {made : Option SynthesizedType} {e : SynthesisError}

theorem Guards.refl (guarded : Guarded s root p) : Guards s root p p where
  toGrows := Grows.refl p
  guarded := guarded
  kept _ _ has := has

theorem Guards.trans (first : Guards s root p q) (second : Guards s root q r) :
    Guards s root p r where
  toGrows := first.toGrows.trans second.toGrows
  guarded := second.guarded
  kept key t has := second.kept key t (first.kept key t has)

theorem Guarded.enter (guarded : Guarded s root p) (free : p.cache.slotOf? key = none)
    (wanted : key.kind ≠ .fluent) : Guarded s root (p.enter key) where
  tidy := guarded.tidy.claim free
  claimed := bound_enter free guarded.claimed
  fits other t has := guarded.fits other t ((has_enter_iff guarded.tidy free).1 has)
  bare other isFluent := by
    have ne : other ≠ key := by
      rintro rfl
      exact wanted isFluent
    rw [slotOf?_enter_of_ne free ne]
    exact guarded.bare other isFluent
  listed other t has := by
    show t ∈ (p.cache.claim 0 key).1.types
    rw [Cache.claim_free free]
    exact guarded.listed other t ((has_enter_iff guarded.tidy free).1 has)

theorem Guarded.leave (guarded : Guarded s root q) (bound : q.cache.slotOf? key = some slot)
    (fits : ∀ t, made = some t → Fits s root key t) : Guarded s root (q.leave slot made) where
  tidy := guarded.tidy.publish
  claimed := guarded.claimed
  fits other t has := by
    rcases (has_leave_iff guarded.tidy bound).1 has with ⟨rfl, isMade⟩ | ⟨-, before⟩
    · exact fits t isMade
    · exact guarded.fits other t before
  bare := guarded.bare
  listed other t has := by
    show t ∈ q.cache.types ++ made.toList
    rcases (has_leave_iff guarded.tidy bound).1 has with ⟨-, isMade⟩ | ⟨-, before⟩
    · exact List.mem_append_right _ (Option.mem_toList.2 isMade)
    · exact List.mem_append_left _ (guarded.listed other t before)

theorem Guarded.abandon (guarded : Guarded s root q) (bound : q.cache.slotOf? key = some slot)
    (other : key ≠ s.interfaceKey root) : Guarded s root (q.abandon key slot e) where
  tidy := guarded.tidy.release bound
  claimed := by
    obtain ⟨slot', claimed⟩ := guarded.claimed
    exact ⟨slot', (slotOf?_abandon_of_ne guarded.tidy bound other.symm).trans claimed⟩
  fits key' t has := guarded.fits key' t ((has_abandon_iff guarded.tidy bound).1 has).2
  bare key' isFluent := by
    have free := guarded.bare key' isFluent
    have ne : key' ≠ key := by
      rintro rfl
      rw [free] at bound
      cases bound
    rw [slotOf?_abandon_of_ne guarded.tidy bound ne]
    exact free
  listed key' t has := guarded.listed key' t ((has_abandon_iff guarded.tidy bound).1 has).2

section

variable (guards : Guards s root (p.enter key) q) (before : Guarded s root p)
  (free : p.cache.slotOf? key = none)

include guards before free

theorem Guards.has_of_enter {t : SynthesizedType} (has : p.Has other t) :
    other ≠ key ∧ q.Has other t := by
  have bound : p.Bound other := Progress.Made.bound ⟨t, has⟩
  exact ⟨bound.ne free, guards.kept other t ((has_enter_iff before.tidy free).2 has)⟩

theorem Guards.leave (fits : ∀ t, made = some t → Fits s root key t) :
    Guards s root p (q.leave p.cache.slots.length made) where
  toGrows := guards.toGrows.leave free
  guarded := guards.guarded.leave (guards.slots key _ (slotOf?_enter_self free)) fits
  kept other t has := by
    have bound := guards.slots key _ (slotOf?_enter_self free)
    exact (has_leave_iff guards.guarded.tidy bound).2 (Or.inr (guards.has_of_enter before free has))

theorem Guards.abandon : Guards s root p (q.abandon key p.cache.slots.length e) where
  toGrows := guards.toGrows.abandon free guards.guarded.tidy
  guarded := guards.guarded.abandon (guards.slots key _ (slotOf?_enter_self free))
    (before.claimed.ne free).symm
  kept other t has := by
    have bound := guards.slots key _ (slotOf?_enter_self free)
    exact (has_abandon_iff guards.guarded.tidy bound).2 (guards.has_of_enter before free has)

end

/-- A key that is bound is not produced again, and a type that is found is the one it has. -/
theorem ends_memoize_bound {produce : Synth (Option SynthesizedType)} (bound : p.Bound key) :
    Ends (memoize key produce) p (fun made q => q = p ∧ ∀ t, made = some t → p.Has key t)
      (fun _ q => q = p) := by
  cases stopped : p.cache.cancelled with
  | true => exact ends_of_error (memoize_cancelled stopped) rfl
  | false =>
    obtain ⟨slot, bound⟩ := bound
    have asked : Cache.getOrCreate 0 key (outcomeOf produce) { p with scope := key :: p.scope } =
        ((p.cache.look 0 key slot).final key, { p with scope := key :: p.scope }) :=
      getOrCreate_bound bound
    have whole := memoize_of_answer stopped asked
    cases answer : (p.cache.look 0 key slot).final key with
    | found result =>
      rw [answer] at whole
      refine ends_of_ok whole ⟨rfl, ?_⟩
      intro t isMade
      obtain ⟨⟨serial, type⟩, rfl, rfl⟩ := Option.map_eq_some_iff.1 isMade
      exact ⟨serial, (Cache.stateOf?_of_slot bound).trans (complete_of_look answer)⟩
    | failed e =>
      rw [answer] at whole
      exact ends_of_error whole rfl
    | unwound =>
      rw [answer] at whole
      exact ends_of_error whole rfl

/-! ### Guarded runs -/

/-- However the computation ends, progress stays guarded, and results are of the kind. -/
def Keeps {α : Type} (s : Synthesizer) (root : SourceType) (x : Synth α) (post : α → Prop) : Prop :=
  ∀ p, Guarded s root p →
    Ends x p (fun a q => Guards s root p q ∧ post a) (fun _ q => Guards s root p q)

section

variable {α β : Type} {x : Synth α} {post : α → Prop} {last : β → Prop}

theorem keeps_pure {a : α} (h : post a) : Keeps s root (pure a) post :=
  fun _ guarded => ends_pure ⟨Guards.refl guarded, h⟩

theorem keeps_none {fits : α → Prop} :
    Keeps s root (pure none : Synth (Option α)) fun made => ∀ a, made = some a → fits a := by
  refine keeps_pure ?_
  rintro a same
  cases same

theorem keeps_throw : Keeps s root (throw e : Synth α) post :=
  fun _ guarded => ends_throw (Guards.refl guarded)

theorem keeps_lift {x : Except SynthesisError α} (results : ∀ a, x = .ok a → post a) :
    Keeps s root (liftM x : Synth α) post := by
  cases x with
  | ok a => exact keeps_pure (results a rfl)
  | error e => exact keeps_throw

theorem Keeps.bind {f : α → Synth β} (h : Keeps s root x post)
    (next : ∀ a, post a → Keeps s root (f a) last) : Keeps s root (x >>= f) last := by
  intro p guarded
  refine (h p guarded).bind ?_ fun _ _ guards => guards
  rintro a q ⟨guards, isPost⟩
  refine (next a isPost q guards.guarded).mono ?_ fun _ _ rest => guards.trans rest
  rintro b r ⟨rest, isLast⟩
  exact ⟨guards.trans rest, isLast⟩

theorem Keeps.attempt (h : Keeps s root x post) :
    Keeps s root (Synthesis.attempt x) fun _ => True := by
  intro p guarded
  rcases run : x p with ⟨e | a, q⟩
  · exact ends_of_ok (attempt_run run) ⟨(h p guarded).fault run, trivial⟩
  · exact ends_of_ok (attempt_run run) ⟨((h p guarded).result run).1, trivial⟩

theorem keeps_inScope : Keeps s root (inScope key) fun _ => True :=
  fun p guarded => ends_of_ok (t := p) rfl ⟨Guards.refl guarded, trivial⟩

end

section

variable {produce : Synth (Option SynthesizedType)} (wanted : key.kind ≠ .fluent)
  (run : key ≠ s.interfaceKey root →
    Keeps s root produce fun made => ∀ t, made = some t → Fits s root key t)

include wanted run

theorem Guarded.ends_memoize (guarded : Guarded s root p) : Ends (memoize key produce) p
    (fun made q => Guards s root p q ∧ ∀ t, made = some t → Fits s root key t ∧ q.Has key t)
    (fun _ q => Guards s root p q) := by
  cases free : p.cache.slotOf? key with
  | some slot =>
    refine (ends_memoize_bound ⟨slot, free⟩).mono ?_ ?_
    · rintro made _ ⟨rfl, has⟩
      exact ⟨Guards.refl guarded, fun t isMade => ⟨guarded.fits key t (has t isMade), has t isMade⟩⟩
    · rintro e _ rfl
      exact Guards.refl guarded
  | none =>
    cases stopped : p.cache.cancelled with
    | true => exact ends_of_error (memoize_cancelled stopped) (Guards.refl guarded)
    | false =>
      have other : key ≠ s.interfaceKey root := (guarded.claimed.ne free).symm
      refine Synthesis.ends_memoize stopped free
        ((run other _ (guarded.enter free wanted)).mono ?_ ?_)
      · rintro made q ⟨guards, fits⟩
        have bound := guards.slots key _ (slotOf?_enter_self free)
        refine ⟨guards.leave guarded free fits, fun t isMade => ⟨fits t isMade, ?_⟩⟩
        exact (has_leave_iff guards.guarded.tidy bound).2 (Or.inl ⟨rfl, isMade⟩)
      · rintro e q guards
        exact guards.abandon guarded free

theorem keeps_memoize :
    Keeps s root (memoize key produce) fun made => ∀ t, made = some t → Fits s root key t := by
  intro p guarded
  refine (guarded.ends_memoize wanted run).mono ?_ fun _ _ guards => guards
  rintro made q ⟨guards, found⟩
  exact ⟨guards, fun t isMade => (found t isMade).1⟩

end

namespace Synthesizer

/-! ### Members -/

section

variable {dereference : TypeRef → Synth TypeRef}
  (find : ∀ type, Keeps s root (dereference type) fun _ => True)

include find

theorem keeps_resolveMember (m : Member) :
    Keeps s root (s.resolveMember dereference u m) fun n => untyped n = untyped m := by
  unfold resolveMember
  refine (find m.type).attempt.bind ?_
  rintro (e | type) -
  · dsimp only
    split
    · exact keeps_throw
    · exact keeps_pure rfl
  · exact keeps_pure rfl

theorem keeps_mapM_resolveMember (ms : List Member) :
    Keeps s root (ms.mapM (s.resolveMember dereference u)) fun found =>
      found.map untyped = ms.map untyped := by
  induction ms with
  | nil => exact keeps_pure rfl
  | cons m ms ih =>
    rw [List.mapM_cons]
    refine (keeps_resolveMember find m).bind fun first isFirst => ?_
    refine ih.bind fun others areOthers => keeps_pure ?_
    rw [List.map_cons, List.map_cons, isFirst, areOthers]

end

/-- The function shows the eligible members of source types. -/
def Shows (s : Synthesizer) (root : SourceType) (members : MemberResolver) : Prop :=
  ∀ u, Keeps s root (members u) fun found => ∀ ms, found = some ms → Retyped s u ms

theorem shows_resolveMembers {dereference : TypeRef → Synth TypeRef}
    (find : ∀ type, Keeps s root (dereference type) fun _ => True) :
    Shows s root (s.resolveMembers dereference) := by
  intro u
  have extracts : Keeps s root (liftM (s.catalog.extract u) : Synth (List Member)) fun declared =>
      s.catalog.extract u = .ok declared := keeps_lift fun _ extracted => extracted
  unfold resolveMembers
  refine extracts.bind fun declared extracted => ?_
  split
  · exact keeps_none
  · split
    · refine keeps_pure ?_
      rintro ms same
      cases same
      exact ⟨declared, extracted, rfl⟩
    · refine (keeps_mapM_resolveMember find declared).bind fun found same => keeps_pure ?_
      rintro ms isFound
      cases isFound
      exact ⟨declared, extracted, same⟩

/-! ### Types of source types -/

section

variable {members : MemberResolver} {i : TypeName} (shows : Shows s root members)

include shows

theorem keeps_interfaceVia (u : SourceType) : Keeps s root (s.interfaceVia memoize members u) fun made =>
    ∀ t, made = some t → Fits s root (s.interfaceKey u) t := by
  unfold interfaceVia
  refine keeps_memoize nofun fun other => (shows u).bind ?_
  rintro (_ | ms) -
  · exact keeps_none
  · refine keeps_pure ?_
    rintro t -
    exact ⟨fun same => absurd same other,
      fun same => absurd (congrArg CacheKey.kind same) nofun⟩

theorem ends_proxyVia (guarded : Guarded s root p) (own : u.canonical = root.canonical → u = root)
    (isInterface : u = root → i = interfaceName s.options root.name) :
    Ends (s.proxyVia memoize members u (some i)) p
      (fun made q => Guards s root p q ∧
        ∀ t, made = some t → Fits s root (s.proxyKey u) t ∧ q.Has (s.proxyKey u) t)
      (fun _ q => Guards s root p q) := by
  unfold proxyVia
  refine guarded.ends_memoize nofun fun _ => (shows u).bind ?_
  rintro (_ | ms) retyped
  · exact keeps_none
  · have shaped : Keeps s root (liftM (proxyType (proxyName s.options u.name) u ms (some i)) :
        Synth SynthesizedType) fun t => t = proxyOf (proxyName s.options u.name) u ms (some i) := by
      rw [proxyType_eq]
      exact keeps_pure rfl
    refine shaped.bind fun t isProxy => keeps_pure ?_
    rintro _ same
    cases same
    refine ⟨fun same => absurd (congrArg CacheKey.kind same) nofun, fun same => ?_⟩
    -- the names of proxies tell source types apart
    obtain rfl := own (canonical_eq_of_proxyName (congrArg CacheKey.name same))
    exact ⟨ms, retyped ms rfl, isInterface rfl ▸ isProxy⟩

theorem keeps_ensureInterfaceVia (u : SourceType) :
    Keeps s root (s.ensureInterfaceVia memoize members u) fun i =>
      u = root → i = interfaceName s.options root.name := by
  unfold ensureInterfaceVia
  refine keeps_inScope.bind fun isIn _ => ?_
  split
  · refine keeps_pure ?_
    rintro rfl
    rfl
  · refine (keeps_interfaceVia shows u).bind ?_
    rintro (_ | t) fits
    · exact keeps_throw
    · refine keeps_pure ?_
      rintro rfl
      exact (fits t rfl).interface rfl

theorem keeps_ensureProxyVia (own : u.canonical = root.canonical → u = root)
    (isInterface : u = root → i = interfaceName s.options root.name) :
    Keeps s root (s.ensureProxyVia memoize members u i) fun _ => True := by
  unfold ensureProxyVia
  refine keeps_inScope.bind fun isIn _ => ?_
  split
  · exact keeps_pure trivial
  · have makes : Keeps s root (s.proxyVia memoize members u (some i)) fun _ => True := by
      intro p guarded
      refine (ends_proxyVia shows guarded own isInterface).mono ?_ fun _ _ guards => guards
      exact fun _ _ made => ⟨made.1, trivial⟩
    exact makes.bind fun _ _ => keeps_pure trivial

theorem keeps_referenceInterfaceVia (own : u.canonical = root.canonical → u = root) :
    Keeps s root (s.referenceInterfaceVia memoize members u) fun _ => True := by
  unfold referenceInterfaceVia
  refine (keeps_ensureInterfaceVia shows u).bind fun i isInterface => ?_
  exact (keeps_ensureProxyVia shows own isInterface).bind fun _ _ => keeps_pure trivial

omit shows in
theorem keeps_cloneReference (clone : Option SynthesizedType) :
    Keeps s root (cloneReference u clone) fun _ => True := by
  cases clone with
  | none => exact keeps_throw
  | some t => exact keeps_pure trivial

omit shows in
/-- A clone has no key of the root. -/
theorem fits_clone {kind : ProductKind} {name : String} (t : SynthesizedType)
    (isClone : kind = .enumClone ∨ kind = .structClone) : Fits s root ⟨kind, name⟩ t := by
  rcases isClone with rfl | rfl <;>
    exact ⟨fun same => absurd (congrArg CacheKey.kind same) nofun,
      fun same => absurd (congrArg CacheKey.kind same) nofun⟩

omit shows in
theorem keeps_cloneEnumVia (underlying : Primitive) (literals : List Literal) :
    Keeps s root (cloneEnumVia memoize u underlying literals) fun _ => True := by
  unfold cloneEnumVia
  refine (keeps_memoize (by simp) fun _ => keeps_pure ?_).bind fun clone _ => keeps_cloneReference clone
  exact fun t _ => fits_clone t (Or.inl rfl)

theorem keeps_cloneStructVia (own : u.canonical = root.canonical → u = root) :
    Keeps s root (s.cloneStructVia memoize members u) fun _ => True := by
  unfold cloneStructVia
  refine (keeps_ensureInterfaceVia shows u).bind fun i isInterface => ?_
  refine (keeps_ensureProxyVia shows own isInterface).bind fun _ _ => ?_
  refine keeps_inScope.bind fun isIn _ => ?_
  split
  · exact keeps_pure trivial
  · refine (keeps_memoize (by simp) fun _ => (shows u).bind ?_).bind
      fun clone _ => keeps_cloneReference clone
    rintro (_ | ms) -
    · exact keeps_none
    · have shaped : Keeps s root (liftM (structType u ms) : Synth SynthesizedType) fun _ => True :=
        keeps_lift fun _ _ => trivial
      exact shaped.bind fun t _ => keeps_pure fun t _ => fits_clone t (Or.inr rfl)

theorem keeps_replaceNamedVia (unique : ∀ u, s.catalog.get? root.name = some u → u = root)
    (name : TypeName) : Keeps s root (s.replaceNamedVia memoize members name) fun _ => True := by
  have requires : Keeps s root (liftM (s.catalog.require name) : Synth SourceType) fun u =>
      s.catalog.get? name = some u :=
    keeps_lift fun _ required => SourceCatalog.require_eq_ok_iff.1 required
  unfold replaceNamedVia
  refine requires.bind fun u found => ?_
  have own (same : u.canonical = root.canonical) : u = root := by
    refine unique u ?_
    have known : s.catalog.getByName? u.canonical = some u := SourceCatalog.known_of_get? found
    rw [same] at known
    exact known
  split
  · exact keeps_cloneEnumVia _ _
  · split
    · exact keeps_pure trivial
    · split
      · exact keeps_cloneStructVia shows own
      · exact keeps_referenceInterfaceVia shows own

end

/-! ### Types of members -/

section

variable {named : TypeName → Synth TypeRef}

mutual

theorem keeps_replaceType (find : ∀ name, Keeps s root (named name) fun _ => True)
    (type : TypeRef) : Keeps s root (s.replaceType named type) fun _ => True := by
  cases type with
  | named name =>
    unfold replaceType
    exact find name
  | array element =>
    unfold replaceType
    exact (keeps_replaceType find element).bind fun _ _ => keeps_pure trivial
  | generic definition args =>
    unfold replaceType
    split
    · exact (keeps_replaceTypes find args).bind fun _ _ => keeps_pure trivial
    · exact keeps_throw
  | primitive | string | object | synthesized =>
    unfold replaceType
    exact keeps_pure trivial

theorem keeps_replaceTypes (find : ∀ name, Keeps s root (named name) fun _ => True)
    (types : List TypeRef) : Keeps s root (s.replaceTypes named types) fun _ => True := by
  cases types with
  | nil =>
    unfold replaceTypes
    exact keeps_pure trivial
  | cons type rest =>
    unfold replaceTypes
    refine (keeps_replaceType find type).bind fun _ _ => ?_
    exact (keeps_replaceTypes find rest).bind fun _ _ => keeps_pure trivial

end

end

section

variable (unique : ∀ u, s.catalog.get? root.name = some u → u = root)

include unique

theorem keeps_dereferenceNamedVia (fuel : Nat) (name : TypeName) :
    Keeps s root (s.dereferenceNamedVia memoize fuel name) fun _ => True := by
  induction fuel generalizing name with
  | zero => exact keeps_throw
  | succ fuel ih =>
    exact keeps_replaceNamedVia (shows_resolveMembers (keeps_replaceType ih)) unique name

theorem shows_members : Shows s root s.members :=
  shows_resolveMembers (keeps_replaceType (keeps_dereferenceNamedVia unique s.nestingBound))

end

/-! ### The wrappers of the root -/

/-- What the first synthesis of a session completes for its source type. -/
structure Completes (s : Synthesizer) (root : SourceType) (session : Session) (w : Wrappers)
    (shown members : List Member) : Prop where
  retyped : Retyped s root members
  interface : w.interface = interfaceType (s.productName root .interface) root shown
  proxy : w.proxy = proxyOf (s.productName root .proxy) root members
    (some (s.productName root .interface))
  fluent : w.fluent = fluentOf (s.fluentContext root) w.proxy root.options
  unambiguous : Unambiguous ((s.fluentContext root).wantedOf root.options members)
  listed : ∀ t ∈ [w.interface, w.proxy, w.fluent], t ∈ session.types

theorem guarded_enter_start (s : Synthesizer) (root : SourceType) (timeout : UInt64) :
    Guarded s root (Progress.enter ⟨Session.start timeout, []⟩ (s.interfaceKey root)) := by
  have tidy : (Cache.empty timeout).Tidy := Cache.tidy_empty timeout
  have free : (Cache.empty timeout).slotOf? (s.interfaceKey root) = none := rfl
  have nothing (key : CacheKey) (t : SynthesizedType) :
      ¬ (Progress.enter ⟨Session.start timeout, []⟩ (s.interfaceKey root)).Has key t := by
    intro has
    obtain ⟨serial, state⟩ :=
      (has_enter_iff (p := ⟨Session.start timeout, []⟩) tidy free).1 has
    cases state
  constructor
  case tidy => exact tidy.claim free
  case claimed => exact ⟨_, slotOf?_enter_self (p := ⟨Session.start timeout, []⟩) free⟩
  case fits => exact fun key t has => absurd has (nothing key t)
  case bare =>
    intro key isFluent
    have ne : key ≠ s.interfaceKey root := by
      rintro rfl
      cases isFluent
    exact slotOf?_enter_of_ne (p := ⟨Session.start timeout, []⟩) free ne
  case listed => exact fun key t has => absurd has (nothing key t)

section

variable (unique : ∀ u, s.catalog.get? root.name = some u → u = root)

include unique

theorem ends_interface_start (timeout : UInt64) :
    Ends (s.interface root) ⟨Session.start timeout, []⟩
      (fun made q => Guarded s root q ∧ ∀ t, made = some t → q.Has (s.interfaceKey root) t ∧
        ∃ shown, t = interfaceType (s.productName root .interface) root shown)
      (fun _ _ => True) := by
  have guarded := guarded_enter_start s root timeout
  have run := shows_members unique root _ guarded
  unfold interface interfaceVia
  refine ends_memoize rfl rfl ?_
  refine run.bind ?_ fun _ _ _ => trivial
  rintro found q ⟨guards, -⟩
  have bound := guards.slots _ _ (slotOf?_enter_self (p := ⟨Session.start timeout, []⟩) rfl)
  cases found with
  | none =>
    refine ends_pure ⟨guards.guarded.leave bound ?_, ?_⟩ <;>
    · rintro t same
      cases same
  | some shown =>
    have fits : ∀ t, some (interfaceType (interfaceName s.options root.name) root shown) = some t →
        Fits s root (s.interfaceKey root) t := by
      rintro _ same
      cases same
      exact ⟨fun _ => rfl, fun same => absurd (congrArg CacheKey.kind same) nofun⟩
    refine ends_pure ⟨guards.guarded.leave bound fits, ?_⟩
    rintro t same
    exact ⟨(has_leave_iff guards.guarded.tidy bound).2 (Or.inl ⟨rfl, same⟩), shown,
      (Option.some.inj same).symm⟩

omit unique in
theorem ends_fluent_of_free {proxy interface : SynthesizedType} {options : TypeOptions}
    (free : p.cache.slotOf? ⟨.fluent, (fluentName s.options proxy.name).canonical⟩ = none) :
    Ends (s.fluent proxy interface options) p
      (fun made q => (∀ t ∈ p.cache.types, t ∈ q.cache.types) ∧
        ∀ t, made = some t → t ∈ q.cache.types ∧
          fluentType ⟨fluentName s.options proxy.name, interface.name, proxy.name,
            s.options.objectProperty⟩ proxy options = .ok t)
      (fun _ _ => True) := by
  unfold fluent
  cases stopped : p.cache.cancelled with
  | true => exact ends_of_error (memoize_cancelled stopped) trivial
  | false =>
    refine ends_memoize stopped free ?_
    have types : (p.enter ⟨.fluent, (fluentName s.options proxy.name).canonical⟩).cache.types =
        p.cache.types := by
      show (p.cache.claim 0 _).1.types = _
      rw [Cache.claim_free free]
    split
    · refine ends_pure ⟨fun t isIn => ?_, ?_⟩
      · exact List.mem_append_left _ (types ▸ isIn)
      · rintro t same
        cases same
    · have shape (q : Progress) : Ends (liftM (fluentType ⟨fluentName s.options proxy.name,
          interface.name, proxy.name, s.options.objectProperty⟩ proxy options) :
          Synth SynthesizedType) q (fun t r => r = q ∧ fluentType ⟨fluentName s.options proxy.name,
            interface.name, proxy.name, s.options.objectProperty⟩ proxy options = .ok t)
          (fun _ _ => True) := ends_lift (fun _ made => ⟨rfl, made⟩) fun _ _ => trivial
      refine (shape _).bind ?_ fun _ _ _ => trivial
      rintro t q ⟨rfl, made⟩
      refine ends_pure ⟨fun t isIn => ?_, ?_⟩
      · exact List.mem_append_left _ (types ▸ isIn)
      · rintro _ same
        cases same
        exact ⟨List.mem_append_right _ List.mem_cons_self, made⟩

theorem ends_synthesize_start (timeout : UInt64) :
    Ends (s.synthesize root) ⟨Session.start timeout, []⟩
      (fun made q => ∀ w, made = some w → ∃ shown members,
        Completes s root q.session w shown members)
      (fun _ _ => True) := by
  unfold synthesize
  refine (ends_interface_start unique timeout).bind ?_ fun _ _ _ => trivial
  rintro (_ | interface) p ⟨guarded, made⟩
  · refine ends_pure ?_
    rintro w same
    cases same
  obtain ⟨hasInterface, shown, rfl⟩ := made interface rfl
  have proxies := ends_proxyVia (u := root) (i := interfaceName s.options root.name)
    (shows_members unique) guarded (fun _ => rfl) fun _ => rfl
  refine proxies.bind ?_ fun _ _ _ => trivial
  rintro (_ | proxy) q ⟨guards, made⟩
  · refine ends_pure ?_
    rintro w same
    cases same
  obtain ⟨fits, hasProxy⟩ := made proxy rfl
  obtain ⟨members, retyped, isProxy⟩ := fits.proxy rfl
  have free := guards.guarded.bare ⟨.fluent, (fluentName s.options proxy.name).canonical⟩ rfl
  refine (ends_fluent_of_free free).bind ?_ fun _ _ _ => trivial
  rintro (_ | fluent) r ⟨types, made⟩
  · refine ends_pure ?_
    rintro w same
    cases same
  obtain ⟨isListed, shape⟩ := made fluent rfl
  refine ends_pure ?_
  rintro _ same
  cases same
  refine ⟨shown, members, ?_⟩
  subst isProxy
  obtain ⟨isFluent, unambiguous⟩ := fluentType_eq_ok_iff.1 shape
  constructor
  case retyped => exact retyped
  case interface => rfl
  case proxy => rfl
  case fluent => exact isFluent
  case unambiguous => exact unambiguous
  case listed =>
    have interfaceListed := types _ (guards.guarded.listed _ _ (guards.kept _ _ hasInterface))
    have proxyListed := types _ (guards.guarded.listed _ _ hasProxy)
    simp only [List.forall_mem_cons]
    exact ⟨interfaceListed, proxyListed, isListed, List.forall_mem_nil _⟩

end

end Synthesizer

end FluentWrappers.Synthesis
