import FluentWrappers.Proofs.Synthesis.First
import FluentWrappers.Proofs.Synthesis.History
import FluentWrappers.Synthesis.Synthesizer

/-!
# Answers in any session

Whatever a session went through, a type that is found under a key for a source type has the name that
the key stands for, and it was made of members if there are any to be made of. So what is found for a
type is what stands for it in the table, also if the session is cancelled at any time on the way.
-/

namespace FluentWrappers.Synthesis

open Fallible

/-! ### Types that suit their keys -/

/-- The type has the name of the product that the key is for. -/
def Suits (s : Synthesizer) (key : CacheKey) (t : SynthesizedType) : Prop :=
  ∀ kind u, kind ≠ .fluent → s.catalog.Known u → key = s.keyOf kind u →
    t.name = s.productName u kind ∧ (kind.OfMembers → s.hasMembers u = true)

structure Suited (s : Synthesizer) (p : Progress) : Prop where
  tidy : p.cache.Tidy
  suits : ∀ key t, p.Has key t → Suits s key t

/-- From one progress to a suited one that keeps the scope and the slots. -/
structure Suiting (s : Synthesizer) (p q : Progress) : Prop extends Grows p q where
  suited : Suited s q

variable {s : Synthesizer} {p q r : Progress} {key : CacheKey} {scope : List CacheKey} {slot : Nat}
  {made : Option SynthesizedType} {e : SynthesisError} {u : SourceType} {kind : ProductKind}
  {t : SynthesizedType}

theorem suits_of_keyOf (apart : s.Apart) (known : s.catalog.Known u)
    (name : t.name = s.productName u kind) (some : kind.OfMembers → s.hasMembers u = true) :
    Suits s (s.keyOf kind u) t := by
  intro kind' v _ known' same
  obtain ⟨rfl, rfl⟩ := keyOf_inj apart known known' same
  exact ⟨name, some⟩

theorem suits_of_fluent (isFluent : key.kind = .fluent) : Suits s key t := by
  rintro kind u other - rfl
  exact absurd isFluent other

theorem Suiting.refl (suited : Suited s p) : Suiting s p p := ⟨Grows.refl p, suited⟩

theorem Suiting.trans (first : Suiting s p q) (second : Suiting s q r) : Suiting s p r :=
  ⟨first.toGrows.trans second.toGrows, second.suited⟩

theorem suited_start (s : Synthesizer) (timeout : UInt64) :
    Suited s ⟨Session.start timeout, []⟩ where
  tidy := Cache.tidy_empty timeout
  suits := by
    rintro key t ⟨serial, state⟩
    cases state

theorem Suited.cancel (suited : Suited s p) :
    Suited s { p with session := p.session.cancel } where
  tidy := ⟨⟨suited.tidy.within, suited.tidy.apart⟩, suited.tidy.once⟩
  suits := suited.suits

theorem Suited.enter (suited : Suited s p) (free : p.cache.slotOf? key = none) :
    Suited s (p.enter key) where
  tidy := suited.tidy.claim free
  suits other t has := suited.suits other t ((has_enter_iff suited.tidy free).1 has)

section

variable (suiting : Suiting s (p.enter key) q) (free : p.cache.slotOf? key = none)

include suiting free

theorem Suiting.leave (suits : ∀ t, made = some t → Suits s key t) :
    Suiting s p (q.leave p.cache.slots.length made) where
  toGrows := suiting.toGrows.leave free
  suited := by
    have bound := suiting.slots key _ (slotOf?_enter_self free)
    refine ⟨suiting.suited.tidy.publish, fun other t has => ?_⟩
    rcases (has_leave_iff suiting.suited.tidy bound).1 has with ⟨rfl, isMade⟩ | ⟨-, before⟩
    · exact suits t isMade
    · exact suiting.suited.suits other t before

theorem Suiting.abandon : Suiting s p (q.abandon key p.cache.slots.length e) where
  toGrows := suiting.toGrows.abandon free suiting.suited.tidy
  suited := by
    have bound := suiting.slots key _ (slotOf?_enter_self free)
    refine ⟨suiting.suited.tidy.release bound, fun other t has => ?_⟩
    exact suiting.suited.suits other t ((has_abandon_iff suiting.suited.tidy bound).1 has).2

end

/-! ### Computations with known answers -/

/-- With the scope and from suited progress the computation has only results of the kind. -/
def Answers {α : Type} (s : Synthesizer) (scope : List CacheKey) (x : Synth α) (post : α → Prop) :
    Prop :=
  ∀ p, Suited s p → p.scope = scope →
    Ends x p (fun a q => Suiting s p q ∧ post a) (fun _ q => Suiting s p q)

section

variable {α β : Type} {x : Synth α} {post : α → Prop} {last : β → Prop}

theorem answers_pure {a : α} (h : post a) : Answers s scope (pure a) post :=
  fun _ suited _ => ends_pure ⟨Suiting.refl suited, h⟩

theorem answers_throw : Answers s scope (throw e : Synth α) post :=
  fun _ suited _ => ends_throw (Suiting.refl suited)

theorem answers_lift {x : Except SynthesisError α} (results : ∀ a, x = .ok a → post a) :
    Answers s scope (liftM x : Synth α) post := by
  cases x with
  | ok a => exact answers_pure (results a rfl)
  | error e => exact answers_throw

theorem Answers.bind {f : α → Synth β} (h : Answers s scope x post)
    (next : ∀ a, post a → Answers s scope (f a) last) : Answers s scope (x >>= f) last := by
  rintro p suited rfl
  refine (h p suited rfl).bind ?_ fun _ _ suiting => suiting
  rintro a q ⟨suiting, isPost⟩
  refine (next a isPost q suiting.suited suiting.scope).mono ?_ fun _ _ rest => suiting.trans rest
  rintro b r ⟨rest, isLast⟩
  exact ⟨suiting.trans rest, isLast⟩

theorem Answers.mono {post' : α → Prop} (h : Answers s scope x post)
    (results : ∀ a, post a → post' a) : Answers s scope x post' := by
  intro p suited within
  refine (h p suited within).mono ?_ fun _ _ suiting => suiting
  exact fun a q ⟨suiting, isPost⟩ => ⟨suiting, results a isPost⟩

theorem Answers.attempt (h : Answers s scope x post) :
    Answers s scope (Synthesis.attempt x) fun _ => True := by
  intro p suited within
  rcases run : x p with ⟨e | a, q⟩
  · exact ends_of_ok (attempt_run run) ⟨(h p suited within).fault run, trivial⟩
  · exact ends_of_ok (attempt_run run) ⟨((h p suited within).result run).1, trivial⟩

theorem answers_inScope {inside outside : Synth α} (pending : key ∈ scope → Answers s scope inside post)
    (idle : key ∉ scope → Answers s scope outside post) :
    Answers s scope (inScope key >>= fun isPending => if isPending = true then inside else outside)
      post := by
  rintro p suited rfl
  exact Synthesizer.ends_inScope (fun isIn => pending isIn p suited rfl)
    fun isIdle => idle isIdle p suited rfl

end

/-! ### Memos -/

/-- The type of a key suits it, if what is produced for it does. -/
def Memo.Answers (memo : Memo) (s : Synthesizer) : Prop :=
  ∀ scope key produce,
    Synthesis.Answers s (key :: scope) produce (fun made => ∀ t, made = some t → Suits s key t) →
    Synthesis.Answers s scope (memo key produce) fun made => ∀ t, made = some t → Suits s key t

theorem answers_memoize (s : Synthesizer) : Memo.Answers memoize s := by
  rintro scope key produce run p suited rfl
  cases free : p.cache.slotOf? key with
  | some slot =>
    -- whoever made the type, it was suited to its key when it came in
    refine (ends_memoize_bound ⟨slot, free⟩).mono ?_ ?_
    · rintro made _ ⟨rfl, has⟩
      exact ⟨Suiting.refl suited, fun t isMade => suited.suits key t (has t isMade)⟩
    · rintro e _ rfl
      exact Suiting.refl suited
  | none =>
    cases stopped : p.cache.cancelled with
    | true => exact ends_of_error (memoize_cancelled stopped) (Suiting.refl suited)
    | false =>
      refine ends_memoize stopped free ((run (p.enter key) (suited.enter free) rfl).mono ?_ ?_)
      · rintro made q ⟨suiting, suits⟩
        exact ⟨suiting.leave free suits, suits⟩
      · exact fun e q suiting => suiting.abandon free

/-- A session may be cancelled whenever the type of a key is asked for. -/
theorem answers_memoizeAmid (s : Synthesizer) (interruption : Interruption) :
    (memoizeAmid interruption).Answers s := by
  intro scope key produce run
  refine Answers.bind (?_ : Answers s scope _ fun _ => True) fun _ _ =>
    answers_memoize s scope key produce run
  intro p suited within
  show Suiting s p (if interruption key p then { p with session := p.session.cancel } else p) ∧ True
  split
  · exact ⟨⟨⟨rfl, fun _ _ bound => bound⟩, suited.cancel⟩, trivial⟩
  · exact ⟨Suiting.refl suited, trivial⟩

namespace Synthesizer

/-! ### Members -/

/-- The scope holds keys of source types with members only. -/
def OwnsAll (s : Synthesizer) (scope : List CacheKey) : Prop := ∀ key ∈ scope, s.Owned key

/-- With a key of a known source type in the scope the function finds its members, if there are any. -/
def Lists (s : Synthesizer) (scope : List CacheKey) (members : MemberResolver) : Prop :=
  ∀ u key, s.catalog.Known u → key ∈ s.memberKeys u →
    Answers s (key :: scope) (members u) fun found => ∀ ms, found = some ms → s.hasMembers u = true

theorem OwnsAll.enter (owns : s.OwnsAll scope) (known : s.catalog.Known u)
    (isKey : key ∈ s.memberKeys u) (some : s.hasMembers u = true) : s.OwnsAll (key :: scope) :=
  List.forall_mem_cons.2 ⟨owned_of_hasMembers known some isKey, owns⟩

section

variable {dereference : TypeRef → Synth TypeRef} {found : TypeRef → TypeRef → Prop}

theorem answers_resolveMember
    (finds : ∀ type, Answers s scope (dereference type) (found type)) (m : Member) :
    Answers s scope (s.resolveMember dereference u m) fun _ => True := by
  unfold resolveMember
  refine (finds m.type).attempt.bind ?_
  rintro (e | type) -
  · dsimp only
    split
    · exact answers_throw
    · exact answers_pure trivial
  · exact answers_pure trivial

theorem answers_mapM_resolveMember
    (finds : ∀ type, Answers s scope (dereference type) (found type)) (ms : List Member) :
    Answers s scope (ms.mapM (s.resolveMember dereference u)) fun _ => True := by
  induction ms with
  | nil => exact answers_pure trivial
  | cons m ms ih =>
    rw [List.mapM_cons]
    refine (answers_resolveMember finds m).bind fun _ _ => ?_
    exact ih.bind fun _ _ => answers_pure trivial

theorem lists_resolveMembers (owns : s.OwnsAll scope)
    (finds : ∀ scope, s.OwnsAll scope → ∀ type, Answers s scope (dereference type) (found type)) :
    s.Lists scope (s.resolveMembers dereference) := by
  intro u key known isKey
  have extracts : Answers s (key :: scope) (liftM (s.catalog.extract u) : Synth (List Member))
      fun declared => s.catalog.extract u = .ok declared := answers_lift fun _ extracted => extracted
  unfold resolveMembers
  refine extracts.bind fun declared extracted => ?_
  split
  · exact answers_pure nofun
  case isFalse isSome =>
    have some := hasMembers_of_extract extracted (by simpa using isSome)
    split
    · exact answers_pure fun _ _ => some
    · have finds := finds _ (owns.enter known isKey some)
      exact (answers_mapM_resolveMember finds declared).bind fun _ _ => answers_pure fun _ _ => some

end

/-! ### Interfaces, proxies and clones -/

section

variable {memo : Memo} (answers : memo.Answers s) (apart : s.Apart)

include answers

theorem answers_fluentVia (proxy interface : SynthesizedType) (options : TypeOptions) :
    Answers s scope (s.fluentVia memo proxy interface options) fun _ => True := by
  unfold fluentVia
  refine (answers scope _ _ ?_).mono fun _ _ => trivial
  have suits (made : Option SynthesizedType) : ∀ t, made = some t →
      Suits s ⟨.fluent, (fluentName s.options proxy.name).canonical⟩ t :=
    fun _ _ => suits_of_fluent rfl
  split
  · exact answers_pure (suits none)
  · refine Answers.bind (answers_lift fun _ _ => trivial : Answers s _ _ fun _ => True) fun t _ => ?_
    exact answers_pure (suits (some t))

section

variable {members : MemberResolver} (lists : s.Lists scope members) (known : s.catalog.Known u)

include apart lists known

/-- A type that is made of members has the name of its product. -/
theorem answers_ofMembers {rest : Option (List Member) → Synth (Option SynthesizedType)}
    (kind : ProductKind) (isKind : kind.OfMembers) (nothing : rest none = pure none)
    (shape : ∀ ms, ∃ t, rest (some ms) = pure (some t) ∧ t.name = s.productName u kind) :
    Answers s scope (memo (s.keyOf kind u) (members u >>= rest))
      fun made => ∀ t, made = some t → Suits s (s.keyOf kind u) t := by
  have isKey : s.keyOf kind u ∈ s.memberKeys u := mem_memberKeys_iff.2 ⟨kind, isKind, rfl⟩
  refine answers scope (s.keyOf kind u) _ ((lists u _ known isKey).bind ?_)
  rintro (_ | ms) isSome
  · rw [nothing]
    exact answers_pure nofun
  · obtain ⟨t, made, name⟩ := shape ms
    rw [made]
    refine answers_pure ?_
    rintro _ same
    cases same
    exact suits_of_keyOf apart known name fun _ => isSome ms rfl

theorem answers_interfaceVia : Answers s scope (s.interfaceVia memo members u)
    fun made => ∀ t, made = some t → Suits s (s.interfaceKey u) t :=
  answers_ofMembers answers apart lists known .interface (.inl rfl) rfl
    fun _ => ⟨_, rfl, rfl⟩

theorem answers_proxyVia (interface : Option TypeName) :
    Answers s scope (s.proxyVia memo members u interface)
      fun made => ∀ t, made = some t → Suits s (s.proxyKey u) t := by
  refine answers_ofMembers answers apart lists known .proxy (.inr (.inl rfl)) rfl
    fun ms => ⟨proxyOf (proxyName s.options u.name) u ms interface, ?_, rfl⟩
  dsimp only
  rw [proxyType_eq]
  rfl

theorem answers_ensureInterfaceVia (owns : s.OwnsAll scope) :
    Answers s scope (s.ensureInterfaceVia memo members u)
      fun name => name = interfaceName s.options u.name ∧ s.hasMembers u = true := by
  have isKey : s.interfaceKey u ∈ s.memberKeys u := List.mem_cons_self
  refine answers_inScope (fun isIn => ?_) fun _ => ?_
  · obtain ⟨v, known', eligible, isKey'⟩ := owns _ isIn
    obtain rfl := apart.of_memberKeys known known' isKey isKey'
    exact answers_pure ⟨rfl, hasMembers_iff.2 eligible⟩
  · refine (answers_interfaceVia answers apart lists known).bind ?_
    rintro (_ | t) suits
    · exact answers_throw
    · obtain ⟨name, some⟩ := suits t rfl .interface u nofun known rfl
      exact answers_pure ⟨name, some (.inl rfl)⟩

theorem answers_ensureProxyVia (interface : TypeName) :
    Answers s scope (s.ensureProxyVia memo members u interface) fun _ => True := by
  refine answers_inScope (fun _ => answers_pure trivial) fun _ => ?_
  exact (answers_proxyVia answers apart lists known _).bind fun _ _ => answers_pure trivial

theorem answers_cloneStructVia (owns : s.OwnsAll scope) :
    Answers s scope (s.cloneStructVia memo members u)
      fun t => t = .synthesized u.name ∧ s.hasMembers u = true := by
  refine (answers_ensureInterfaceVia answers apart lists known owns).bind ?_
  rintro interface ⟨-, some⟩
  refine (answers_ensureProxyVia answers apart lists known interface).bind fun _ _ => ?_
  refine answers_inScope (fun _ => answers_pure ⟨rfl, some⟩) fun _ => ?_
  refine Answers.bind (answers_ofMembers answers apart lists known .structClone
    (.inr (.inr rfl)) rfl fun ms => ⟨structOf u ms, ?_, rfl⟩) ?_
  · dsimp only
    rw [structType_eq]
    rfl
  · rintro (_ | t) suits
    · exact answers_throw
    · obtain ⟨name, -⟩ := suits t rfl .structClone u nofun known rfl
      exact answers_pure ⟨congrArg TypeRef.synthesized name, some⟩

theorem answers_referenceInterfaceVia (owns : s.OwnsAll scope) :
    Answers s scope (s.referenceInterfaceVia memo members u)
      fun t => t = .synthesized (interfaceName s.options u.name) ∧ s.hasMembers u = true := by
  refine (answers_ensureInterfaceVia answers apart lists known owns).bind ?_
  rintro interface ⟨rfl, some⟩
  refine (answers_ensureProxyVia answers apart lists known _).bind fun _ _ => ?_
  exact answers_pure ⟨rfl, some⟩

end

/-! ### Names and types -/

include apart

theorem answers_cloneEnumVia (known : s.catalog.Known u) (underlying : Primitive)
    (literals : List Literal) : Answers s scope (cloneEnumVia memo u underlying literals)
      fun t => t = .synthesized u.name := by
  have made : ∀ t, some (enumType u underlying literals) = some t →
      Suits s (s.keyOf .enumClone u) t := by
    rintro _ same
    cases same
    exact suits_of_keyOf apart known rfl nofun
  refine Answers.bind (answers scope (s.keyOf .enumClone u) _ (answers_pure made)) ?_
  rintro (_ | t) suits
  · exact answers_throw
  · obtain ⟨name, -⟩ := suits t rfl .enumClone u nofun known rfl
    exact answers_pure (congrArg TypeRef.synthesized name)

theorem answers_replaceNamedVia {members : MemberResolver} (lists : s.Lists scope members)
    (owns : s.OwnsAll scope) (name : TypeName) :
    Answers s scope (s.replaceNamedVia memo members name)
      fun t => s.namedImage? name = some t := by
  have requires : Answers s scope (liftM (s.catalog.require name) : Synth SourceType) fun u =>
      s.catalog.get? name = some u :=
    answers_lift fun _ required => SourceCatalog.require_eq_ok_iff.1 required
  refine requires.bind fun u found => ?_
  have known := SourceCatalog.known_of_get? found
  rw [namedImage?_eq found]
  split
  case h_1 underlying literals isEnum =>
    refine (answers_cloneEnumVia answers apart known underlying literals).mono ?_
    rintro _ rfl
    exact sourceImage?_enum isEnum
  case h_2 notEnum =>
    split
    case isTrue runtime => exact answers_pure (sourceImage?_runtime notEnum runtime)
    case isFalse native =>
      have foreign : u.Foreign := ⟨Bool.eq_false_of_not_eq_true native, notEnum⟩
      rw [sourceImage?_foreign foreign]
      split
      case isTrue isStruct =>
        refine (answers_cloneStructVia answers apart lists known owns).mono ?_
        rintro _ ⟨rfl, some⟩
        rw [if_pos some, standIn, if_pos isStruct]
      case isFalse other =>
        refine (answers_referenceInterfaceVia answers apart lists known owns).mono ?_
        rintro _ ⟨rfl, some⟩
        rw [if_pos some, standIn, if_neg other]

omit answers apart in
mutual

theorem answers_replaceType {named : TypeName → Synth TypeRef}
    (finds : ∀ name, Answers s scope (named name) fun t => s.namedImage? name = some t)
    (type : TypeRef) :
    Answers s scope (s.replaceType named type) fun t => s.image? type = some t := by
  cases type with
  | named name =>
    unfold replaceType image?
    exact finds name
  | array element =>
    unfold replaceType image?
    refine (answers_replaceType finds element).bind fun t image => answers_pure ?_
    rw [image]
    rfl
  | generic definition args =>
    unfold replaceType image?
    split
    · refine (answers_replaceTypes finds args).bind fun ts images => answers_pure ?_
      rw [images]
      rfl
    · exact answers_throw
  | primitive | string | object | synthesized =>
    unfold replaceType image?
    exact answers_pure rfl

theorem answers_replaceTypes {named : TypeName → Synth TypeRef}
    (finds : ∀ name, Answers s scope (named name) fun t => s.namedImage? name = some t)
    (types : List TypeRef) :
    Answers s scope (s.replaceTypes named types) fun ts => s.images? types = some ts := by
  cases types with
  | nil =>
    unfold replaceTypes images?
    exact answers_pure rfl
  | cons type rest =>
    unfold replaceTypes images?
    refine (answers_replaceType finds type).bind fun t image => ?_
    refine (answers_replaceTypes finds rest).bind fun ts images => answers_pure ?_
    rw [image, Option.bind_some, images]
    rfl

end

/-! ### Whole searches -/

theorem answers_dereferenceNamedVia (owns : s.OwnsAll scope) (fuel : Nat) (name : TypeName) :
    Answers s scope (s.dereferenceNamedVia memo fuel name)
      fun t => s.namedImage? name = some t := by
  induction fuel generalizing scope name with
  | zero => exact answers_throw
  | succ fuel ih =>
    refine answers_replaceNamedVia answers apart ?_ owns name
    exact lists_resolveMembers owns fun scope owns type =>
      answers_replaceType (fun name => ih owns name) type

/-- What is found for a type is what stands for it in the table. -/
theorem answers_dereferenceVia (owns : s.OwnsAll scope) (type : TypeRef) :
    Answers s scope (s.dereferenceVia memo type) fun t => s.image? type = some t :=
  answers_replaceType (answers_dereferenceNamedVia answers apart owns s.nestingBound) type

theorem lists_membersVia (owns : s.OwnsAll scope) : s.Lists scope (s.membersVia memo) :=
  lists_resolveMembers owns fun _ owns type => answers_dereferenceVia answers apart owns type

theorem answers_synthesizeVia (known : s.catalog.Known u) :
    Answers s [] (s.synthesizeVia memo u) fun _ => True := by
  have lists : s.Lists [] (s.membersVia memo) := lists_membersVia answers apart nofun
  refine (answers_interfaceVia answers apart lists known).bind ?_
  rintro (_ | interface) -
  · exact answers_pure trivial
  refine (answers_proxyVia answers apart lists known _).bind ?_
  rintro (_ | proxy) -
  · exact answers_pure trivial
  refine (answers_fluentVia answers proxy interface _).bind ?_
  rintro (_ | fluent) -
  · exact answers_pure trivial
  · exact answers_pure trivial

end

end Synthesizer

end FluentWrappers.Synthesis
