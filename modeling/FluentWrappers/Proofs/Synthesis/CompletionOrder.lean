import FluentWrappers.Proofs.Synthesis.First
import FluentWrappers.Proofs.Synthesis.Parts
import FluentWrappers.Synthesis.Synthesizer

/-!
# The order of completion

Where no source type refers back to itself, a type is completed only after all that it depends on. What
stands for the types of its members is complete by the time the members are known, and what is left
behind by a failure depends on nothing that the failure took away.
-/

namespace FluentWrappers

namespace Synthesis

open Fallible

/-! ### Lists with dependencies first -/

def Named (types : List SynthesizedType) (name : TypeName) : Prop := ∃ t ∈ types, t.name = name

/-- Each type of the list comes after types with the names of all its dependencies. -/
def DependenciesFirst (types : List SynthesizedType) : Prop :=
  ∀ before t after, types = before ++ t :: after → ∀ name ∈ t.dependencies, Named before name

/-- The list has types for all synthesized names in the types of the members. -/
def NamesAll (types : List SynthesizedType) (members : List Member) : Prop :=
  ∀ m ∈ members, ∀ name ∈ m.type.synthesizedNames, Named types name

/-- The list has types for all that the type depends on. -/
structure Backed (types : List SynthesizedType) (t : SynthesizedType) : Prop where
  dependencies : ∀ name ∈ t.dependencies, Named types name
  members : NamesAll types t.members

section

variable {types more : List SynthesizedType} {t : SynthesizedType} {name : TypeName}
  {members : List Member}

theorem Named.mono (named : Named types name) (kept : types ⊆ more) : Named more name := by
  obtain ⟨t, isIn, isNamed⟩ := named
  exact ⟨t, kept isIn, isNamed⟩

theorem NamesAll.mono (named : NamesAll types members) (kept : types ⊆ more) :
    NamesAll more members := fun m isIn name isName => (named m isIn name isName).mono kept

theorem namesAll_of_plain (plain : ∀ m ∈ members, m.type.synthesizedNames = []) :
    NamesAll types members := by
  intro m isIn name isName
  rw [plain m isIn] at isName
  exact absurd isName List.not_mem_nil

theorem namesAll_nil : NamesAll types [] := fun _ isIn => absurd isIn List.not_mem_nil

theorem dependenciesFirst_nil : DependenciesFirst [] := by
  intro before t after same
  simp at same

theorem DependenciesFirst.concat (sorted : DependenciesFirst types)
    (backed : ∀ name ∈ t.dependencies, Named types name) : DependenciesFirst (types ++ [t]) := by
  intro before u after split
  rcases List.eq_nil_or_concat after with rfl | ⟨rest, last, rfl⟩
  · obtain ⟨rfl, same⟩ := List.append_inj' split rfl
    cases same
    exact backed
  · have split' : types ++ [t] = (before ++ u :: rest) ++ [last] := by simpa using split
    obtain ⟨rfl, -⟩ := List.append_inj' split' rfl
    exact sorted before u rest rfl

/-- A type that mentions its members' types and the names is backed where all of them are. -/
theorem SynthesizedType.Keeps.backed {names : List TypeName} (keeps : t.Keeps names)
    (members : NamesAll types t.members) (named : ∀ name ∈ names, name = t.name ∨ Named types name) :
    Backed types t := by
  refine ⟨fun name isDependency => ?_, members⟩
  obtain ⟨isMentioned, other, notRoot⟩ := mem_dependencies.1 isDependency
  rcases keeps.mentioned isMentioned with ⟨m, isIn, isName⟩ | isName
  · exact members m isIn name isName
  · rcases List.mem_cons.1 isName with rfl | isName
    · exact absurd rfl notRoot
    · exact (named name isName).resolve_left other

theorem SynthesizedType.Keeps.backed_of_members (keeps : t.Keeps [])
    (members : NamesAll types t.members) : Backed types t :=
  keeps.backed members fun _ isIn => absurd isIn List.not_mem_nil

end

/-! ### Layered progress -/

/-- The types of all keys are completed ones, and each was backed by those before it. -/
structure Layered (p : Progress) : Prop where
  tidy : p.cache.Tidy
  listed : ∀ key t, p.Has key t → t ∈ p.cache.types
  sorted : DependenciesFirst p.cache.types
  members : ∀ t ∈ p.cache.types, NamesAll p.cache.types t.members

/-- From one progress to a layered one that keeps the scope, the slots and the completed types. -/
structure Layers (p q : Progress) : Prop extends Grows p q where
  layered : Layered q
  types : p.cache.types ⊆ q.cache.types

variable {p q r : Progress} {key : CacheKey} {slot : Nat} {made : Option SynthesizedType}
  {e : SynthesisError}

theorem layered_start (timeout : UInt64) : Layered ⟨Session.start timeout, []⟩ where
  tidy := Cache.tidy_empty timeout
  listed := by
    rintro key t ⟨serial, state⟩
    cases state
  sorted := dependenciesFirst_nil
  members _ isIn := absurd isIn List.not_mem_nil

theorem Layered.cancel (layered : Layered p) :
    Layered { p with session := p.session.cancel } where
  tidy := ⟨⟨layered.tidy.within, layered.tidy.apart⟩, layered.tidy.once⟩
  listed := layered.listed
  sorted := layered.sorted
  members := layered.members

theorem Layered.enter (layered : Layered p) (free : p.cache.slotOf? key = none) :
    Layered (p.enter key) where
  tidy := layered.tidy.claim free
  listed other t has := by
    rw [types_enter free]
    exact layered.listed other t ((has_enter_iff layered.tidy free).1 has)
  sorted := by
    rw [types_enter free]
    exact layered.sorted
  members := by
    rw [types_enter free]
    exact layered.members

theorem Layered.leave (layered : Layered q) (bound : q.cache.slotOf? key = some slot)
    (backed : ∀ t, made = some t → Backed q.cache.types t) : Layered (q.leave slot made) := by
  have types : (q.leave slot made).cache.types = q.cache.types ++ made.toList := rfl
  refine ⟨layered.tidy.publish, fun other t has => ?_, ?_, ?_⟩
  · rw [types, List.mem_append, Option.mem_toList]
    rcases (has_leave_iff layered.tidy bound).1 has with ⟨-, isMade⟩ | ⟨-, before⟩
    · exact Or.inr isMade
    · exact Or.inl (layered.listed other t before)
  · rw [types]
    cases made with
    | none => exact (List.append_nil _).symm ▸ layered.sorted
    | some t => exact layered.sorted.concat (backed t rfl).dependencies
  · intro t isIn
    rw [types] at isIn ⊢
    rcases List.mem_append.1 isIn with isOld | isMade
    · exact (layered.members t isOld).mono (List.subset_append_left _ _)
    · exact (backed t (Option.mem_toList.1 isMade)).members.mono (List.subset_append_left _ _)

theorem Layered.abandon (layered : Layered q) (bound : q.cache.slotOf? key = some slot) :
    Layered (q.abandon key slot e) where
  tidy := layered.tidy.release bound
  listed other t has := layered.listed other t ((has_abandon_iff layered.tidy bound).1 has).2
  sorted := layered.sorted
  members := layered.members

theorem Layers.refl (layered : Layered p) : Layers p p :=
  ⟨Grows.refl p, layered, List.Subset.refl _⟩

theorem Layers.trans (first : Layers p q) (second : Layers q r) : Layers p r :=
  ⟨first.toGrows.trans second.toGrows, second.layered, fun _ isIn => second.types (first.types isIn)⟩

section

variable (layers : Layers (p.enter key) q) (free : p.cache.slotOf? key = none)

include layers free

theorem Layers.types_of_enter : p.cache.types ⊆ q.cache.types :=
  types_enter free ▸ layers.types

theorem Layers.leave (backed : ∀ t, made = some t → Backed q.cache.types t) :
    Layers p (q.leave p.cache.slots.length made) where
  toGrows := layers.toGrows.leave free
  layered := layers.layered.leave (layers.slots key _ (slotOf?_enter_self free)) backed
  types _ isIn := List.mem_append_left _ (layers.types_of_enter free isIn)

theorem Layers.abandon : Layers p (q.abandon key p.cache.slots.length e) where
  toGrows := layers.toGrows.abandon free layers.layered.tidy
  layered := layers.layered.abandon (layers.slots key _ (slotOf?_enter_self free))
  types := layers.types_of_enter free

end

/-! ### Computations that add layers -/

/-- From the progress on, the computation keeps it layered, and its results are of the kind. -/
def Adds {α : Type} (p : Progress) (x : Synth α) (post : α → Progress → Prop) : Prop :=
  Ends x p (fun a q => Layers p q ∧ post a q) (fun _ q => Layers p q)

section

variable {α β : Type} {x : Synth α} {post : α → Progress → Prop} {last : β → Progress → Prop}

theorem adds_pure {a : α} (layered : Layered p) (h : post a p) : Adds p (pure a) post :=
  ends_pure ⟨Layers.refl layered, h⟩

theorem adds_none {fits : α → Progress → Prop} (layered : Layered p) :
    Adds p (pure none : Synth (Option α)) fun made q => ∀ a, made = some a → fits a q := by
  refine adds_pure layered ?_
  rintro a same
  cases same

theorem adds_some {fits : α → Progress → Prop} {a : α} (layered : Layered p) (h : fits a p) :
    Adds p (pure (some a) : Synth (Option α)) fun made q => ∀ a, made = some a → fits a q := by
  refine adds_pure layered ?_
  rintro _ same
  cases same
  exact h

theorem adds_throw (layered : Layered p) : Adds p (throw e : Synth α) post :=
  ends_throw (Layers.refl layered)

theorem adds_lift {x : Except SynthesisError α} (layered : Layered p)
    (results : ∀ a, x = .ok a → post a p) : Adds p (liftM x : Synth α) post := by
  cases x with
  | ok a => exact adds_pure layered (results a rfl)
  | error e => exact adds_throw layered

theorem Adds.bind {f : α → Synth β} (h : Adds p x post)
    (next : ∀ a q, Layers p q → post a q → Adds q (f a) last) : Adds p (x >>= f) last := by
  refine Ends.bind h ?_ fun _ _ layers => layers
  rintro a q ⟨layers, isPost⟩
  refine (next a q layers isPost).mono ?_ fun _ _ rest => layers.trans rest
  exact fun b r ⟨rest, isLast⟩ => ⟨layers.trans rest, isLast⟩

theorem Adds.mono {post' : α → Progress → Prop} (h : Adds p x post)
    (results : ∀ a q, post a q → post' a q) : Adds p x post' :=
  Ends.mono h (fun a q ⟨layers, isPost⟩ => ⟨layers, results a q isPost⟩) fun _ _ layers => layers

/-- However the computation ends, the progress is layered after it. -/
theorem Adds.after (h : Adds p x post) : Layers p (x p).2 :=
  ends_iff.1 (Ends.mono h (fun _ _ found => found.1) fun _ _ layers => layers)

theorem adds_of_idle {inside outside : Synth α} (idle : key ∉ p.scope) (h : Adds p outside post) :
    Adds p (inScope key >>= fun isPending => if isPending = true then inside else outside) post :=
  Synthesizer.ends_inScope (fun isIn => absurd isIn idle) fun _ => h

end

/-- The type of a key is a completed one, if what is produced for it is backed. -/
def Memo.Adds (memo : Memo) : Prop :=
  ∀ key produce p, Layered p →
    (∀ q, Layered q → q.scope = key :: p.scope → p.cache.types ⊆ q.cache.types →
      Synthesis.Adds q produce fun made r => ∀ t, made = some t → Backed r.cache.types t) →
    Synthesis.Adds p (memo key produce) fun made q => ∀ t, made = some t → t ∈ q.cache.types

theorem adds_memoize : Memo.Adds memoize := by
  intro key produce p layered run
  cases free : p.cache.slotOf? key with
  | some slot =>
    refine (ends_memoize_bound ⟨slot, free⟩).mono ?_ ?_
    · rintro made _ ⟨rfl, has⟩
      exact ⟨Layers.refl layered, fun t isMade => layered.listed key t (has t isMade)⟩
    · rintro e _ rfl
      exact Layers.refl layered
  | none =>
    cases stopped : p.cache.cancelled with
    | true => exact ends_of_error (memoize_cancelled stopped) (Layers.refl layered)
    | false =>
      have kept : p.cache.types ⊆ (p.enter key).cache.types := (types_enter free).symm ▸ fun _ => id
      refine ends_memoize stopped free
        (Ends.mono (run (p.enter key) (layered.enter free) rfl kept) ?_ ?_)
      · rintro made q ⟨layers, backed⟩
        refine ⟨layers.leave free backed, fun t isMade => List.mem_append_right _ ?_⟩
        exact Option.mem_toList.2 isMade
      · exact fun e q layers => layers.abandon free

theorem adds_memoizeAmid (interruption : Interruption) : (memoizeAmid interruption).Adds := by
  intro key produce p layered run
  unfold memoizeAmid
  have interrupted : Adds p (modifyThe Progress fun p =>
      if interruption key p then { p with session := p.session.cancel } else p : Synth PUnit)
      fun _ q => q.scope = p.scope := by
    show Layers p (if interruption key p then { p with session := p.session.cancel } else p) ∧
      (if interruption key p then { p with session := p.session.cancel } else p : Progress).scope =
        p.scope
    split
    · exact ⟨⟨⟨rfl, fun _ _ bound => bound⟩, layered.cancel, fun _ => id⟩, rfl⟩
    · exact ⟨Layers.refl layered, rfl⟩
  refine interrupted.bind fun _ q layers scope => ?_
  refine adds_memoize key produce q layers.layered fun r layered' scope' kept => ?_
  exact run r layered' (scope' ▸ scope ▸ rfl) fun _ isIn => kept (layers.types isIn)

/-! ### Scopes without references back -/

end Synthesis

/-- No source type refers back to itself through the types of eligible members. -/
def SourceCatalog.Acyclic (c : SourceCatalog) : Prop :=
  ∀ t, c.Known t → ¬ Relation.TransGen c.Refers t t

theorem SourceCatalog.Known.of_reaches {c : SourceCatalog} {t u : SourceType} (known : c.Known t)
    (path : c.Reaches t u) : c.Known u := by
  rcases Relation.ReflTransGen.cases_tail path with rfl | ⟨v, -, -, m, -, name, -, found⟩
  · exact known
  · exact known_of_get? found

theorem SourceCatalog.Refers.known {c : SourceCatalog} {t u : SourceType} (refers : c.Refers t u) :
    c.Known u := by
  obtain ⟨-, m, -, name, -, found⟩ := refers
  exact known_of_get? found

/-- Source types are acyclic if each refers only to types of lower rank. -/
theorem SourceCatalog.acyclic_of_rank {c : SourceCatalog} (rank : SourceType → Nat)
    (lower : ∀ t u, c.Known t → c.Refers t u → rank u < rank t) : c.Acyclic := by
  have descends {t u : SourceType} (known : c.Known t) (path : Relation.TransGen c.Refers t u) :
      rank u < rank t := by
    induction path with
    | single refers => exact lower t _ known refers
    | @tail v w path refers ih =>
      exact (lower v w (known.of_reaches path.to_reflTransGen) refers).trans ih
  exact fun t known path => Nat.lt_irrefl _ (descends known path)

/-- Source types are acyclic if each refers only to types that stand before it in the catalog. -/
theorem SourceCatalog.acyclic_of_earlier {c : SourceCatalog}
    (earlier : ∀ t ∈ c.types, ∀ m ∈ (c.extract t).toOption.getD [], ∀ name ∈ m.type.mentions,
      ∀ u ∈ c.get? name, c.types.idxOf u < c.types.idxOf t) : c.Acyclic := by
  refine acyclic_of_rank c.types.idxOf ?_
  rintro t u known ⟨-, m, ⟨members, found, isIn⟩, name, isMention, isName⟩
  refine earlier t known.mem m ?_ name isMention u isName
  rw [found]
  exact isIn

namespace Synthesis.Synthesizer

open Fallible

variable {s : Synthesizer} {memo : Memo} {members : MemberResolver} {scope : List CacheKey}
  {key : CacheKey} {p : Progress} {u v : SourceType}

/-- No key of a source type that the given one reaches is in the scope. -/
def Clear (s : Synthesizer) (scope : List CacheKey) (u : SourceType) : Prop :=
  ∀ v, s.catalog.Reaches u v → ∀ key ∈ s.memberKeys v, key ∉ scope

/-- All source types that the given one refers to are clear of the scope. -/
def ClearBelow (s : Synthesizer) (scope : List CacheKey) (u : SourceType) : Prop :=
  ∀ v, s.catalog.Refers u v → s.Clear scope v

/-- All foreign source types that have the names are clear of the scope. -/
def ClearOf (s : Synthesizer) (scope : List CacheKey) (names : List TypeName) : Prop :=
  ∀ name ∈ names, ∀ v, s.catalog.get? name = some v → v.Foreign → s.Clear scope v

theorem Clear.below (clear : s.Clear scope u) : s.ClearBelow scope u :=
  fun _ refers w path => clear w (Relation.ReflTransGen.head refers path)

theorem Clear.notMem (clear : s.Clear scope u) (isKey : key ∈ s.memberKeys u) : key ∉ scope :=
  clear u .refl key isKey

theorem clear_nil (s : Synthesizer) (u : SourceType) : s.Clear [] u :=
  fun _ _ _ _ => List.not_mem_nil

/-- A production leaves those clear that its source type refers to, as none of them is that type. -/
theorem ClearBelow.enter (clear : s.ClearBelow scope u) (apart : s.Apart)
    (acyclic : s.catalog.Acyclic) (known : s.catalog.Known u) (isKey : key ∈ s.memberKeys u) :
    s.ClearBelow (key :: scope) u := by
  intro v refers w path other isOther isIn
  rcases List.mem_cons.1 isIn with rfl | isIn
  · obtain rfl := apart.of_memberKeys known (refers.known.of_reaches path) isKey isOther
    exact acyclic u known (Relation.TransGen.head' refers path)
  · exact clear v refers w path other isOther isIn

theorem ClearBelow.of_eligible (clear : s.ClearBelow scope u) {m : Member}
    (eligible : s.catalog.EligibleMember u m) : s.ClearOf scope m.type.mentions :=
  fun name isIn v found foreign => clear v ⟨foreign, m, eligible, name, isIn, found⟩

theorem ClearOf.subset {names names' : List TypeName} (clear : s.ClearOf scope names)
    (fewer : names' ⊆ names) : s.ClearOf scope names' :=
  fun name isIn => clear name (fewer isIn)

/-! ### Members -/

/-- The list has types for the synthesized names in what the function finds for a name. -/
def FindsBacked (s : Synthesizer) (named : TypeName → Synth TypeRef) : Prop :=
  ∀ name p, Layered p → s.ClearOf p.scope [name] →
    Adds p (named name) fun t q => ∀ other ∈ t.synthesizedNames, Named q.cache.types other

/-- The completed types back the members that the function finds. -/
def ResolvesBacked (s : Synthesizer) (members : MemberResolver) : Prop :=
  ∀ u p, s.catalog.Known u → Layered p → s.ClearBelow p.scope u →
    Adds p (members u) fun found q => ∀ ms, found = some ms → NamesAll q.cache.types ms

mutual

theorem adds_replaceType {named : TypeName → Synth TypeRef} (finds : s.FindsBacked named)
    (type : TypeRef) (p : Progress) (layered : Layered p)
    (clear : s.ClearOf p.scope type.mentions) :
    Adds p (s.replaceType named type) fun t q => ∀ other ∈ t.synthesizedNames,
      other ∈ type.synthesizedNames ∨ Named q.cache.types other := by
  unfold replaceType
  cases type with
  | named name =>
    exact (finds name p layered clear).mono fun _ _ backed other isIn => Or.inr (backed other isIn)
  | array element =>
    exact (adds_replaceType finds element p layered clear).bind fun _ _ layers backed =>
      adds_pure layers.layered backed
  | generic definition args =>
    dsimp only
    split
    · exact (adds_replaceTypes finds args p layered clear).bind fun _ _ layers backed =>
        adds_pure layers.layered backed
    · exact adds_throw layered
  | primitive | string | object | synthesized => exact adds_pure layered fun _ => Or.inl

theorem adds_replaceTypes {named : TypeName → Synth TypeRef} (finds : s.FindsBacked named)
    (types : List TypeRef) (p : Progress) (layered : Layered p)
    (clear : s.ClearOf p.scope (TypeRef.mentionsOfAll types)) :
    Adds p (s.replaceTypes named types) fun ts q => ∀ other ∈ TypeRef.synthesizedNamesOfAll ts,
      other ∈ TypeRef.synthesizedNamesOfAll types ∨ Named q.cache.types other := by
  unfold replaceTypes
  cases types with
  | nil => exact adds_pure layered fun _ => Or.inl
  | cons type rest =>
    unfold TypeRef.mentionsOfAll at clear
    have clearFirst := clear.subset (List.subset_append_left _ _)
    refine (adds_replaceType finds type p layered clearFirst).bind fun t q layers backed => ?_
    have clearRest := layers.scope.symm ▸ clear.subset (List.subset_append_right _ _)
    refine (adds_replaceTypes finds rest q layers.layered clearRest).bind fun ts r layers' backed' => ?_
    refine adds_pure layers'.layered fun other isIn => ?_
    rcases List.mem_append.1 isIn with isIn | isIn
    · exact (backed other isIn).imp (List.mem_append_left _) fun named => named.mono layers'.types
    · exact (backed' other isIn).imp_left (List.mem_append_right _)

end

section

variable {dereference : TypeRef → Synth TypeRef}
  (finds : ∀ type p, Layered p → s.ClearOf p.scope type.mentions →
    Adds p (dereference type) fun t q => ∀ other ∈ t.synthesizedNames,
      other ∈ type.synthesizedNames ∨ Named q.cache.types other)

include finds

/-- A member of plain type is backed, be its type replaced or kept. -/
theorem adds_resolveMember {m : Member} (plain : m.type.synthesizedNames = []) (layered : Layered p)
    (clear : s.ClearOf p.scope m.type.mentions) :
    Adds p (s.resolveMember dereference u m) fun n q => NamesAll q.cache.types [n] := by
  have spec := finds m.type p layered clear
  rcases run : dereference m.type p with ⟨e | type, q⟩
  · have ended := resolveMember_of_error (s := s) (u := u) run
    have layers := spec.fault run
    split at ended
    · exact ends_of_error ended layers
    · exact ends_of_ok ended ⟨layers, namesAll_of_plain (by simpa using plain)⟩
  · obtain ⟨layers, backed⟩ := spec.result run
    refine ends_of_ok (resolveMember_of_ok run) ⟨layers, ?_⟩
    rintro n isIn other isName
    obtain rfl := List.mem_singleton.1 isIn
    exact (backed other isName).resolve_left (by simp [plain])

theorem adds_mapM_resolveMember {ms : List Member} (plain : ∀ m ∈ ms, m.type.synthesizedNames = [])
    (layered : Layered p) (clear : ∀ m ∈ ms, s.ClearOf p.scope m.type.mentions) :
    Adds p (ms.mapM (s.resolveMember dereference u)) fun found q =>
      NamesAll q.cache.types found := by
  induction ms generalizing p with
  | nil => exact adds_pure layered namesAll_nil
  | cons m ms ih =>
    obtain ⟨plainFirst, plainRest⟩ := List.forall_mem_cons.1 plain
    obtain ⟨clearFirst, clearRest⟩ := List.forall_mem_cons.1 clear
    rw [List.mapM_cons]
    refine (adds_resolveMember finds plainFirst layered clearFirst).bind fun n q layers named => ?_
    refine (ih plainRest layers.layered (layers.scope.symm ▸ clearRest)).bind
      fun found r layers' named' => ?_
    refine adds_pure layers'.layered (List.forall_mem_cons.2 ⟨?_, named'⟩)
    exact fun other isName => (named n List.mem_cons_self other isName).mono layers'.types

theorem resolvesBacked_resolveMembers (plain : s.catalog.Unsynthesized) :
    s.ResolvesBacked (s.resolveMembers dereference) := by
  intro u p known layered clear
  have extracts : Adds p (liftM (s.catalog.extract u) : Synth (List Member))
      fun declared q => s.catalog.extract u = .ok declared ∧ q.scope = p.scope :=
    adds_lift layered fun _ extracted => ⟨extracted, rfl⟩
  unfold resolveMembers
  refine extracts.bind fun declared q layers extracted => ?_
  obtain ⟨extracted, scope⟩ := extracted
  have eligible (m : Member) (isIn : m ∈ declared) : s.catalog.EligibleMember u m :=
    ⟨declared, extracted, isIn⟩
  have plainAll (m : Member) (isIn : m ∈ declared) : m.type.synthesizedNames = [] :=
    synthesizedNames_eq_nil plain known (eligible m isIn)
  split
  · exact adds_none layers.layered
  · split
    · exact adds_some layers.layered (namesAll_of_plain plainAll)
    · have clearAll (m : Member) (isIn : m ∈ declared) : s.ClearOf q.scope m.type.mentions :=
        scope.symm ▸ clear.of_eligible (eligible m isIn)
      exact (adds_mapM_resolveMember finds plainAll layers.layered clearAll).bind
        fun found r layers' named => adds_some layers'.layered named

end

/-! ### Interfaces, proxies and clones -/

section

variable (adds : memo.Adds)

theorem adds_cloneReference {clone : Option SynthesizedType} (layered : Layered p)
    (listed : ∀ t, clone = some t → t ∈ p.cache.types) :
    Adds p (cloneReference u clone) fun t q => ∀ other ∈ t.synthesizedNames,
      Named q.cache.types other := by
  cases clone with
  | none => exact adds_throw layered
  | some t =>
    refine adds_pure layered fun other isIn => ⟨t, listed t rfl, ?_⟩
    exact (List.mem_singleton.1 isIn).symm

include adds

theorem adds_cloneEnumVia (underlying : Primitive) (literals : List Literal) (layered : Layered p) :
    Adds p (cloneEnumVia memo u underlying literals) fun t q => ∀ other ∈ t.synthesizedNames,
      Named q.cache.types other := by
  refine (adds _ _ p layered fun q layered' _ _ => adds_some layered' ?_).bind
    fun clone q layers listed => adds_cloneReference layers.layered listed
  exact keeps_enumType.backed_of_members namesAll_nil

variable (apart : s.Apart) (acyclic : s.catalog.Acyclic) (resolves : s.ResolvesBacked members)
  (known : s.catalog.Known u)

include apart acyclic resolves known

/-- A type that is made of members is completed with all that backs it. -/
theorem adds_ofMembers {rest : Option (List Member) → Synth (Option SynthesizedType)}
    (layered : Layered p) (clear : s.ClearBelow p.scope u) (isKey : key ∈ s.memberKeys u)
    (nothing : rest none = pure none)
    (shape : ∀ ms (q : Progress), p.cache.types ⊆ q.cache.types → NamesAll q.cache.types ms →
      ∃ t, rest (some ms) = pure (some t) ∧ Backed q.cache.types t) :
    Adds p (memo key (members u >>= rest)) fun made q => ∀ t, made = some t → t ∈ q.cache.types := by
  refine adds key _ p layered fun q layered' scope kept => ?_
  have below : s.ClearBelow q.scope u := scope.symm ▸ clear.enter apart acyclic known isKey
  refine (resolves u q known layered' below).bind ?_
  rintro (_ | ms) r layers named
  · rw [nothing]
    exact adds_none layers.layered
  · obtain ⟨t, made, backed⟩ := shape ms r (fun _ isIn => layers.types (kept isIn)) (named ms rfl)
    rw [made]
    exact adds_some layers.layered backed

theorem adds_interfaceVia (layered : Layered p) (clear : s.ClearBelow p.scope u) :
    Adds p (s.interfaceVia memo members u) fun made q => ∀ t, made = some t → t ∈ q.cache.types := by
  have isKey : s.interfaceKey u ∈ s.memberKeys u := List.mem_cons_self
  refine adds_ofMembers adds apart acyclic resolves known layered clear isKey rfl
    fun ms q _ named => ⟨_, rfl, ?_⟩
  exact keeps_interfaceType.backed_of_members named

theorem adds_proxyVia {interface : TypeName} (layered : Layered p)
    (clear : s.ClearBelow p.scope u) (isNamed : Named p.cache.types interface) :
    Adds p (s.proxyVia memo members u (some interface))
      fun made q => ∀ t, made = some t → t ∈ q.cache.types := by
  have isKey : s.proxyKey u ∈ s.memberKeys u := mem_memberKeys.2 (Or.inr (Or.inl rfl))
  refine adds_ofMembers adds apart acyclic resolves known layered clear isKey rfl
    fun ms q kept named => ⟨proxyOf (proxyName s.options u.name) u ms (some interface), ?_, ?_⟩
  · dsimp only
    rw [proxyType_eq]
    rfl
  · have keeps : (proxyOf (proxyName s.options u.name) u ms (some interface)).Keeps
        [interface, proxyName s.options u.name] :=
      keeps_proxyOf (List.mem_cons_of_mem _ List.mem_cons_self) List.mem_cons_self
    refine keeps.backed named (List.forall_mem_cons.2 ⟨Or.inr (isNamed.mono kept), ?_⟩)
    exact List.forall_mem_singleton.2 (Or.inl rfl)

theorem adds_ensureInterfaceVia (layered : Layered p) (clear : s.Clear p.scope u) :
    Adds p (s.ensureInterfaceVia memo members u) fun name q => Named q.cache.types name := by
  have isKey : s.interfaceKey u ∈ s.memberKeys u := List.mem_cons_self
  refine adds_of_idle (clear.notMem isKey) ?_
  refine (adds_interfaceVia adds apart acyclic resolves known layered clear.below).bind ?_
  rintro (_ | t) q layers listed
  · exact adds_throw layers.layered
  · exact adds_pure layers.layered ⟨t, listed t rfl, rfl⟩

theorem adds_ensureProxyVia {interface : TypeName} (layered : Layered p) (clear : s.Clear p.scope u)
    (isNamed : Named p.cache.types interface) :
    Adds p (s.ensureProxyVia memo members u interface) fun _ _ => True := by
  have isKey : s.proxyKey u ∈ s.memberKeys u := mem_memberKeys.2 (Or.inr (Or.inl rfl))
  refine adds_of_idle (clear.notMem isKey) ?_
  exact (adds_proxyVia adds apart acyclic resolves known layered clear.below isNamed).bind
    fun _ _ layers _ => adds_pure layers.layered trivial

theorem adds_referenceInterfaceVia (layered : Layered p) (clear : s.Clear p.scope u) :
    Adds p (s.referenceInterfaceVia memo members u) fun t q => ∀ other ∈ t.synthesizedNames,
      Named q.cache.types other := by
  refine (adds_ensureInterfaceVia adds apart acyclic resolves known layered clear).bind
    fun interface q layers isNamed => ?_
  refine (adds_ensureProxyVia adds apart acyclic resolves known layers.layered
    (layers.scope.symm ▸ clear) isNamed).bind fun _ r layers' _ => ?_
  refine adds_pure layers'.layered (List.forall_mem_singleton.2 ?_)
  exact isNamed.mono layers'.types

theorem adds_cloneStructVia (layered : Layered p) (clear : s.Clear p.scope u) :
    Adds p (s.cloneStructVia memo members u) fun t q => ∀ other ∈ t.synthesizedNames,
      Named q.cache.types other := by
  refine (adds_ensureInterfaceVia adds apart acyclic resolves known layered clear).bind
    fun interface q layers isNamed => ?_
  refine (adds_ensureProxyVia adds apart acyclic resolves known layers.layered
    (layers.scope.symm ▸ clear) isNamed).bind fun _ r layers' _ => ?_
  have clear' : s.Clear r.scope u := (layers.trans layers').scope.symm ▸ clear
  have isKey : cloneKey u ∈ s.memberKeys u := mem_memberKeys.2 (Or.inr (Or.inr rfl))
  refine adds_of_idle (clear'.notMem isKey) ?_
  refine Adds.bind (adds_ofMembers adds apart acyclic resolves known layers'.layered clear'.below
    isKey rfl fun ms q _ named => ⟨structOf u ms, ?_, ?_⟩)
    fun clone q layers listed => adds_cloneReference layers.layered listed
  · dsimp only
    rw [structType_eq]
    rfl
  · have keeps : (structOf u ms).Keeps [u.name] := keeps_structOf List.mem_cons_self
    exact keeps.backed named (List.forall_mem_singleton.2 (Or.inl rfl))

end

/-! ### Whole calls -/

section

variable (adds : memo.Adds) (apart : s.Apart) (acyclic : s.catalog.Acyclic)

include adds apart acyclic

theorem findsBacked_replaceNamedVia (resolves : s.ResolvesBacked members) :
    s.FindsBacked (s.replaceNamedVia memo members) := by
  intro name p layered clear
  have requires : Adds p (liftM (s.catalog.require name) : Synth SourceType) fun u q =>
      s.catalog.get? name = some u ∧ q.scope = p.scope :=
    adds_lift layered fun _ required => ⟨SourceCatalog.require_eq_ok_iff.1 required, rfl⟩
  refine requires.bind fun u q layers required => ?_
  obtain ⟨found, scope⟩ := required
  have known := SourceCatalog.known_of_get? found
  split
  case h_1 underlying literals _ => exact adds_cloneEnumVia adds underlying literals layers.layered
  case h_2 notEnum =>
    split
    case isTrue => exact adds_pure layers.layered fun _ isIn => absurd isIn List.not_mem_nil
    case isFalse native =>
      have foreign : u.Foreign := ⟨Bool.eq_false_of_not_eq_true native, notEnum⟩
      have clear : s.Clear q.scope u :=
        scope.symm ▸ clear name List.mem_cons_self u found foreign
      split
      · exact adds_cloneStructVia adds apart acyclic resolves known layers.layered clear
      · exact adds_referenceInterfaceVia adds apart acyclic resolves known layers.layered clear

variable (plain : s.catalog.Unsynthesized)

include plain

theorem findsBacked_dereferenceNamedVia (fuel : Nat) :
    s.FindsBacked (s.dereferenceNamedVia memo fuel) := by
  induction fuel with
  | zero => exact fun _ _ layered _ => adds_throw layered
  | succ fuel ih =>
    exact findsBacked_replaceNamedVia adds apart acyclic
      (resolvesBacked_resolveMembers (adds_replaceType ih) plain)

theorem resolvesBacked_membersVia : s.ResolvesBacked (s.membersVia memo) :=
  resolvesBacked_resolveMembers
    (adds_replaceType (findsBacked_dereferenceNamedVia adds apart acyclic plain s.nestingBound)) plain

omit apart acyclic plain in
/-- A fluent wrapper is backed by what it wraps, as that shows the same members. -/
theorem adds_fluentVia {proxy interface : SynthesizedType} {options : TypeOptions}
    (layered : Layered p) (isProxy : proxy ∈ p.cache.types) (isInterface : interface ∈ p.cache.types) :
    Adds p (s.fluentVia memo proxy interface options)
      fun made q => ∀ t, made = some t → t ∈ q.cache.types := by
  refine adds _ _ p layered fun q layered' _ kept => ?_
  split
  · exact adds_none layered'
  · let context : FluentContext := ⟨fluentName s.options proxy.name, interface.name, proxy.name,
      s.options.objectProperty⟩
    have shaped : Adds q (liftM (fluentType context proxy options) : Synth SynthesizedType)
        fun t r => Backed r.cache.types t := by
      refine adds_lift layered' fun t made => ?_
      obtain ⟨rfl, -⟩ := fluentType_eq_ok_iff.1 made
      refine keeps_fluentOf.backed (layered'.members proxy (kept isProxy)) ?_
      refine List.forall_mem_cons.2 ⟨Or.inr ⟨interface, kept isInterface, rfl⟩, ?_⟩
      refine List.forall_mem_cons.2 ⟨Or.inr ⟨proxy, kept isProxy, rfl⟩, ?_⟩
      exact List.forall_mem_singleton.2 (Or.inl rfl)
    exact shaped.bind fun t r layers backed => adds_some layers.layered backed

theorem adds_synthesizeVia (known : s.catalog.Known u) (layered : Layered p) (idle : p.scope = []) :
    Adds p (s.synthesizeVia memo u) fun _ _ => True := by
  have resolves := resolvesBacked_membersVia adds apart acyclic plain
  have clear {q : Progress} (layers : Layers p q) : s.ClearBelow q.scope u :=
    layers.scope.symm ▸ idle.symm ▸ (clear_nil s u).below
  refine (adds_interfaceVia adds apart acyclic resolves known layered
    (clear (Layers.refl layered))).bind ?_
  rintro (_ | interface) q layers isInterface
  · exact adds_pure layers.layered trivial
  have isNamed : Named q.cache.types interface.name := ⟨interface, isInterface _ rfl, rfl⟩
  refine (adds_proxyVia adds apart acyclic resolves known layers.layered (clear layers)
    isNamed).bind ?_
  rintro (_ | proxy) r layers' isProxy
  · exact adds_pure layers'.layered trivial
  refine (adds_fluentVia adds layers'.layered (isProxy _ rfl)
    (layers'.types (isInterface _ rfl))).bind ?_
  rintro (_ | fluent) t layers'' -
  · exact adds_pure layers''.layered trivial
  · exact adds_pure layers''.layered trivial

end

end Synthesis.Synthesizer

namespace Synthesis

open Fallible

/-! ### Sessions of requests -/

/-- The progress of a session in which nothing but source types of the catalog was asked for, some of
the requests cut short by a cancellation. -/
inductive Progress.Requested (s : Synthesizer) : Progress → Prop
  | start (waitTimeoutMs : UInt64) : Requested s ⟨Session.start waitTimeoutMs, []⟩
  | cancel {p : Progress} (requested : Requested s p) :
      Requested s { p with session := p.session.cancel }
  | call {p : Progress} (requested : Requested s p) {source : SourceType}
      (known : s.catalog.Known source) : Requested s (s.synthesize source p).2
  | cut {p : Progress} (requested : Requested s p) {source : SourceType}
      (known : s.catalog.Known source) (interruption : Interruption) :
      Requested s (s.synthesizeVia (memoizeAmid interruption) source p).2

variable {s : Synthesizer} {p : Progress}

theorem Progress.Requested.layered (requested : Progress.Requested s p) (apart : s.Apart)
    (plain : s.catalog.Unsynthesized) (acyclic : s.catalog.Acyclic) :
    Layered p ∧ p.scope = [] := by
  have after {memo : Memo} (adds : memo.Adds) {source : SourceType}
      (known : s.catalog.Known source) {p : Progress} (before : Layered p ∧ p.scope = []) :
      Layered (s.synthesizeVia memo source p).2 ∧ (s.synthesizeVia memo source p).2.scope = [] := by
    have layers :=
      (Synthesizer.adds_synthesizeVia adds apart acyclic plain known before.1 before.2).after
    exact ⟨layers.layered, layers.scope.trans before.2⟩
  induction requested with
  | start timeout => exact ⟨layered_start timeout, rfl⟩
  | cancel requested ih => exact ⟨ih.1.cancel, ih.2⟩
  | @call p requested source known ih =>
    exact after adds_memoize known ih
  | cut requested known interruption ih => exact after (adds_memoizeAmid interruption) known ih

/-- In every session in which nothing but source types were asked for, successfully or not, each type
was completed after types with the names of all its dependencies, if no source type refers back to
itself. -/
theorem dependenciesFirst_of_requested (s : Synthesizer)
    (dotless : ∀ t ∈ s.catalog.types, t.name.Dotless) (plain : s.catalog.Unsynthesized)
    (acyclic : s.catalog.Acyclic) {p : Progress} (requested : Progress.Requested s p) :
    DependenciesFirst p.session.types :=
  (requested.layered (Synthesizer.apart_of_dotless dotless) plain acyclic).1.sorted

/-- The seller of a claim is unknown, so its wrappers are not made; what was made on the way backs the
wrappers of an order. -/
theorem dependenciesFirst_of_requested_shop :
    let price : SourceType := { name := ⟨"Shop", "Price"⟩, members := [
      { name := "Amount", type := .primitive .i64 }] }
    let line : SourceType := { name := ⟨"Shop", "Line"⟩, kind := .struct, members := [
      { name := "Price", type := .named ⟨"Shop", "Price"⟩ }] }
    let order : SourceType := { name := ⟨"Shop", "Order"⟩, members := [
      { name := "Lines", type := .array (.named ⟨"Shop", "Line"⟩) }] }
    let claim : SourceType := { name := ⟨"Shop", "Claim"⟩, members := [
      { name := "Line", type := .named ⟨"Shop", "Line"⟩ },
      { name := "Seller", type := .named ⟨"Shop", "Seller"⟩ }] }
    let s : Synthesizer := ⟨⟨[price, line, order, claim], []⟩, {}⟩
    let claimed := s.synthesize claim ⟨.start 1, []⟩
    let ordered := s.synthesize order claimed.2
    (∀ t ∈ s.catalog.types, t.name.Dotless) ∧ s.catalog.Unsynthesized ∧ s.catalog.Acyclic ∧
      claimed.1.toOption = none ∧ Progress.Requested s ordered.2 ∧
      ordered.2.session.types.map (·.name.simple) =
        ["IPrice", "PriceProxy", "ILine", "LineProxy", "Line", "IOrder", "OrderProxy", "FluentOrder"] ∧
      DependenciesFirst ordered.2.session.types := by
  intro price line order claim s claimed ordered
  have dotless : ∀ t ∈ s.catalog.types, t.name.Dotless := by decide +kernel
  have plain : s.catalog.Unsynthesized := by decide +kernel
  have acyclic : s.catalog.Acyclic := SourceCatalog.acyclic_of_earlier (by decide +kernel)
  have ofClaim : s.catalog.Known claim := by unfold SourceCatalog.Known; decide +kernel
  have ofOrder : s.catalog.Known order := by unfold SourceCatalog.Known; decide +kernel
  have requested : Progress.Requested s ordered.2 := .call (.call (.start 1) ofClaim) ofOrder
  exact ⟨dotless, plain, acyclic, by decide +kernel, requested, by decide +kernel,
    dependenciesFirst_of_requested s dotless plain acyclic requested⟩

/-- Where simple names have dots, a type can be completed while the interface that it depends on seems to be
in progress, and that interface is another one. -/
theorem dependenciesFirst_dotted :
    let outer : SourceType :=
      { name := ⟨"A.IB", "C"⟩, members := [{ name := "X", type := .named ⟨"A", "B.IC"⟩ }] }
    let inner : SourceType :=
      { name := ⟨"A", "B.IC"⟩, members := [{ name := "Y", type := .primitive .i32 }] }
    let s : Synthesizer := ⟨⟨[inner, outer], []⟩, {}⟩
    let p := (s.synthesize outer ⟨.start 1, []⟩).2
    s.catalog.Unsynthesized ∧ s.catalog.Acyclic ∧ Progress.Requested s p ∧
      ¬ DependenciesFirst p.session.types := by
  intro outer inner s p
  have known : s.catalog.Known outer := by unfold SourceCatalog.Known; decide +kernel
  have plain : s.catalog.Unsynthesized := by decide +kernel
  have acyclic : s.catalog.Acyclic := SourceCatalog.acyclic_of_earlier (by decide +kernel)
  refine ⟨plain, acyclic, .call (.start 1) known, fun first => ?_⟩
  have dependency : (p.session.types.head?.map (·.dependencies.contains ⟨"A", "IB.IC"⟩)) = some true := by
    decide +kernel
  obtain ⟨t, listed, depends⟩ := Option.map_eq_some_iff.1 dependency
  obtain ⟨after, split⟩ := List.head?_eq_some_iff.1 listed
  obtain ⟨other, isIn, -⟩ := first [] t after split ⟨"A", "IB.IC"⟩ (List.contains_iff_mem.1 depends)
  cases isIn

end Synthesis

end FluentWrappers
