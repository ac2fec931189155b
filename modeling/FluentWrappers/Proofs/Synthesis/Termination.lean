import FluentWrappers.Proofs.Source.Inheritance
import FluentWrappers.Proofs.Synthesis.Attempts
import FluentWrappers.Proofs.Synthesis.Product
import Mathlib.Data.List.ProdSigma

/-!
# Synthesis comes to an end

The members of source types refer to each other in any way, and every production resolves all members
of its source. But a production is only asked for under a key that is not in the scope, and the scope
holds keys of source types. So productions do not nest deeper than there are products of source types,
and it is of no account what would be answered where more of them were under way.
-/

namespace FluentWrappers.Synthesis

open Fallible

namespace Synthesizer

/-! ### What may be under way -/

/-- Whatever can be made of source types. -/
def pairs (sources : List SourceType) : List (ProductKind × SourceType) :=
  ProductKind.all ×ˢ sources.dedup

/-- The scope holds keys of source types, each once. -/
structure Holds (s : Synthesizer) (sources : List SourceType) (scope : List CacheKey) : Prop where
  distinct : scope.Nodup
  owned : ∀ key ∈ scope, ∃ u ∈ sources, key ∈ s.memberKeys u

/-- A production may be begun: its key is not under way, and with it the scope is no larger than there
are products of the sources. -/
structure MayBegin (s : Synthesizer) (sources : List SourceType) (key : CacheKey)
    (scope : List CacheKey) : Prop extends Holds s sources scope where
  idle : key ∉ scope
  depth : (key :: scope).length ≤ (pairs sources).length

variable {s : Synthesizer} {sources : List SourceType} {scope : List CacheKey} {key : CacheKey}
  {u : SourceType}

theorem mem_pairs (kind : ProductKind) (isSource : u ∈ sources) : (kind, u) ∈ pairs sources := by
  have isKind : kind ∈ ProductKind.all := by cases kind <;> decide
  exact List.mem_product.2 ⟨isKind, List.mem_dedup.2 isSource⟩

theorem keyOf_mem_pairs (kind : ProductKind) (isSource : u ∈ sources) :
    s.keyOf kind u ∈ (pairs sources).map fun pair => s.keyOf pair.1 pair.2 :=
  List.mem_map.2 ⟨(kind, u), mem_pairs kind isSource, rfl⟩

theorem mem_pairs_of_mem_memberKeys (isSource : u ∈ sources) (isKey : key ∈ s.memberKeys u) :
    key ∈ (pairs sources).map fun pair => s.keyOf pair.1 pair.2 := by
  obtain rfl | rfl | rfl := mem_memberKeys.1 isKey
  · exact keyOf_mem_pairs .interface isSource
  · exact keyOf_mem_pairs .proxy isSource
  · exact keyOf_mem_pairs .structClone isSource

theorem holds_nil (s : Synthesizer) (sources : List SourceType) : Holds s sources [] :=
  ⟨List.nodup_nil, nofun⟩

theorem Holds.enter (holds : Holds s sources scope) (isSource : u ∈ sources)
    (isKey : key ∈ s.memberKeys u) (idle : key ∉ scope) : Holds s sources (key :: scope) where
  distinct := holds.distinct.cons idle
  owned other isIn := by
    obtain rfl | isIn := List.mem_cons.1 isIn
    · exact ⟨u, isSource, isKey⟩
    · exact holds.owned other isIn

/-- Distinct keys in the scope belong to distinct products. -/
theorem Holds.mayBegin (holds : Holds s sources scope) (idle : key ∉ scope)
    (isPair : key ∈ (pairs sources).map fun pair => s.keyOf pair.1 pair.2) :
    MayBegin s sources key scope where
  toHolds := holds
  idle := idle
  depth := by
    have among : key :: scope ⊆ (pairs sources).map (fun pair => s.keyOf pair.1 pair.2) := by
      refine List.cons_subset.2 ⟨isPair, fun other isIn => ?_⟩
      obtain ⟨u, isSource, isKey⟩ := holds.owned other isIn
      exact mem_pairs_of_mem_memberKeys isSource isKey
    have few := (List.subperm_of_subset (holds.distinct.cons idle) among).length_le
    rwa [List.length_map] at few

theorem Holds.mayBegin_member (holds : Holds s sources scope) (isSource : u ∈ sources)
    (isKey : key ∈ s.memberKeys u) (idle : key ∉ scope) : MayBegin s sources key scope :=
  holds.mayBegin idle (mem_pairs_of_mem_memberKeys isSource isKey)

end Synthesizer

/-! ### Steps that do the same -/

section

variable {α β : Type} {scope : List CacheKey} {key : CacheKey}

/-- From the scope on both steps do the same, and the scope is the same after them. -/
def Alike (scope : List CacheKey) (x y : Synth α) : Prop :=
  ∀ p : Progress, p.scope = scope → x p = y p ∧ (y p).2.scope = scope

theorem Alike.of_unchanged {x : Synth α} (unchanged : ∀ p, (x p).2 = p) : Alike scope x x := by
  intro p within
  rw [unchanged]
  exact ⟨rfl, within⟩

theorem alike_pure (a : α) : Alike scope (pure a) (pure a) := .of_unchanged fun _ => rfl

theorem alike_throw (e : SynthesisError) : Alike scope (throw e : Synth α) (throw e) :=
  .of_unchanged fun _ => rfl

theorem alike_lift (x : Except SynthesisError α) : Alike scope (liftM x : Synth α) (liftM x) :=
  .of_unchanged fun _ => rfl

theorem Alike.bind_of_ok {x y : Synth α} {f g : α → Synth β} (first : Alike scope x y)
    (next : ∀ a p q, y p = (.ok a, q) → Alike scope (f a) (g a)) :
    Alike scope (x >>= f) (y >>= g) := by
  intro p within
  obtain ⟨same, kept⟩ := first p within
  rcases run : y p with ⟨error | a, q⟩
  · rw [run] at same kept
    rw [bind_error same, bind_error run]
    exact ⟨rfl, kept⟩
  · rw [run] at same kept
    rw [bind_ok same, bind_ok run]
    exact next a p q run q kept

theorem Alike.bind {x y : Synth α} {f g : α → Synth β} (first : Alike scope x y)
    (next : ∀ a, Alike scope (f a) (g a)) : Alike scope (x >>= f) (y >>= g) :=
  first.bind_of_ok fun a _ _ _ => next a

theorem Alike.attempt {x y : Synth α} (same : Alike scope x y) :
    Alike scope (attempt x) (attempt y) := by
  intro p within
  obtain ⟨same, kept⟩ := same p within
  unfold Synthesis.attempt
  rw [same]
  exact ⟨rfl, kept⟩

theorem alike_mapM {f g : α → Synth β} (each : ∀ a, Alike scope (f a) (g a)) (list : List α) :
    Alike scope (list.mapM f) (list.mapM g) := by
  induction list with
  | nil => exact alike_pure []
  | cons a list ih =>
    rw [List.mapM_cons, List.mapM_cons]
    exact (each a).bind fun _ => ih.bind fun _ => alike_pure _

/-- A step that is begun only if its key is not in the scope. -/
theorem alike_unless_inScope {y : Synth α} {x x' : Synth α} (same : Alike scope y y)
    (fresh : key ∉ scope → Alike scope x x') :
    Alike scope (inScope key >>= fun isIn => if isIn then y else x)
      (inScope key >>= fun isIn => if isIn then y else x') := by
  intro p within
  have seen : inScope key p = (.ok (scope.contains key), p) := within ▸ rfl
  rw [bind_ok seen, bind_ok seen]
  cases isIn : scope.contains key with
  | true => exact same p within
  | false => exact fresh (mt List.contains_iff_mem.2 (Bool.not_eq_true _ ▸ isIn)) p within

/-- Productions that do the same with their key in the scope give the type of the key alike. -/
theorem Alike.memoize {produce produce' : Synth (Option SynthesizedType)}
    (run : Alike (key :: scope) produce produce') :
    Alike scope (memoize key produce) (memoize key produce') := by
  rintro p rfl
  cases stopped : p.cache.cancelled with
  | true =>
    rw [memoize_cancelled stopped, memoize_cancelled stopped]
    exact ⟨rfl, rfl⟩
  | false =>
    cases bound : p.cache.slotOf? key with
    | some slot =>
      let begun : Progress := { p with scope := key :: p.scope }
      have bound' : begun.cache.slotOf? key = some slot := bound
      rw [memoize_of_answer stopped (getOrCreate_bound bound'),
        memoize_of_answer stopped (getOrCreate_bound bound')]
      exact ⟨rfl, rfl⟩
    | none =>
      -- only here a production runs, and with its key in the scope
      obtain ⟨same, kept⟩ := run (p.enter key) rfl
      rcases ended : produce' (p.enter key) with ⟨error | type, q⟩
      all_goals
        rw [ended] at same kept
        have scope : q.scope.tail = p.scope := congrArg List.tail kept
      · rw [memoize_of_error stopped bound same, memoize_of_error stopped bound ended]
        exact ⟨rfl, scope⟩
      · rw [memoize_of_ok stopped bound same, memoize_of_ok stopped bound ended]
        exact ⟨rfl, scope⟩

end

/-! ### Members and their types -/

namespace Synthesizer

section

variable {s : Synthesizer} {scope : List CacheKey}

theorem alike_resolveMembers {dereference dereference' : TypeRef → Synth TypeRef}
    (replaces : ∀ type, Alike scope (dereference type) (dereference' type)) (source : SourceType) :
    Alike scope (s.resolveMembers dereference source) (s.resolveMembers dereference' source) := by
  have ofMember (m : Member) :
      Alike scope (s.resolveMember dereference source m) (s.resolveMember dereference' source m) := by
    refine (replaces m.type).attempt.bind ?_
    rintro (e | type)
    · refine .of_unchanged fun _ => ?_
      dsimp only
      split <;> rfl
    · exact alike_pure _
  refine (alike_lift _).bind fun members => ?_
  split
  · exact alike_pure _
  · split
    · exact alike_pure _
    · exact (alike_mapM ofMember members).bind fun _ => alike_pure _

variable {named named' : TypeName → Synth TypeRef}

mutual

theorem alike_replaceType (replaces : ∀ name, Alike scope (named name) (named' name))
    (type : TypeRef) : Alike scope (s.replaceType named type) (s.replaceType named' type) := by
  unfold Synthesizer.replaceType
  cases type with
  | named name => exact replaces name
  | array element => exact (alike_replaceType replaces element).bind fun _ => alike_pure _
  | generic definition args =>
    dsimp only
    split
    · exact (alike_replaceTypes replaces args).bind fun _ => alike_pure _
    · exact alike_throw _
  | primitive | string | object | synthesized => exact alike_pure _

theorem alike_replaceTypes (replaces : ∀ name, Alike scope (named name) (named' name))
    (types : List TypeRef) :
    Alike scope (s.replaceTypes named types) (s.replaceTypes named' types) := by
  unfold Synthesizer.replaceTypes
  cases types with
  | nil => exact alike_pure _
  | cons type rest =>
    refine (alike_replaceType replaces type).bind fun _ => ?_
    exact (alike_replaceTypes replaces rest).bind fun _ => alike_pure _

end

end

end Synthesizer

/-! ### Requests that may begin a production -/

/-- The way to have types is the usual one for the requests of the kind. -/
def Memo.AgreesOn (memo : Memo) (asked : CacheKey → List CacheKey → Prop) : Prop :=
  ∀ key produce (p : Progress), asked key p.scope → memo key produce p = memoize key produce p

namespace Synthesizer

section

variable {s : Synthesizer} {sources : List SourceType} {memo : Memo}
  (agrees : memo.AgreesOn (s.MayBegin sources))

include agrees

theorem alike_request {scope : List CacheKey} {key : CacheKey}
    {produce produce' : Synth (Option SynthesizedType)} (mayBegin : s.MayBegin sources key scope)
    (run : Alike (key :: scope) produce produce') :
    Alike scope (memo key produce) (memoize key produce') := by
  rintro p rfl
  rw [agrees key produce p mayBegin]
  exact Alike.memoize run p rfl

variable {scope : List CacheKey} {members members' : MemberResolver}

theorem alike_fluentVia {proxy : SynthesizedType} (interface : SynthesizedType)
    (options : TypeOptions) (mayBegin : s.MayBegin sources
      ⟨.fluent, (fluentName s.options proxy.name).canonical⟩ scope) :
    Alike scope (s.fluentVia memo proxy interface options)
      (s.fluent proxy interface options) := by
  refine alike_request agrees mayBegin ?_
  split
  · exact alike_pure _
  · exact (alike_lift _).bind fun _ => alike_pure _

section

variable {u : SourceType} (holds : s.Holds sources scope) (isSource : u ∈ sources)
  (resolves : ∀ key ∈ s.memberKeys u, key ∉ scope →
    Alike (key :: scope) (members u) (members' u))

include holds isSource resolves

theorem alike_interfaceVia (idle : s.interfaceKey u ∉ scope) :
    Alike scope (s.interfaceVia memo members u) (s.interfaceVia memoize members' u) := by
  have isKey : s.interfaceKey u ∈ s.memberKeys u := List.mem_cons_self
  refine alike_request agrees (holds.mayBegin_member isSource isKey idle) ?_
  refine (resolves _ isKey idle).bind ?_
  rintro (_ | members)
  · exact alike_pure _
  · exact alike_pure _

theorem alike_proxyVia (idle : s.proxyKey u ∉ scope) (interface : Option TypeName) :
    Alike scope (s.proxyVia memo members u interface)
      (s.proxyVia memoize members' u interface) := by
  have isKey : s.proxyKey u ∈ s.memberKeys u := mem_memberKeys.2 (.inr (.inl rfl))
  refine alike_request agrees (holds.mayBegin_member isSource isKey idle) ?_
  refine (resolves _ isKey idle).bind ?_
  rintro (_ | members)
  · exact alike_pure _
  · exact (alike_lift _).bind fun _ => alike_pure _

theorem alike_ensureInterfaceVia :
    Alike scope (s.ensureInterfaceVia memo members u)
      (s.ensureInterfaceVia memoize members' u) := by
  refine alike_unless_inScope (alike_pure _) fun idle => ?_
  refine (alike_interfaceVia agrees holds isSource resolves idle).bind ?_
  rintro (_ | interface)
  · exact alike_throw _
  · exact alike_pure _

theorem alike_ensureProxyVia (interface : TypeName) :
    Alike scope (s.ensureProxyVia memo members u interface)
      (s.ensureProxyVia memoize members' u interface) := by
  refine alike_unless_inScope (alike_pure _) fun idle => ?_
  exact (alike_proxyVia agrees holds isSource resolves idle _).bind fun _ => alike_pure _

theorem alike_cloneStructVia :
    Alike scope (s.cloneStructVia memo members u) (s.cloneStructVia memoize members' u) := by
  refine (alike_ensureInterfaceVia agrees holds isSource resolves).bind fun interface => ?_
  refine (alike_ensureProxyVia agrees holds isSource resolves interface).bind fun _ => ?_
  refine alike_unless_inScope (alike_pure _) fun idle => ?_
  have isKey : cloneKey u ∈ s.memberKeys u := mem_memberKeys.2 (.inr (.inr rfl))
  refine (alike_request agrees (holds.mayBegin_member isSource isKey idle) ?_).bind fun clone => ?_
  · refine (resolves _ isKey idle).bind ?_
    rintro (_ | members)
    · exact alike_pure _
    · exact (alike_lift _).bind fun _ => alike_pure _
  · exact .of_unchanged fun _ => by cases clone <;> rfl

theorem alike_referenceInterfaceVia :
    Alike scope (s.referenceInterfaceVia memo members u)
      (s.referenceInterfaceVia memoize members' u) := by
  refine (alike_ensureInterfaceVia agrees holds isSource resolves).bind fun interface => ?_
  exact (alike_ensureProxyVia agrees holds isSource resolves interface).bind fun _ => alike_pure _

end

omit agrees in
theorem enumKey_notMem (holds : s.Holds sources scope) (name : String) :
    ⟨.enumClone, name⟩ ∉ scope := by
  intro isIn
  obtain ⟨u, -, isKey⟩ := holds.owned _ isIn
  rcases mem_memberKeys.1 isKey with same | same | same <;> cases congrArg CacheKey.kind same

theorem alike_replaceNamedVia (holds : s.Holds sources scope)
    (catalog : s.catalog.types ⊆ sources)
    (resolves : ∀ u ∈ sources, ∀ key ∈ s.memberKeys u, key ∉ scope →
      Alike (key :: scope) (members u) (members' u)) (name : TypeName) :
    Alike scope (s.replaceNamedVia memo members name) (s.replaceNamedVia memoize members' name) := by
  refine (alike_lift _).bind_of_ok fun source p q found => ?_
  have isSource : source ∈ sources := by
    rw [lift_apply] at found
    have found := SourceCatalog.require_eq_ok_iff.1 (congrArg Prod.fst found)
    exact catalog (SourceCatalog.known_of_get? found).mem
  have resolves := resolves source isSource
  split
  case h_1 underlying literals isEnum =>
    have mayBegin : s.MayBegin sources ⟨.enumClone, source.canonical⟩ scope :=
      holds.mayBegin (enumKey_notMem holds _) (keyOf_mem_pairs .enumClone isSource)
    refine (alike_request agrees mayBegin (alike_pure _)).bind fun clone => ?_
    exact .of_unchanged fun _ => by cases clone <;> rfl
  case h_2 =>
    split
    · exact alike_pure _
    · split
      · exact alike_cloneStructVia agrees holds isSource resolves
      · exact alike_referenceInterfaceVia agrees holds isSource resolves

/-- Where the fuel would be out, the scope would hold more keys than there are. -/
theorem alike_dereferenceNamedOver (bottom : TypeName → Synth TypeRef)
    (catalog : s.catalog.types ⊆ sources) {fuel : Nat} (holds : s.Holds sources scope)
    (room : 3 * sources.length < fuel + scope.length) (name : TypeName) :
    Alike scope (s.dereferenceNamedOver memo bottom fuel name)
      (s.dereferenceNamedVia memoize fuel name) := by
  -- on the fuel, for all scopes: each key that is entered makes up for the fuel that is gone
  induction fuel generalizing scope name with
  | zero =>
    have few := length_le_of_memberKeys holds.distinct holds.owned
    omega
  | succ fuel ih =>
    refine alike_replaceNamedVia agrees holds catalog (fun u isSource key isKey idle => ?_) name
    refine alike_resolveMembers (fun type => alike_replaceType (fun name => ?_) type) u
    refine ih (holds.enter isSource isKey idle) ?_ name
    rw [List.length_cons]
    omega

end

theorem alike_synthesizeOver {s : Synthesizer} {memo : Memo} {source : SourceType}
    (agrees : memo.AgreesOn (s.MayBegin (source :: s.catalog.types)))
    (bottom : TypeName → Synth TypeRef) :
    Alike [] (s.synthesizeOver memo bottom source) (s.synthesize source) := by
  let sources := source :: s.catalog.types
  have nothing : s.Holds sources [] := holds_nil s sources
  have isSource : source ∈ sources := List.mem_cons_self
  have resolves : ∀ key ∈ s.memberKeys source, key ∉ ([] : List CacheKey) →
      Alike [key] (s.membersOver memo bottom source) (s.members source) := by
    intro key isKey idle
    refine alike_resolveMembers (fun type => alike_replaceType (fun name => ?_) type) source
    refine alike_dereferenceNamedOver agrees bottom (List.subset_cons_self _ _)
      (nothing.enter isSource isKey idle) ?_ name
    simp only [nestingBound, List.length_cons, List.length_nil]
    omega
  refine (alike_interfaceVia agrees nothing isSource resolves List.not_mem_nil).bind ?_
  rintro (_ | interface)
  · exact alike_pure _
  refine (alike_proxyVia agrees nothing isSource resolves List.not_mem_nil _).bind ?_
  rintro (_ | proxy)
  · exact alike_pure _
  -- the cache of any session may hold a proxy of any name, so only the size of the scope is known
  have mayBegin : s.MayBegin sources
      ⟨.fluent, (fluentName s.options proxy.name).canonical⟩ [] :=
    ⟨nothing, List.not_mem_nil, List.length_pos_of_mem (mem_pairs .fluent isSource)⟩
  refine (alike_fluentVia agrees interface source.options mayBegin).bind ?_
  rintro (_ | fluent)
  · exact alike_pure _
  · exact alike_pure _

theorem alike_dereferenceOver {s : Synthesizer} {memo : Memo}
    (agrees : memo.AgreesOn (s.MayBegin s.catalog.types)) (bottom : TypeName → Synth TypeRef)
    (type : TypeRef) : Alike [] (s.dereferenceOver memo bottom type) (s.dereference type) := by
  refine alike_replaceType (fun name => ?_) type
  refine alike_dereferenceNamedOver agrees bottom (List.Subset.refl _) (holds_nil s _) ?_ name
  rw [nestingBound, List.length_nil]
  omega

end Synthesizer

/-! ### All calls -/

/-- Synthesis never comes to the bottom, whatever that would answer, and asks for no types but under
keys of which a production may begin, so that it can do without any others. The bases of a source type
come to an end too. A key that a call completes is completed by it once. -/
theorem synthesis_ends (s : Synthesizer) (session : Session) (memo : Memo)
    (bottom : TypeName → Synth TypeRef) :
    (∀ source, memo.AgreesOn (s.MayBegin (source :: s.catalog.types)) →
      s.synthesizeOver memo bottom source ⟨session, []⟩ = s.synthesize source ⟨session, []⟩) ∧
    (∀ type, memo.AgreesOn (s.MayBegin s.catalog.types) →
      s.dereferenceOver memo bottom type ⟨session, []⟩ = s.dereference type ⟨session, []⟩) ∧
    (∀ source fuel, s.catalog.types.length < fuel →
      s.catalog.chainWithin fuel [] source = s.catalog.chain source) ∧
    (session.cache.Tidy → ∀ call : Call,
      CompletesOnce ⟨session, []⟩ (call.after s ⟨session, []⟩)) := by
  refine ⟨fun source agrees => ?_, fun type agrees => ?_, ?_, fun tidy call => ?_⟩
  · exact (Synthesizer.alike_synthesizeOver agrees bottom _ rfl).1
  · exact (Synthesizer.alike_dereferenceOver agrees bottom type _ rfl).1
  · exact fun source fuel enough => SourceCatalog.chainWithin_eq_chain enough
  · have kept : (⟨session, []⟩ : Progress).cache.Tidy := tidy
    obtain ⟨tidy', attempted⟩ := respected_attempted.afterVia respected_attempted.carries s kept call
    exact attempted.completesOnce tidy'

def listName : TypeName := ⟨"System.Collections.Generic", "List"⟩

def node : SourceType where
  name := ⟨"Graph", "Node"⟩
  members := [
    { name := "Next", type := .named ⟨"Graph", "Node"⟩ },
    { name := "Cells", type := .array (.named ⟨"Graph", "Cell"⟩) },
    { name := "Owner", type := .named ⟨"Graph", "Owner"⟩ }]

def cell : SourceType where
  name := ⟨"Graph", "Cell"⟩
  kind := .struct
  members := [
    { name := "Inner", type := .named ⟨"Graph", "Cell"⟩ },
    { name := "Nodes", type := .generic listName [.named ⟨"Graph", "Node"⟩] }]

def owner : SourceType where
  name := ⟨"Graph", "Owner"⟩
  base := some ⟨"Graph", "Owner"⟩
  members := [{ name := "Root", type := .named ⟨"Graph", "Node"⟩ }]

/-- A node refers to itself, a struct contains itself, both refer to each other, and a type inherits
from itself. -/
def graph : Synthesizer where
  catalog := ⟨[node, cell, owner], [listName.canonical]⟩
  options := { failFast := false }

/-- A memo that refuses a key that is under way. -/
def guarded : Memo := fun key produce p =>
  if key ∈ p.scope then (.error .cancelled, p) else memoize key produce p

theorem agreesOn_guarded (s : Synthesizer) (sources : List SourceType) :
    guarded.AgreesOn (s.MayBegin sources) := fun _ _ _ mayBegin => if_neg mayBegin.idle

theorem synthesis_ends_graph :
    guarded.AgreesOn (graph.MayBegin (node :: graph.catalog.types)) ∧
      (Session.start 1).cache.Tidy ∧
      (graph.synthesizeOver guarded (fun _ => throw .cancelled) node ⟨Session.start 1, []⟩).1.isOk =
        true ∧
      CompletesOnce ⟨Session.start 1, []⟩
        ((Call.synthesize node).after graph ⟨Session.start 1, []⟩) := by
  have agrees := agreesOn_guarded graph (node :: graph.catalog.types)
  have tidy : (Session.start 1).cache.Tidy := Cache.tidy_empty 1
  obtain ⟨same, -, -, once⟩ :=
    synthesis_ends graph (Session.start 1) guarded fun _ => throw .cancelled
  refine ⟨agrees, tidy, ?_, once tidy (.synthesize node)⟩
  rw [same node agrees]
  decide +kernel

end FluentWrappers.Synthesis
