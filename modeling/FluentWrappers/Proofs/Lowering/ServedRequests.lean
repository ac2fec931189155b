import FluentWrappers.Proofs.Lowering.Products
import FluentWrappers.Proofs.Synthesis.Fulfilled

/-!
# Artifacts of served requests

After requests that all succeed the closure of the wrappers they gave has an artifact, unless two of its
types have one canonical name, an enumeration has no integral primitive under it, or an interface that
takes the root object's name is left out.
-/

namespace FluentWrappers

theorem TypeName.eq_of_canonical_rootObject {n : TypeName} (same : n.canonical = rootObject) :
    n = ⟨"", rootObject⟩ := by
  obtain ⟨namespaceName, simple⟩ := n
  unfold canonical at same
  dsimp only at same
  split at same
  case isTrue none =>
    rw [String.isEmpty_iff.1 none, same]
  case isFalse =>
    have dot : '.' ∈ rootObject.toList := by
      rw [← same, String.toList_append, String.toList_append]
      simp
    exact absurd dot (by decide)

namespace Synthesis

open Lowering
open Synthesizer (apart_of_dotless)

/-! ### What requests give -/

def Response.wrappers : Response → List Wrappers
  | .synthesized (.ok (some w)) => [w]
  | _ => []

def Wrappers.names (w : Wrappers) : List TypeName :=
  [w.interface.name, w.proxy.name, w.fluent.name]

/-- The names of the wrappers that responses give, in order. -/
def wrapperNames (responses : List Response) : List TypeName :=
  (responses.flatMap Response.wrappers).flatMap Wrappers.names

variable {s : Synthesizer} {old : CacheKey → Prop} {session : Session} {sources : List SourceType}
  {root u v : SourceType}

/-- Every source type with members gets its wrappers, if all requests succeed. -/
theorem wrappersOf_mem_serve (apart : s.Apart) (known : ∀ u ∈ sources, s.catalog.Known u)
    (lawful : Lawful s old ⟨session, []⟩)
    (succeed : ∀ response ∈ (s.serve session (sources.map .synthesize)).1, response.Succeeds)
    (isIn : u ∈ sources) (some : s.hasMembers u = true) :
    s.wrappersOf u ∈
      (s.serve session (sources.map .synthesize)).1.flatMap Response.wrappers := by
  induction sources generalizing session with
  | nil => exact absurd isIn List.not_mem_nil
  | cons first rest ih =>
    obtain ⟨knownFirst, knownRest⟩ := List.forall_mem_cons.1 known
    obtain ⟨succeeds, succeedRest⟩ := List.forall_mem_cons.1 succeed
    refine List.mem_flatMap.2 ?_
    rcases List.mem_cons.1 isIn with rfl | isIn
    · obtain ⟨made, result⟩ := succeeds
      have ran : Synthesizer.run session (s.synthesize u) = (.ok made, _) := Prod.ext result rfl
      obtain ⟨-, results, -⟩ := Synthesizer.run_synthesize apart knownFirst lawful ran
      refine ⟨.synthesized (.ok made), result ▸ List.mem_cons_self, ?_⟩
      obtain ⟨-, ⟨-, empty⟩ | ⟨rfl, -⟩⟩ := results made rfl
      · rw [Synthesizer.hasMembers_of_extract_nil empty] at some
        cases some
      · exact List.mem_singleton_self _
    · have admits : s.Admits (.synthesize first) := knownFirst
      have step := Synthesizer.answer_step apart admits lawful
      obtain ⟨response, isResponse, isMade⟩ :=
        List.mem_flatMap.1 (ih knownRest step.lawful succeedRest isIn)
      exact ⟨response, List.mem_cons_of_mem _ isResponse, isMade⟩

/-! ### Companions -/

theorem known_of_looks (known : s.catalog.Known u) (path : Relation.ReflTransGen s.Looks u v) :
    s.catalog.Known v := by
  rcases Relation.ReflTransGen.cases_tail path with rfl | ⟨_, -, -, needs⟩
  · exact known
  · exact needs.known

/-- Whoever asks for the proxy of a source type asks for its interface. -/
theorem makes_interface (apart : s.Apart) (known : s.catalog.Known root) (known' : s.catalog.Known u)
    (makes : s.Makes root (s.keyOf .proxy u)) : s.Makes root (s.keyOf .interface u) := by
  obtain ⟨some, isKey | ⟨name, isIn, v, found, w, path, isKey⟩⟩ := makes
  · obtain ⟨rfl, -⟩ := (isWrapperKey_iff apart known known').1 isKey
    exact ⟨some, Or.inl (Or.inl rfl)⟩
  · have isKnown := known_of_looks (SourceCatalog.known_of_get? found) path
    obtain rfl := eq_of_mem_mentionKeys apart known' isKnown isKey
    rcases keyOf_mem_mentionKeys_iff.1 isKey with ⟨foreign, -⟩ | ⟨other, -⟩
    · exact ⟨some, Or.inr ⟨name, isIn, v, found, u, path,
        s.interfaceKey_mem_mentionKeys foreign⟩⟩
    · cases other

/-- Only the synthesis of a source type itself asks for its fluent wrapper. -/
theorem eq_of_makes_fluent (apart : s.Apart) (known : s.catalog.Known root)
    (known' : s.catalog.Known u) (makes : s.Makes root (s.keyOf .fluent u)) : u = root := by
  obtain ⟨-, isKey | ⟨name, isIn, v, found, w, path, isKey⟩⟩ := makes
  · exact ((isWrapperKey_iff apart known known').1 isKey).1
  · have isKnown := known_of_looks (SourceCatalog.known_of_get? found) path
    obtain rfl := eq_of_mem_mentionKeys apart known' isKnown isKey
    rcases keyOf_mem_mentionKeys_iff.1 isKey with ⟨-, other | other | ⟨other, -⟩⟩ | ⟨other, -⟩ <;>
      cases other

/-! ### Sessions in which wrappers are together -/

/-- All types are products. A proxy comes with its interface, and a fluent wrapper with its interface and
its proxy, which are roots. -/
structure Accompanied (s : Synthesizer) (types : List SynthesizedType) (roots : List TypeName) :
    Prop where
  products : ∀ t ∈ types, ∃ u, s.catalog.Known u ∧ s.product u t.kind = some t
  proxy : ∀ u t, s.catalog.Known u → s.product u .proxy = some t → t ∈ types →
    s.madeInterface u ∈ types
  fluent : ∀ u t, s.catalog.Known u → s.product u .fluent = some t → t ∈ types →
    ∀ t ∈ [s.madeInterface u, s.madeProxy u], t ∈ types ∧ t.name ∈ roots

section

variable {kind : ProductKind} {t : SynthesizedType} {timeout : UInt64}

theorem Lawful.made_of_mem (lawful : Lawful s old ⟨session, []⟩) (isIn : t ∈ session.types)
    (made : s.product u kind = some t) : Progress.Made ⟨session, []⟩ (s.keyOf kind u) := by
  obtain ⟨key, has⟩ := (lawful.listed t).1 isIn
  obtain ⟨-, -, -, -, -, isKey⟩ := lawful.exists_product has
  rw [← Synthesizer.key_of_product made, isKey]
  exact ⟨t, has⟩

theorem Lawful.mem_of_made (lawful : Lawful s old ⟨session, []⟩) (apart : s.Apart)
    (known : s.catalog.Known u) (isMade : Progress.Made ⟨session, []⟩ (s.keyOf kind u))
    (made : s.product u kind = some t) : t ∈ session.types := by
  obtain ⟨type, has⟩ := isMade
  obtain rfl := Option.some.inj ((lawful.has_product apart known has).symm.trans made)
  exact (lawful.listed type).2 ⟨_, has⟩

theorem accompanied_serve (apart : s.Apart) (known : ∀ u ∈ sources, s.catalog.Known u)
    (succeed : ∀ response ∈ (s.serve (Session.start timeout) (sources.map .synthesize)).1,
      response.Succeeds) :
    Accompanied s (s.serve (Session.start timeout) (sources.map .synthesize)).2.types
      (wrapperNames (s.serve (Session.start timeout) (sources.map .synthesize)).1) := by
  have admits : ∀ request ∈ sources.map Request.synthesize, s.Admits request := by
    simpa [Synthesizer.Admits] using known
  have start := lawful_start s timeout
  have lawful := Synthesizer.serve_lawful apart admits start
  obtain ⟨-, -, orders⟩ :=
    Synthesizer.serve_succeeds apart admits succeed start (whole_start s timeout)
  have made (key : CacheKey) :
      Progress.Made ⟨(s.serve (Session.start timeout) (sources.map .synthesize)).2, []⟩ key ↔
        ∃ root ∈ sources, s.Makes root key := by
    rw [orders key, or_iff_right not_made_start]
    simp [Synthesizer.Orders]
  refine ⟨fun t isIn => Synthesizer.exists_product_of_mem lawful isIn, ?proxy, ?fluent⟩
  case proxy =>
    intro u t isKnown isProxy isIn
    have some := Synthesizer.hasMembers_of_product isProxy nofun
    obtain ⟨root, isSource, makes⟩ := (made _).1 (lawful.made_of_mem isIn isProxy)
    have makes := makes_interface apart (known root isSource) isKnown makes
    exact lawful.mem_of_made apart isKnown ((made _).2 ⟨root, isSource, makes⟩)
      (Synthesizer.product_interface some)
  case fluent =>
    intro u t isKnown isFluent isIn
    have some := Synthesizer.hasMembers_of_product isFluent nofun
    obtain ⟨root, isSource, makes⟩ := (made _).1 (lawful.made_of_mem isIn isFluent)
    obtain rfl := eq_of_makes_fluent apart (known root isSource) isKnown makes
    have wrappers := wrappersOf_mem_serve apart known start succeed isSource some
    have named (name : TypeName) (isName : name ∈ (s.wrappersOf u).names) :
        name ∈ wrapperNames (s.serve (Session.start timeout) (sources.map .synthesize)).1 :=
      List.mem_flatMap.2 ⟨_, wrappers, isName⟩
    have interface : s.madeInterface u ∈
        (s.serve (Session.start timeout) (sources.map .synthesize)).2.types :=
      lawful.mem_of_made apart isKnown ((made _).2 ⟨u, isSource, some, Or.inl (Or.inl rfl)⟩)
        (Synthesizer.product_interface some)
    have proxy : s.madeProxy u ∈
        (s.serve (Session.start timeout) (sources.map .synthesize)).2.types :=
      lawful.mem_of_made apart isKnown ((made _).2 ⟨u, isSource, some, Or.inl (Or.inr (Or.inl rfl))⟩)
        (Synthesizer.product_proxy some)
    refine List.forall_mem_cons.2 ⟨⟨interface, named _ List.mem_cons_self⟩, ?_⟩
    exact List.forall_mem_singleton.2
      ⟨proxy, named _ (List.mem_cons_of_mem _ List.mem_cons_self)⟩

end

/-! ### Closures link up -/

section

variable {roots : List TypeName} {t : SynthesizedType}
  (accompanied : Accompanied s session.types roots)
  (distinct : ((session.closure roots).map (·.canonical)).Nodup)

include accompanied distinct

/-- With a proxy its interface is in the closure, but for one that takes the root object's name. -/
theorem Accompanied.interface_mem (known : s.catalog.Known u) (isIn : s.madeProxy u ∈ session.closure roots)
    (isProxy : s.product u .proxy = some (s.madeProxy u))
    (other : (s.productName u .interface).canonical ≠ rootObject) :
    s.madeInterface u ∈ session.closure roots := by
  obtain ⟨isType, reached⟩ := Session.mem_closure.1 isIn
  have isInterface := accompanied.proxy u _ known isProxy isType
  by_cases self : s.productName u .interface = (s.madeProxy u).name
  · have sameName : (s.madeInterface u).name = (s.madeProxy u).name := self
    exact Session.mem_closure.2 ⟨isInterface, sameName ▸ reached⟩
  · have isMentioned : s.productName u .interface ∈ (s.madeProxy u).mentionedNames := by
      have isListed : s.productName u .interface ∈ (s.madeProxy u).interfaces :=
        List.mem_singleton_self _
      unfold SynthesizedType.mentionedNames
      simp [isListed]
    exact Session.mem_closure_of_dependency (nodup_names distinct) isIn
      (mem_dependencies.2 ⟨isMentioned, self, other⟩) isInterface rfl

/-- A type of the closure that has the name of a proxy's interface is this interface. -/
theorem Accompanied.eq_interface (known : s.catalog.Known u)
    (isIn : s.madeProxy u ∈ session.closure roots)
    (isProxy : s.product u .proxy = some (s.madeProxy u)) {i : SynthesizedType}
    (isType : i ∈ session.closure roots)
    (isNamed : i.canonical = (s.productName u .interface).canonical) : i = s.madeInterface u := by
  have isInterface : s.madeInterface u ∈ session.closure roots := by
    by_cases root : (s.productName u .interface).canonical = rootObject
    · -- one name only has the root object's as its canonical form
      have sameName : i.name = (s.madeInterface u).name :=
        (TypeName.eq_of_canonical_rootObject (isNamed.trans root)).trans
          (TypeName.eq_of_canonical_rootObject root).symm
      have isListed := accompanied.proxy u _ known isProxy (Session.mem_closure.1 isIn).1
      exact Session.mem_closure.2 ⟨isListed, sameName ▸ (Session.mem_closure.1 isType).2⟩
    · exact accompanied.interface_mem distinct known isIn isProxy root
  exact List.inj_on_of_nodup_map distinct isType isInterface isNamed

theorem Accompanied.linksUp (isIn : t ∈ session.closure roots) :
    LinksUp (session.closure roots) t := by
  obtain ⟨isType, -⟩ := Session.mem_closure.1 isIn
  obtain ⟨u, known, made⟩ := accompanied.products t isType
  rcases Synthesizer.of_product made with
    ⟨underlying, literals, -, -, rfl⟩ |
      ⟨some, ⟨-, rfl⟩ | ⟨-, rfl⟩ | ⟨-, rfl⟩ | ⟨-, -, rfl⟩⟩
  · exact Lowering.linksUp_of_unbound rfl nofun nofun
  · exact linksUp_interface
  · exact linksUp_proxy isIn fun i isType isNamed =>
      accompanied.eq_interface distinct known isIn made isType isNamed
  · exact linksUp_struct isIn
  · have companions := accompanied.fluent u _ known made isType
    obtain ⟨interface, isRoot⟩ := companions _ List.mem_cons_self
    obtain ⟨proxy, isRoot'⟩ := companions _ (List.mem_cons_of_mem _ (List.mem_singleton_self _))
    exact linksUp_fluent isIn (Session.mem_closure_of_root isRoot' proxy)
      (Session.mem_closure_of_root isRoot interface)

theorem Accompanied.mem_of_interface (isIn : t ∈ session.closure roots) {name : TypeName}
    (isListed : name ∈ t.interfaces) (other : name.canonical ≠ rootObject) :
    name.canonical ∈ (session.closure roots).map (·.canonical) := by
  obtain ⟨isType, -⟩ := Session.mem_closure.1 isIn
  obtain ⟨u, known, made⟩ := accompanied.products t isType
  rcases Synthesizer.of_product made with
    ⟨underlying, literals, -, -, rfl⟩ |
      ⟨some, ⟨-, rfl⟩ | ⟨-, rfl⟩ | ⟨-, rfl⟩ | ⟨-, -, rfl⟩⟩
  case inr.inr.inl =>
    obtain rfl := List.mem_singleton.1 isListed
    exact List.mem_map_of_mem (accompanied.interface_mem distinct known isIn made other)
  all_goals exact absurd isListed List.not_mem_nil

end

/-! ### Artifacts -/

/-- The closure of all wrappers that a fresh session gives for the source types. -/
def Synthesizer.requestedTypes (s : Synthesizer) (timeout : UInt64) (sources : List SourceType) :
    List SynthesizedType :=
  (s.serve (Session.start timeout) (sources.map .synthesize)).2.closure
    (wrapperNames (s.serve (Session.start timeout) (sources.map .synthesize)).1)

/-- After requests that all succeed lowering can only fail because a canonical name comes twice, for an
enumeration without an integral primitive, or for an interface that takes the root object's name and is
not among the types: then it fails. -/
theorem lower_requestedTypes (s : Synthesizer) (timeout : UInt64) (sources : List SourceType)
    (dotless : ∀ t ∈ s.catalog.types, t.name.Dotless) (known : ∀ u ∈ sources, s.catalog.Known u)
    (succeed : ∀ response ∈ (s.serve (Session.start timeout) (sources.map .synthesize)).1,
      response.Succeeds)
    (indexable : (referenceTable (s.requestedTypes timeout sources)).length ≤ UInt32.size)
    (runtime : RuntimeNames) (metadata : Metadata) :
    let types := s.requestedTypes timeout sources
    ((∃ artifact, lower runtime metadata types = .ok artifact) ↔
      (types.map (·.canonical)).Nodup ∧ (∀ t ∈ types, t.kind = .enumClone → HasIntegral t) ∧
        ∀ t ∈ types, ∀ name ∈ t.interfaces, name.canonical = rootObject →
          rootObject ∈ types.map (·.canonical)) ∧
    ∀ e, lower runtime metadata types = .error e →
      (¬ (types.map (·.canonical)).Nodup ∧
        ∃ t ∈ types, e = .lowering (.emittedTwice t.canonical)) ∨
      (∃ t ∈ types, t.kind = .enumClone ∧ ¬ HasIntegral t ∧
        e = .lowering (.unsound (.invalidEnum t.canonical))) ∨
      ∃ t ∈ types, ∃ name ∈ t.interfaces, name.canonical = rootObject ∧
        rootObject ∉ types.map (·.canonical) ∧
          e = .lowering (.unsound (.unresolvedInterface t.canonical rootObject)) := by
  intro types
  have accompanied := accompanied_serve (apart_of_dotless dotless) known succeed
  have built (t : SynthesizedType) (isIn : t ∈ types) : ∀ m ∈ t.methods, m.IsBuilt := by
    obtain ⟨u, -, made⟩ := accompanied.products t (Session.mem_closure.1 isIn).1
    exact isBuilt_of_product made
  have obstacle (e : SynthesisError) (failed : lower runtime metadata types = .error e) :
      ∃ fault, Obstacle types fault ∧ e = .lowering fault :=
    obstacle_of_lower_error indexable built
      (fun distinct t isIn => accompanied.linksUp distinct isIn) failed
  have isRoot {t : SynthesizedType} {name : TypeName} (distinct : (types.map (·.canonical)).Nodup)
      (isIn : t ∈ types) (isListed : name ∈ t.interfaces)
      (missing : name.canonical ∉ types.map (·.canonical)) : name.canonical = rootObject := by
    by_contra other
    exact missing (accompanied.mem_of_interface distinct isIn isListed other)
  refine ⟨⟨?necessary, ?sufficient⟩, ?faults⟩
  case necessary =>
    rintro ⟨artifact, lowered⟩
    obtain ⟨distinct, integral, interfaces⟩ := parts_of_lower lowered
    exact ⟨distinct, integral, fun t isIn name isListed root => root ▸ interfaces t isIn name isListed⟩
  case sufficient =>
    rintro ⟨distinct, integral, named⟩
    cases lowered : lower runtime metadata types with
    | ok artifact => exact ⟨artifact, rfl⟩
    | error e =>
      obtain ⟨fault, ⟨-, again⟩ | ⟨-, isIn, isEnum, bare⟩ | ⟨-, isIn, isListed, missing⟩, -⟩ :=
        obstacle e lowered
      · exact absurd distinct again
      · exact absurd (integral _ isIn isEnum) bare
      · have root := isRoot distinct isIn isListed missing
        exact absurd (named _ isIn _ isListed root) (root ▸ missing)
  case faults =>
    intro e failed
    obtain ⟨fault, ⟨isIn, again⟩ | ⟨-, isIn, isEnum, bare⟩ | ⟨distinct, isIn, isListed, missing⟩,
      rfl⟩ := obstacle e failed
    · exact Or.inl ⟨again, _, isIn, rfl⟩
    · exact Or.inr (Or.inl ⟨_, isIn, isEnum, bare, rfl⟩)
    · have root := isRoot distinct isIn isListed missing
      exact Or.inr (Or.inr ⟨_, isIn, _, isListed, root, root ▸ missing, by rw [root]⟩)

theorem requestedTypes_of_reachWithin? {s : Synthesizer} {timeout : UInt64}
    {sources : List SourceType} {fuel : Nat} {all : List TypeName}
    (within : reachWithin? (s.serve (Session.start timeout) (sources.map .synthesize)).2.types fuel
      (wrapperNames (s.serve (Session.start timeout) (sources.map .synthesize)).1) [] = some all) :
    s.requestedTypes timeout sources =
      (s.serve (Session.start timeout) (sources.map .synthesize)).2.types.filter fun t =>
        all.contains t.name :=
  Session.closure_of_reachWithin? within

theorem reachWithin?_requested :
    reachWithin? (post.serve (Session.start 1) ([parcel].map .synthesize)).2.types 20
      (wrapperNames (post.serve (Session.start 1) ([parcel].map .synthesize)).1) [] = some
        (⟨"Post", "FluentParcel"⟩ :: ⟨"Post", "ParcelProxy"⟩ :: ⟨"Post", "Unit"⟩ ::
          ⟨"Post", "Size"⟩ :: [⟨"Post", "IParcel"⟩]) := by
  decide +kernel

/-- The wrappers of a parcel have an artifact, with the clones of its size and of the size's unit. -/
theorem lower_requestedTypes_post :
    (∀ t ∈ post.catalog.types, t.name.Dotless) ∧ (∀ u ∈ [parcel], post.catalog.Known u) ∧
      (∀ response ∈ (post.serve (Session.start 1) ([parcel].map .synthesize)).1,
        response.Succeeds) ∧
      (referenceTable (post.requestedTypes 1 [parcel])).length ≤ UInt32.size ∧
      ∃ artifact, lower (runtimeNames post.catalog) {} (post.requestedTypes 1 [parcel]) =
        .ok artifact := by
  have dotless : ∀ t ∈ post.catalog.types, t.name.Dotless := by decide +kernel
  have known : ∀ u ∈ [parcel], post.catalog.Known u := by unfold SourceCatalog.Known; decide +kernel
  have succeed : ∀ response ∈ (post.serve (Session.start 1) ([parcel].map .synthesize)).1,
      response.Succeeds := by decide +kernel
  have types := requestedTypes_of_reachWithin? reachWithin?_requested
  have indexable : (referenceTable (post.requestedTypes 1 [parcel])).length ≤ UInt32.size := by
    rw [types]
    decide +kernel
  obtain ⟨lowers, -⟩ := lower_requestedTypes post 1 [parcel] dotless known succeed indexable
    (runtimeNames post.catalog) {}
  refine ⟨dotless, known, succeed, indexable, lowers.2 ⟨?_, ?_, ?_⟩⟩
  · rw [types]
    decide +kernel
  · unfold HasIntegral
    rw [types]
    decide +kernel
  · rw [types]
    decide +kernel

/-! ### Interfaces left out -/

def bject : SourceType where
  name := ⟨"", "bject"⟩
  members := [{ name := "X", type := .primitive .i32 }]

def holder : SourceType where
  name := ⟨"", "Holder"⟩
  members := [
    { name := "A", type := .named ⟨"", "bject"⟩ },
    { name := "B", type := .synthesized ⟨"", "bjectProxy"⟩ }]

/-- With this prefix the interface of `bject` takes the root object's name. -/
def rooted : Synthesizer where
  catalog := ⟨[bject, holder], []⟩
  options := { interfacePrefix := "o" }

theorem reachWithin?_rooted :
    reachWithin? (rooted.serve (Session.start 1) ([holder].map .synthesize)).2.types 20
      (wrapperNames (rooted.serve (Session.start 1) ([holder].map .synthesize)).1) [] = some
        (⟨"", "FluentHolder"⟩ :: ⟨"", "HolderProxy"⟩ :: ⟨"", "bjectProxy"⟩ ::
          [⟨"", "oHolder"⟩]) := by
  decide +kernel

def outerPart : SourceType where
  name := ⟨"A.IB", "C"⟩
  members := [{ name := "X", type := .primitive .i32 }]

def innerPart : SourceType where
  name := ⟨"A", "B.IC"⟩
  members := [{ name := "Y", type := .primitive .i32 }]

/-- The interfaces of the two parts have one canonical name, as a simple name has a dot. -/
def dotted : Synthesizer where
  catalog := ⟨[outerPart, innerPart], []⟩
  options := {}

theorem reachWithin?_dotted :
    reachWithin? (dotted.serve (Session.start 1) ([outerPart, innerPart].map .synthesize)).2.types 20
      (wrapperNames (dotted.serve (Session.start 1) ([outerPart, innerPart].map .synthesize)).1) [] =
        some (⟨"A", "FluentB.IC"⟩ :: ⟨"A", "B.ICProxy"⟩ :: ⟨"A.IB", "FluentC"⟩ ::
          ⟨"A.IB", "CProxy"⟩ :: [⟨"A.IB", "IC"⟩]) := by
  decide +kernel

/-- All requests succeed and there are wrappers. The canonical names in their closure are distinct, and it
has no clones of enumerations. -/
structure Flawless (s : Synthesizer) (sources : List SourceType) : Prop where
  known : ∀ u ∈ sources, s.catalog.Known u
  succeed : ∀ response ∈ (s.serve (Session.start 1) (sources.map .synthesize)).1, response.Succeeds
  wrappers : wrapperNames (s.serve (Session.start 1) (sources.map .synthesize)).1 ≠ []
  distinct : ((s.requestedTypes 1 sources).map (·.canonical)).Nodup
  noEnums : ∀ t ∈ s.requestedTypes 1 sources, t.kind ≠ .enumClone

/-- Lowering fails for an interface with the root object's name that the closure leaves out, and for an
interface that stands for those of two source types, as no simple name without dots allows. -/
theorem flawless_requests_fail_to_lower :
    ((∀ t ∈ rooted.catalog.types, t.name.Dotless) ∧ Flawless rooted [holder] ∧
      lower (runtimeNames rooted.catalog) {} (rooted.requestedTypes 1 [holder]) =
        .error (.lowering (.unsound (.unresolvedInterface "bjectProxy" rootObject)))) ∧
    Flawless dotted [outerPart, innerPart] ∧
      lower (runtimeNames dotted.catalog) {} (dotted.requestedTypes 1 [outerPart, innerPart]) =
        .error (.lowering (.unsound (.unresolvedMember "A.IB.IC" "set_Y"))) := by
  have ofRooted := requestedTypes_of_reachWithin? reachWithin?_rooted
  have ofDotted := requestedTypes_of_reachWithin? reachWithin?_dotted
  refine ⟨⟨by decide +kernel, ?rooted, ?refused⟩, ?dotted, ?unresolved⟩
  case rooted =>
    refine ⟨by unfold SourceCatalog.Known; decide +kernel, by decide +kernel, by decide +kernel, ?_, ?_⟩
    · rw [ofRooted]
      decide +kernel
    · rw [ofRooted]
      decide +kernel
  case refused =>
    rw [ofRooted]
    decide +kernel
  case dotted =>
    refine ⟨by unfold SourceCatalog.Known; decide +kernel, by decide +kernel, by decide +kernel, ?_, ?_⟩
    · rw [ofDotted]
      decide +kernel
    · rw [ofDotted]
      decide +kernel
  case unresolved =>
    rw [ofDotted]
    decide +kernel

end Synthesis

end FluentWrappers
