import FluentWrappers.Proofs.Lowering.FluentSetters

/-!
# Members and their fields

What a member of a proxy shows is what its backing field holds. Setting a member changes what another
one shows exactly if both have the same backing field: members whose names differ in no more than the
case of the first letter share one.
-/

namespace FluentWrappers

open Fallible Machine Loaded Lowering Synthesis
open Synthesizer (run)

namespace Machine

theorem Heap.Stored.read {heap later : Heap} {p q : Nat} {field name : String} {value old : Value}
    {inst : Instance} (stored : heap.Stored later p field value) (alive : heap.get? q = some inst)
    (isField : inst.get? name = some old) : ∃ inst', later.get? q = some inst' ∧
      inst'.get? name = some (if q = p ∧ name = field then value else old) := by
  by_cases same : q = p
  · subst same
    obtain ⟨before, after, alive', isAfter, -, isStored, others⟩ := stored.cell
    obtain rfl := Option.some.inj (alive.symm.trans alive')
    refine ⟨after, isAfter, ?_⟩
    by_cases isName : name = field
    · rw [if_pos ⟨rfl, isName⟩, isName, isStored]
    · rw [if_neg fun both => isName both.2, others name isName, isField]
  · rw [if_neg fun both => same both.1]
    exact ⟨inst, (stored.others q same).trans alive, isField⟩

namespace Loaded

/-- An instance of the wrapper type whose object property gives the proxy. -/
structure HoldsProxy (m : Loaded) (fluent objectProperty : String) (heap : Heap) (w p : Nat) :
    Prop where
  wrapper : m.IsInstanceOf heap fluent w
  object : m.getProperty (.object w) objectProperty heap = (.ok (.object p), heap)

/-- A member is read as a value, by the property of the proxy and by the fluent getter of every wrapper
that holds the proxy, if there is one. -/
structure Shows (m : Loaded) (fluent objectProperty : String) (settersOnly : Bool) (heap : Heap)
    (p : Nat) (mem : Member) (value : Value) : Prop where
  property : m.getProperty (.object p) mem.name heap = (.ok value, heap)
  getter : ∀ w, m.HoldsProxy fluent objectProperty heap w p →
    mem.hasFluentGetter settersOnly = true →
      m.invoke (.object w) mem.fluentGetter [] heap = (.ok value, heap)

section

variable {m : Loaded} {c : FluentContext} {source : SourceType} {members : List Member}
  {options : TypeOptions} {fluent proxy : TypeDefinition} {heap later : Heap} {w p q : Nat}
  {mem other : Member} {value : Value} (indexable : m.artifact.memberRefs.length ≤ UInt32.size)
  (ofProxy : m.Carries (proxyOf c.proxy source members (some c.interface)) proxy)
  (ofFluent : m.Carries
    (fluentOf c (proxyOf c.proxy source members (some c.interface)) options) fluent)
  (distinct : (members.map (·.name)).Nodup)
  (unambiguous : Unambiguous (c.wantedOf options members)) (apart : fluent.name ≠ proxy.name)

omit distinct in
theorem isInstance_of_isInstanceOf {type : TypeDefinition} (known : type ∈ m.artifact.types)
    (isInstance : m.IsInstanceOf heap type.name p) : m.IsInstance heap type p := by
  obtain ⟨type', found, isInstance⟩ := isInstance
  cases (lookup_of_mem known).symm.trans found
  exact isInstance

include indexable ofFluent unambiguous apart

theorem HoldsProxy.wraps (holds : m.HoldsProxy fluent.name c.objectProperty heap w p)
    (isInstance : m.IsInstance heap proxy p) : m.Wraps c.object.name fluent proxy heap w p := by
  obtain ⟨wrapper, alive, named, has⟩ := isInstance_of_isInstanceOf ofFluent.known holds.wrapper
  obtain ⟨held, isField⟩ := Option.isSome_iff_exists.1 (has_object ofFluent has)
  have shown := getProperty_held indexable ofFluent unambiguous alive named isField
  cases shown.symm.trans holds.object
  refine ⟨?_, ⟨wrapper, alive, named, isField⟩, isInstance⟩
  rintro rfl
  obtain ⟨inst, alive', named', -⟩ := isInstance
  obtain rfl := Option.some.inj (alive.symm.trans alive')
  exact apart (named.symm.trans named')

include ofProxy distinct

/-- A member shows what its backing field holds. -/
theorem shows_field (isIn : mem ∈ members) (isInstance : m.IsInstance heap proxy p)
    {inst : Instance} (alive : heap.get? p = some inst)
    (isField : inst.get? (backingField mem.name) = some value) :
    m.Shows fluent.name c.objectProperty options.settersOnly heap p mem value where
  property := getProperty_proxy indexable ofProxy distinct isIn isInstance alive isField
  getter _ holds wanted := by
    have wraps := holds.wraps indexable ofFluent unambiguous apart isInstance
    exact invoke_getter indexable ofProxy ofFluent distinct unambiguous isIn wraps wanted alive
      isField

/-- After one backing field of a proxy was set, a member of any proxy shows the new value if that is its
backing field, and otherwise what it showed before. -/
theorem shows_stored {field : String} (isOther : other ∈ members)
    (isInstance : m.IsInstance heap proxy q) :
    ∃ before, m.Shows fluent.name c.objectProperty options.settersOnly heap q other before ∧
      ∀ later, heap.Stored later p field value →
        m.Shows fluent.name c.objectProperty options.settersOnly later q other
          (if q = p ∧ backingField other.name = field then value else before) := by
  obtain ⟨inst, before, alive, -, isField⟩ := exists_field ofProxy isOther isInstance
  refine ⟨before, ?now, fun later stored => ?later⟩
  case now =>
    exact shows_field indexable ofProxy ofFluent distinct unambiguous apart isOther isInstance alive
      isField
  case later =>
    obtain ⟨inst', alive', isField'⟩ := stored.read alive isField
    exact shows_field indexable ofProxy ofFluent distinct unambiguous apart isOther
      (isInstance.stored stored) alive' isField'

end

end Loaded

end Machine

/-! ### Proxies and wrappers of a source type -/

namespace Synthesis

/-- From the one heap to the other, members of proxies show what they showed before, but in the one proxy
those with the member's backing field show the value. -/
def ChangesField (m : Loaded) (s : Synthesizer) (root : SourceType) (w : Wrappers) (heap later : Heap)
    (p : Nat) (mem : Member) (value : Value) : Prop :=
  ∀ q other, m.IsInstanceOf heap w.proxy.canonical q → s.catalog.EligibleMember root other →
    ∃ before,
      m.Shows w.fluent.canonical s.options.objectProperty root.options.settersOnly heap q other before ∧
      m.Shows w.fluent.canonical s.options.objectProperty root.options.settersOnly later q other
        (if q = p ∧ backingField other.name = backingField mem.name then value else before)

section

variable {s : Synthesizer} {root : SourceType} {timeout : UInt64} {w : Wrappers}
  {runtime : RuntimeNames} {metadata : Metadata} {m : Loaded}

/-- The artifact of the wrappers carries the proxy and the fluent wrapper, under different names. -/
theorem exists_wrapper_types (unique : ∀ u, s.catalog.get? root.name = some u → u = root)
    (succeeds : (run (Session.start timeout) (s.synthesize root)).1 = .ok (some w))
    (lowered : lower runtime metadata ((run (Session.start timeout) (s.synthesize root)).2.closure
      [w.interface.name, w.proxy.name, w.fluent.name]) = .ok m.artifact) :
    ∃ members proxy fluent, Retyped s root members ∧
      m.Carries (proxyOf (s.fluentContext root).proxy root members
        (some (s.fluentContext root).interface)) proxy ∧
      m.Carries (fluentOf (s.fluentContext root) (proxyOf (s.fluentContext root).proxy root members
        (some (s.fluentContext root).interface)) root.options) fluent ∧
      Unambiguous ((s.fluentContext root).wantedOf root.options members) ∧
      proxy.name = w.proxy.canonical ∧ fluent.name = w.fluent.canonical ∧
      fluent.name ≠ proxy.name := by
  obtain ⟨shown, members, completes⟩ := completes_of_synthesize unique succeeds
  have listed := completes.listed
  simp only [List.forall_mem_cons] at listed
  obtain ⟨-, isProxy, isFluent, -⟩ := listed
  have proxyIn : w.proxy ∈ (run (Session.start timeout) (s.synthesize root)).2.closure
      [w.interface.name, w.proxy.name, w.fluent.name] :=
    Session.mem_closure_of_root (List.mem_cons_of_mem _ List.mem_cons_self) isProxy
  have fluentIn : w.fluent ∈ (run (Session.start timeout) (s.synthesize root)).2.closure
      [w.interface.name, w.proxy.name, w.fluent.name] :=
    Session.mem_closure_of_root
      (List.mem_cons_of_mem _ (List.mem_cons_of_mem _ List.mem_cons_self)) isFluent
  obtain ⟨proxy, ofProxy⟩ := exists_carries lowered proxyIn
  obtain ⟨fluent, ofFluent⟩ := exists_carries lowered fluentIn
  have proxyName : proxy.name = w.proxy.canonical := ofProxy.name_eq
  have fluentName : fluent.name = w.fluent.canonical := ofFluent.name_eq
  have isOther : w.fluent ≠ w.proxy := fun same => by
    have kinds := congrArg SynthesizedType.kind same
    rw [completes.fluent, completes.proxy] at kinds
    cases kinds
  have apart : fluent.name ≠ proxy.name := by
    obtain ⟨definitions, defined, -, -⟩ := of_lower lowered
    rw [fluentName, proxyName]
    exact fun same => isOther
      (List.inj_on_of_nodup_map (nodup_of_lowerTypes defined).1 fluentIn proxyIn same)
  rw [completes.fluent, completes.proxy] at ofFluent
  rw [completes.proxy] at ofProxy
  exact ⟨members, proxy, fluent, completes.retyped, ofProxy, ofFluent, completes.unambiguous,
    proxyName, fluentName, apart⟩

end

/-- A member of a proxy can be set by its property and by the fluent setter of any wrapper that holds the
proxy. Then the members with the same backing field show the value, and all other members, and all
members of other proxies, show what they showed before. -/
theorem setting_changes_field (s : Synthesizer) (root : SourceType) (timeout : UInt64)
    (unique : ∀ u, s.catalog.get? root.name = some u → u = root) (w : Wrappers)
    (succeeds : (run (Session.start timeout) (s.synthesize root)).1 = .ok (some w))
    (runtime : RuntimeNames) (metadata : Metadata) (artifact : Artifact)
    (lowered : lower runtime metadata ((run (Session.start timeout) (s.synthesize root)).2.closure
      [w.interface.name, w.proxy.name, w.fluent.name]) = .ok artifact)
    (indexable : artifact.memberRefs.length ≤ UInt32.size) (m : Loaded)
    (loaded : Loaded.load artifact = .ok m) :
    ∀ heap p, m.IsInstanceOf heap w.proxy.canonical p → ∀ mem, s.catalog.EligibleMember root mem →
      ∀ value,
        (∃ later, m.setProperty (.object p) mem.name value heap = (.ok (), later) ∧
          ChangesField m s root w heap later p mem value) ∧
        ∀ w', m.HoldsProxy w.fluent.canonical s.options.objectProperty heap w' p →
          ∃ later, m.invoke (.object w') mem.fluentSetter [value] heap = (.ok (.object w'), later) ∧
            ChangesField m s root w heap later p mem value := by
  obtain rfl := artifact_of_load loaded
  obtain ⟨members, proxy, fluent, retyped, ofProxy, ofFluent, unambiguous, proxyName, fluentName,
    apart⟩ := exists_wrapper_types unique succeeds lowered
  have distinct := retyped.nodup_names
  intro heap p isInstance mem eligible value
  rw [← proxyName] at isInstance
  have ofP := isInstance_of_isInstanceOf ofProxy.known isInstance
  obtain ⟨type, isIn⟩ := retyped.among eligible
  -- whatever stores the value in the backing field changes no more than that
  have changes {later : Heap} (stored : heap.Stored later p (backingField mem.name) value) :
      ChangesField m s root w heap later p mem value := by
    intro q other isOther eligibleOther
    rw [← proxyName] at isOther
    obtain ⟨type', isIn'⟩ := retyped.among eligibleOther
    obtain ⟨before, now, after⟩ := shows_stored indexable ofProxy ofFluent distinct unambiguous apart
      isIn' (isInstance_of_isInstanceOf ofProxy.known isOther)
    rw [← fluentName]
    exact ⟨before, ⟨now.property, now.getter⟩, ⟨(after _ stored).property, (after _ stored).getter⟩⟩
  constructor
  case left =>
    obtain ⟨later, runs, stored⟩ := setProperty_proxy indexable ofProxy distinct isIn ofP value
    exact ⟨later, runs, changes stored⟩
  case right =>
    intro w' holds
    rw [← fluentName] at holds
    have wraps := holds.wraps indexable ofFluent unambiguous apart ofP
    obtain ⟨later, runs, stored⟩ :=
      invoke_setter indexable ofProxy ofFluent distinct unambiguous isIn wraps value
    exact ⟨later, runs, changes stored⟩

def coordinate (name : String) : Member := { name, type := .primitive .i32 }

def plotPoint : SourceType where
  name := ⟨"Plot", "Point"⟩
  members := [coordinate "X", coordinate "x", coordinate "Y"]

/-- A point has two members that differ in case only, and another one. -/
def plot : Synthesizer where
  catalog := ⟨[plotPoint], SourceCatalog.standardGenerics⟩
  options := {}

/-- The session that has synthesized the point. -/
def plotted : Session := (run (Session.start 1) (plot.synthesize plotPoint)).2

def pointNames : List TypeName :=
  [⟨"Plot", "IPoint"⟩, ⟨"Plot", "PointProxy"⟩, ⟨"Plot", "FluentPoint"⟩]

theorem reachWithin?_plotted : reachWithin? plotted.types 20 pointNames [] = some
    (⟨"Plot", "FluentPoint"⟩ :: ⟨"Plot", "PointProxy"⟩ :: [⟨"Plot", "IPoint"⟩]) := by
  decide +kernel

/-- Types whose artifact passes a test once it is loaded can be lowered and loaded. -/
theorem exists_loaded {runtime : RuntimeNames} {metadata : Metadata} {types : List SynthesizedType}
    {test : Loaded → Bool} (passes : (match lower runtime metadata types with
      | .error _ => false
      | .ok artifact => match Loaded.load artifact with
        | .error _ => false
        | .ok m => test m) = true) :
    ∃ m, lower runtime metadata types = .ok m.artifact ∧ Loaded.load m.artifact = .ok m ∧
      test m = true := by
  cases lowered : lower runtime metadata types with
  | error e =>
    rw [lowered] at passes
    cases passes
  | ok artifact =>
    rw [lowered] at passes
    dsimp only at passes
    cases loaded : Loaded.load artifact with
    | error e =>
      rw [loaded] at passes
      cases passes
    | ok m =>
      rw [loaded] at passes
      obtain rfl := artifact_of_load loaded
      exact ⟨m, rfl, loaded, passes⟩

/-- Setting a member of a point leaves another one as it was. -/
theorem setting_changes_field_point :
    (∀ u, plot.catalog.get? plotPoint.name = some u → u = plotPoint) ∧
      (run (Session.start 1) (plot.synthesize plotPoint)).1 =
        .ok (some (plot.wrappersOf plotPoint)) ∧
      ∃ m, lower (runtimeNames plot.catalog) {} (plotted.closure pointNames) = .ok m.artifact ∧
        m.artifact.memberRefs.length ≤ UInt32.size ∧ Loaded.load m.artifact = .ok m ∧
        ∃ p built later before, m.IsInstanceOf built "Plot.PointProxy" p ∧
          m.setProperty (.object p) "X" (.int 3) built = (.ok (), later) ∧
          m.getProperty (.object p) "Y" built = (.ok before, built) ∧
          m.getProperty (.object p) "Y" later = (.ok before, later) := by
  have known : plot.catalog.get? plotPoint.name = some plotPoint := by decide +kernel
  have unique (u : SourceType) (found : plot.catalog.get? plotPoint.name = some u) :
      u = plotPoint := Option.some.inj (found.symm.trans known)
  have succeeds : (run (Session.start 1) (plot.synthesize plotPoint)).1 =
      .ok (some (plot.wrappersOf plotPoint)) := by decide +kernel
  have ofPoint : plot.catalog.extract plotPoint = .ok plotPoint.members := by decide +kernel
  have isX : plot.catalog.EligibleMember plotPoint (coordinate "X") := ⟨_, ofPoint, by decide⟩
  have isY : plot.catalog.EligibleMember plotPoint (coordinate "Y") := ⟨_, ofPoint, by decide⟩
  obtain ⟨m, lowered, loaded, builds⟩ : ∃ m,
      lower (runtimeNames plot.catalog) {} (plotted.closure pointNames) = .ok m.artifact ∧
        Loaded.load m.artifact = .ok m ∧ ((m.newObject "Plot.PointProxy" [] Heap.empty).1.isOk &&
          decide (m.artifact.memberRefs.length ≤ UInt32.size)) = true := by
    refine exists_loaded ?_
    rw [Session.closure_of_reachWithin? reachWithin?_plotted]
    decide +kernel
  obtain ⟨builds, small⟩ := (Bool.and_eq_true _ _).mp builds
  have indexable : m.artifact.memberRefs.length ≤ UInt32.size := of_decide_eq_true small
  rcases made : m.newObject "Plot.PointProxy" [] Heap.empty with ⟨e | value, built⟩
  · rw [made] at builds
    cases builds
  · obtain ⟨members, proxy, fluent, -, ofProxy, -, -, proxyName, -⟩ :=
      exists_wrapper_types unique succeeds lowered
    have proxyName : proxy.name = "Plot.PointProxy" := proxyName
    rw [← proxyName] at made
    obtain ⟨p, -, isInstance⟩ := isInstance_of_newObject indexable ofProxy made
    have isInstanceOf : m.IsInstanceOf built "Plot.PointProxy" p :=
      ⟨proxy, proxyName ▸ lookup_of_mem ofProxy.known, isInstance⟩
    obtain ⟨later, runs, changes⟩ := (setting_changes_field plot plotPoint 1 unique _ succeeds
      (runtimeNames plot.catalog) {} m.artifact lowered indexable m loaded built p isInstanceOf
      (coordinate "X") isX (.int 3)).1
    obtain ⟨before, now, after⟩ := changes p (coordinate "Y") isInstanceOf isY
    have otherField : backingField (coordinate "Y").name ≠ backingField (coordinate "X").name := by
      decide +kernel
    rw [if_neg fun both => otherField both.2] at after
    exact ⟨unique, succeeds, m, lowered, indexable, loaded, p, built, later, before, isInstanceOf,
      runs, now.property, after.property⟩

/-- Whether `x` of a new point proxy is zero until `X` is set and then has the value of `X`. -/
def showsThroughOtherCase (m : Loaded) : Bool :=
  match m.newObject "Plot.PointProxy" [] Heap.empty with
  | (.ok (.object p), built) =>
    match m.setProperty (.object p) "X" (.int 3) built with
    | (.ok (), later) =>
      decide ((m.getProperty (.object p) "x" built).1 = .ok (.int 0)) &&
        decide ((m.getProperty (.object p) "x" later).1 = .ok (.int 3))
    | _ => false
  | _ => false

/-- The members of a point that differ in case only are kept in one field: setting the one changes the
other. -/
theorem members_differing_in_case_share_field :
    SourceCatalog.empty.insert plotPoint = .ok plot.catalog ∧
      plot.catalog.EligibleMember plotPoint (coordinate "X") ∧
      plot.catalog.EligibleMember plotPoint (coordinate "x") ∧
      (run (Session.start 1) (plot.synthesize plotPoint)).1 =
        .ok (some (plot.wrappersOf plotPoint)) ∧
      ∃ m, lower (runtimeNames plot.catalog) {} (plotted.closure pointNames) = .ok m.artifact ∧
        Loaded.load m.artifact = .ok m ∧
        ∃ p built later,
          m.newObject "Plot.PointProxy" [] Heap.empty = (.ok (.object p), built) ∧
          (m.getProperty (.object p) "x" built).1 = .ok (.int 0) ∧
          m.setProperty (.object p) "X" (.int 3) built = (.ok (), later) ∧
          (m.getProperty (.object p) "x" later).1 = .ok (.int 3) := by
  have ofPoint : plot.catalog.extract plotPoint = .ok plotPoint.members := by decide +kernel
  refine ⟨by decide +kernel, ⟨_, ofPoint, by decide⟩, ⟨_, ofPoint, by decide⟩, by decide +kernel, ?_⟩
  obtain ⟨m, lowered, loaded, shares⟩ : ∃ m,
      lower (runtimeNames plot.catalog) {} (plotted.closure pointNames) = .ok m.artifact ∧
        Loaded.load m.artifact = .ok m ∧
        showsThroughOtherCase m = true := by
    refine exists_loaded ?_
    rw [Session.closure_of_reachWithin? reachWithin?_plotted]
    decide +kernel
  unfold showsThroughOtherCase at shares
  split at shares
  case h_2 => cases shares
  case h_1 p built made =>
    split at shares
    case h_2 => cases shares
    case h_1 later set =>
      obtain ⟨before, after⟩ := (Bool.and_eq_true _ _).mp shares
      exact ⟨m, lowered, loaded, p, built, later, made, of_decide_eq_true before, set,
        of_decide_eq_true after⟩

end Synthesis

end FluentWrappers
