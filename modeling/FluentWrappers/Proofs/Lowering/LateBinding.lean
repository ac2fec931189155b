import FluentWrappers.Proofs.Lowering.MemberFields

/-!
# Late-bound and generated wrappers

The members of a proxy can be set and read by name through a late-bound wrapper, or by the setters and
getters of a fluent wrapper that holds the proxy. Whatever is done in whatever order, both ways read the
same values and leave the same heap.
-/

namespace FluentWrappers

open Fallible Machine Loaded Lowering Synthesis
open Synthesizer (run)

namespace Machine

/-! ### Accesses -/

/-- What is done to an object: a member is set to a value, or read. -/
inductive MemberAccess where
  | set (member : Member) (value : Value)
  | read (member : Member)
  deriving DecidableEq, Repr

namespace MemberAccess

def member : MemberAccess → Member
  | set member _ | read member => member

/-- Fluent wrappers offer the access: a member that is read has a fluent getter. -/
def IsOffered (settersOnly : Bool) : MemberAccess → Prop
  | set _ _ => True
  | read member => member.hasFluentGetter settersOnly = true

end MemberAccess

/-- The values read by accesses one after the other through a late-bound wrapper, each set returning the
wrapper to go on with. -/
def LateBound.perform (m : Loaded) (w : LateBound) : List MemberAccess → Run (List Value)
  | [] => return []
  | .set member value :: rest => do
    let w ← w.set m member.name value
    perform m w rest
  | .read member :: rest => do
    let value ← w.get m member.name
    let others ← perform m w rest
    return value :: others

/-- The values read by accesses one after the other through the methods of a fluent wrapper, each setter
returning the wrapper to go on with. -/
def Loaded.performFluently (m : Loaded) (w : Value) : List MemberAccess → Run (List Value)
  | [] => return []
  | .set member value :: rest => do
    let w ← m.invoke w member.fluentSetter [value]
    performFluently m w rest
  | .read member :: rest => do
    let value ← m.invoke w member.fluentGetter []
    let others ← performFluently m w rest
    return value :: others

namespace Loaded

variable {m : Loaded} {c : FluentContext} {source : SourceType} {members : List Member}
  {options : TypeOptions} {fluent proxy : TypeDefinition} {heap later : Heap} {w p : Nat}
  {accesses : List MemberAccess}

section

variable {late : LateBound} {made : Value} {mem : Member} {value : Value} {values : List Value}

theorem perform_set (sets : m.setProperty late.object mem.name value heap = (.ok (), later)) :
    late.perform m (.set mem value :: accesses) heap = late.perform m accesses later := by
  have returns : late.set m mem.name value heap = (.ok late, later) := bind_ok sets
  exact bind_ok returns

theorem perform_read (gets : m.getProperty late.object mem.name heap = (.ok value, heap))
    (rest : late.perform m accesses heap = (.ok values, later)) :
    late.perform m (.read mem :: accesses) heap = (.ok (value :: values), later) := by
  have reads : late.get m mem.name heap = (.ok value, heap) := gets
  exact (bind_ok reads).trans (bind_ok rest)

theorem performFluently_set (sets : m.invoke made mem.fluentSetter [value] heap = (.ok made, later)) :
    m.performFluently made (.set mem value :: accesses) heap = m.performFluently made accesses later :=
  bind_ok sets

theorem performFluently_read (gets : m.invoke made mem.fluentGetter [] heap = (.ok value, heap))
    (rest : m.performFluently made accesses heap = (.ok values, later)) :
    m.performFluently made (.read mem :: accesses) heap = (.ok (value :: values), later) :=
  (bind_ok gets).trans (bind_ok rest)

end

section

variable (indexable : m.artifact.memberRefs.length ≤ UInt32.size)
  (ofProxy : m.Carries (proxyOf c.proxy source members (some c.interface)) proxy)
  (ofFluent : m.Carries
    (fluentOf c (proxyOf c.proxy source members (some c.interface)) options) fluent)
  (distinct : (members.map (·.name)).Nodup)
  (unambiguous : Unambiguous (c.wantedOf options members))

include indexable ofProxy ofFluent distinct unambiguous

/-- Both ways store what is set in the backing field and read what it holds. -/
theorem Wraps.perform_eq (wraps : m.Wraps c.object.name fluent proxy heap w p)
    (offered : ∀ access ∈ accesses, Among members access.member ∧
      access.IsOffered options.settersOnly) :
    ∃ values later, LateBound.perform m ⟨.object p⟩ accesses heap = (.ok values, later) ∧
      m.performFluently (.object w) accesses heap = (.ok values, later) := by
  -- after every access the wrapper still wraps the proxy
  induction accesses generalizing heap with
  | nil => exact ⟨[], heap, rfl, rfl⟩
  | cons access accesses ih =>
    obtain ⟨⟨⟨type, isIn⟩, isOffered⟩, others⟩ := List.forall_mem_cons.1 offered
    cases access with
    | set member value =>
      obtain ⟨between, stored⟩ := exists_stored ofProxy isIn wraps.proxy value
      have late := setProperty_of_setField indexable ofProxy distinct isIn wraps.proxy stored
      have fluently :=
        invoke_setter_of_setField indexable ofProxy ofFluent distinct unambiguous isIn wraps stored
      obtain ⟨values, later, performs, performsFluently⟩ :=
        ih (wraps.stored (Heap.stored_setField stored)) others
      refine ⟨values, later, ?_, ?_⟩
      · exact (perform_set late).trans performs
      · exact (performFluently_set fluently).trans performsFluently
    | read member =>
      obtain ⟨inst, value, alive, -, isField⟩ := exists_field ofProxy isIn wraps.proxy
      have late := getProperty_proxy indexable ofProxy distinct isIn wraps.proxy alive isField
      have fluently := invoke_getter indexable ofProxy ofFluent distinct unambiguous isIn wraps
        isOffered alive isField
      obtain ⟨values, later, performs, performsFluently⟩ := ih wraps others
      exact ⟨value :: values, later, perform_read late performs,
        performFluently_read fluently performsFluently⟩

omit ofProxy distinct in
theorem Wraps.holdsProxy (wraps : m.Wraps c.object.name fluent proxy heap w p) :
    m.HoldsProxy fluent.name c.objectProperty heap w p where
  wrapper := by
    obtain ⟨inst, alive, named, isField⟩ := wraps.wrapper
    refine ⟨fluent, lookup_of_mem ofFluent.known, inst, alive, named, ?_⟩
    rw [fields_fluent ofFluent, List.forall_mem_singleton]
    exact Option.isSome_iff_exists.2 ⟨_, isField⟩
  object := getProperty_object indexable ofFluent unambiguous wraps

end

end Loaded

end Machine

/-! ### Proxies of a source type -/

namespace Synthesis

/-- A wrapper that a constructor has made holds a proxy. On a proxy, accesses by name through a late-bound
wrapper and accesses by the methods of any fluent wrapper that holds it run through, read the same
values and end with the same heap. -/
theorem lateBound_performs_fluently (s : Synthesizer) (root : SourceType) (timeout : UInt64)
    (unique : ∀ u, s.catalog.get? root.name = some u → u = root) (w : Wrappers)
    (succeeds : (run (Session.start timeout) (s.synthesize root)).1 = .ok (some w))
    (runtime : RuntimeNames) (metadata : Metadata) (artifact : Artifact)
    (lowered : lower runtime metadata ((run (Session.start timeout) (s.synthesize root)).2.closure
      [w.interface.name, w.proxy.name, w.fluent.name]) = .ok artifact)
    (indexable : artifact.memberRefs.length ≤ UInt32.size) (m : Loaded)
    (loaded : Loaded.load artifact = .ok m) :
    (∀ heap args made built, m.newObject w.fluent.canonical args heap = (.ok made, built) →
      (args = [] ∨ ∃ p, args = [.object p] ∧ m.IsInstanceOf heap w.proxy.canonical p) →
      ∃ w' p, made = .object w' ∧ (args = [] ∨ args = [.object p]) ∧
        m.IsInstanceOf built w.proxy.canonical p ∧
        m.HoldsProxy w.fluent.canonical s.options.objectProperty built w' p) ∧
    ∀ heap p, m.IsInstanceOf heap w.proxy.canonical p →
      ∀ w', m.HoldsProxy w.fluent.canonical s.options.objectProperty heap w' p →
        ∀ accesses : List MemberAccess, (∀ access ∈ accesses,
          s.catalog.EligibleMember root access.member ∧
            access.IsOffered root.options.settersOnly) →
          ∃ late values later, LateBound.wrap (.object p) = .ok late ∧
            late.perform m accesses heap = (.ok values, later) ∧
            m.performFluently (.object w') accesses heap = (.ok values, later) := by
  obtain rfl := artifact_of_load loaded
  obtain ⟨members, proxy, fluent, retyped, ofProxy, ofFluent, unambiguous, proxyName, fluentName,
    apart⟩ := exists_wrapper_types unique succeeds lowered
  have distinct := retyped.nodup_names
  have lookup := lookup_of_mem ofProxy.known
  rw [← proxyName, ← fluentName]
  constructor
  case left =>
    intro heap args made built isMade isArg
    have isArg : args = [] ∨ ∃ p, args = [.object p] ∧ m.IsInstance heap proxy p :=
      isArg.imp_right fun ⟨p, isArg, isInstance⟩ =>
        ⟨p, isArg, isInstance_of_isInstanceOf ofProxy.known isInstance⟩
    obtain ⟨w', p, isObject, isArg, wraps⟩ :=
      wraps_of_newObject indexable ofProxy ofFluent unambiguous isMade isArg
    exact ⟨w', p, isObject, isArg, ⟨proxy, lookup, wraps.proxy⟩,
      wraps.holdsProxy indexable ofFluent unambiguous⟩
  case right =>
    intro heap p isInstance w' holds accesses offered
    have wraps := holds.wraps indexable ofFluent unambiguous apart
      (isInstance_of_isInstanceOf ofProxy.known isInstance)
    obtain ⟨values, later, performs, performsFluently⟩ :=
      wraps.perform_eq indexable ofProxy ofFluent distinct unambiguous fun access isIn =>
        ⟨retyped.among (offered access isIn).1, (offered access isIn).2⟩
    exact ⟨⟨.object p⟩, values, later, rfl, performs, performsFluently⟩

/-- On a new fluent point a coordinate is set and read back, and another one is read. -/
theorem lateBound_performs_fluently_point :
    (∀ u, plot.catalog.get? plotPoint.name = some u → u = plotPoint) ∧
      (run (Session.start 1) (plot.synthesize plotPoint)).1 =
        .ok (some (plot.wrappersOf plotPoint)) ∧
      ∃ m, lower (runtimeNames plot.catalog) {} (plotted.closure pointNames) = .ok m.artifact ∧
        m.artifact.memberRefs.length ≤ UInt32.size ∧ Loaded.load m.artifact = .ok m ∧
        ∃ w built p values later, m.newObject "Plot.FluentPoint" [] Heap.empty = (.ok (.object w), built) ∧
          m.HoldsProxy "Plot.FluentPoint" "Object" built w p ∧
          LateBound.perform m ⟨.object p⟩ [.set (coordinate "X") (.int 3), .read (coordinate "X"),
            .read (coordinate "Y")] built = (.ok values, later) ∧
          m.performFluently (.object w) [.set (coordinate "X") (.int 3), .read (coordinate "X"),
            .read (coordinate "Y")] built = (.ok values, later) := by
  have known : plot.catalog.get? plotPoint.name = some plotPoint := by decide +kernel
  have unique (u : SourceType) (found : plot.catalog.get? plotPoint.name = some u) :
      u = plotPoint := Option.some.inj (found.symm.trans known)
  have succeeds : (run (Session.start 1) (plot.synthesize plotPoint)).1 =
      .ok (some (plot.wrappersOf plotPoint)) := by decide +kernel
  have ofPoint : plot.catalog.extract plotPoint = .ok plotPoint.members := by decide +kernel
  have isX : plot.catalog.EligibleMember plotPoint (coordinate "X") := ⟨_, ofPoint, by decide⟩
  have isY : plot.catalog.EligibleMember plotPoint (coordinate "Y") := ⟨_, ofPoint, by decide⟩
  obtain ⟨m, lowered, loaded, builds⟩ : ∃ m,
      lower (runtimeNames plot.catalog) {} (plotted.closure pointNames) = .ok m.artifact ∧
        Loaded.load m.artifact = .ok m ∧ ((m.newObject "Plot.FluentPoint" [] Heap.empty).1.isOk &&
          decide (m.artifact.memberRefs.length ≤ UInt32.size)) = true := by
    refine exists_loaded ?_
    rw [Session.closure_of_reachWithin? reachWithin?_plotted]
    decide +kernel
  obtain ⟨builds, small⟩ := (Bool.and_eq_true _ _).mp builds
  have indexable : m.artifact.memberRefs.length ≤ UInt32.size := of_decide_eq_true small
  rcases made : m.newObject "Plot.FluentPoint" [] Heap.empty with ⟨e | value, built⟩
  · rw [made] at builds
    cases builds
  · obtain ⟨constructs, performs⟩ := lateBound_performs_fluently plot plotPoint 1 unique _ succeeds
      (runtimeNames plot.catalog) {} m.artifact lowered indexable m loaded
    obtain ⟨w, p, rfl, -, isInstance, holds⟩ := constructs _ _ _ _ made (.inl rfl)
    obtain ⟨late, values, later, wraps, lateBound, fluently⟩ := performs built p isInstance w holds
      [.set (coordinate "X") (.int 3), .read (coordinate "X"), .read (coordinate "Y")]
      (List.forall_mem_cons.2 ⟨⟨isX, trivial⟩, List.forall_mem_cons.2 ⟨⟨isX, rfl⟩,
        List.forall_mem_singleton.2 ⟨isY, rfl⟩⟩⟩)
    cases wraps
    exact ⟨unique, succeeds, m, lowered, indexable, loaded, w, built, p, values, later, made, holds,
      lateBound, fluently⟩

end Synthesis

end FluentWrappers
