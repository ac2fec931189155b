import FluentWrappers.Proofs.Lowering.Wrappers
import FluentWrappers.Proofs.Synthesis.First
import FluentWrappers.Proofs.Synthesis.Fulfilled

/-!
# Fluent setters

If a synthesis succeeds and the closure of its wrappers becomes an artifact, then on every wrapper
object a chain of fluent setters runs through: each call sets one field of the proxy and returns the
wrapper, and the value can be read back from the wrapper and from the proxy.
-/

namespace FluentWrappers

open Fallible Machine Loaded Lowering Synthesis
open Synthesizer (run)

/-! ### Calls -/

namespace Machine.Loaded

variable {m : Loaded} {heap after later : Heap} {name : String} {args : List Value} {made : Value}

/-- An instance of the type of the name. -/
def IsInstanceOf (m : Loaded) (heap : Heap) (name : String) (ref : Nat) : Prop :=
  ∃ type, m.lookup name = .ok type ∧ m.IsInstance heap type ref

/-- Calls of fluent setters one after the other, each on what the one before returned. -/
def chain (m : Loaded) (receiver : Value) (calls : List (Member × Value)) : Run Value :=
  calls.foldlM (fun receiver call => m.invoke receiver call.1.fluentSetter [call.2]) receiver

/-- The fluent setter of a member returns the wrapper and sets no field but that of the member in the
proxy. Afterwards the value is read back, and the wrapper still holds the proxy. -/
structure Sets (m : Loaded) (settersOnly : Bool) (objectProperty : String) (w p : Nat) (mem : Member)
    (value : Value) (heap later : Heap) : Prop where
  returns : m.invoke (.object w) mem.fluentSetter [value] heap = (.ok (.object w), later)
  stored : heap.Stored later p (backingField mem.name) value
  getter : mem.hasFluentGetter settersOnly = true →
    m.invoke (.object w) mem.fluentGetter [] later = (.ok value, later)
  property : m.getProperty (.object p) mem.name later = (.ok value, later)
  object : m.getProperty (.object w) objectProperty later = (.ok (.object p), later)

theorem newObject_eq {type : TypeDefinition} (known : type ∈ m.artifact.types) :
    m.newObject type.name args heap = m.construct type args heap := by
  have found : (liftM (m.lookup type.name) : Run TypeDefinition) heap = (.ok type, heap) := by
    rw [lift_apply, lookup_of_mem known]
  unfold newObject
  exact bind_ok found

theorem exists_carries {types : List SynthesizedType} {runtime : RuntimeNames} {metadata : Metadata}
    (lowered : lower runtime metadata types = .ok m.artifact) {t : SynthesizedType}
    (isIn : t ∈ types) : ∃ d, m.Carries t d := by
  obtain ⟨definitions, isLowered, assembled, -⟩ := of_lower lowered
  have table : m.artifact.memberRefs = referenceTable types := congrArg Artifact.memberRefs assembled
  have defined : m.artifact.types = definitions := congrArg Artifact.types assembled
  obtain ⟨d, isDefinition, isType⟩ := exists_definition isLowered isIn
  refine ⟨d, defined ▸ isDefinition, table ▸ isType, fun spec isSpec r isRef => ?_⟩
  rw [table]
  exact List.mem_eraseDups.2
    (List.mem_flatMap.2 ⟨t, isIn, List.mem_flatMap.2 ⟨spec, isSpec, isRef⟩⟩)

/-! ### Wrappers with their proxies -/

section

variable {c : FluentContext} {source : SourceType} {members : List Member} {options : TypeOptions}
  {fluent proxy : TypeDefinition} {w p : Nat} {mem : Member}
  (indexable : m.artifact.memberRefs.length ≤ UInt32.size)
  (ofProxy : m.Carries (proxyOf c.proxy source members (some c.interface)) proxy)
  (ofFluent : m.Carries
    (fluentOf c (proxyOf c.proxy source members (some c.interface)) options) fluent)
  (distinct : (members.map (·.name)).Nodup)
  (unambiguous : Unambiguous (c.wantedOf options members))

include indexable ofProxy ofFluent distinct unambiguous

/-- One call: what it does, and that the wrapper goes on to wrap the proxy. -/
theorem Wraps.sets_of_mem (wraps : m.Wraps c.object.name fluent proxy heap w p)
    (isIn : mem ∈ members) (value : Value) :
    ∃ later, m.Sets options.settersOnly c.objectProperty w p mem value heap later ∧
      m.Wraps c.object.name fluent proxy later w p := by
  obtain ⟨later, returns, stored⟩ :=
    invoke_setter indexable ofProxy ofFluent distinct unambiguous isIn wraps value
  have still := wraps.stored stored
  obtain ⟨-, inst, -, alive, -, isField, -⟩ := stored.cell
  refine ⟨later, ?_, still⟩
  exact {
    returns, stored
    getter := fun wanted =>
      invoke_getter indexable ofProxy ofFluent distinct unambiguous isIn still wanted alive isField
    property := getProperty_proxy indexable ofProxy distinct isIn still.proxy alive isField
    object := getProperty_object indexable ofFluent unambiguous still }

theorem Wraps.sets (wraps : m.Wraps c.object.name fluent proxy heap w p) (isIn : Among members mem)
    (value : Value) :
    ∃ later, m.Sets options.settersOnly c.objectProperty w p mem value heap later ∧
      m.Wraps c.object.name fluent proxy later w p := by
  obtain ⟨type, isIn⟩ := isIn
  obtain ⟨later, sets, still⟩ :=
    wraps.sets_of_mem indexable ofProxy ofFluent distinct unambiguous isIn value
  -- names and the wish for a getter do not depend on the type
  exact ⟨later, ⟨sets.returns, sets.stored, sets.getter, sets.property, sets.object⟩, still⟩

/-- A chain of calls runs through and ends with the wrapper, which still wraps the proxy. -/
theorem Wraps.chain (wraps : m.Wraps c.object.name fluent proxy heap w p)
    {calls : List (Member × Value)} (areIn : ∀ call ∈ calls, Among members call.1) :
    ∃ later, m.chain (.object w) calls heap = (.ok (.object w), later) ∧
      m.Wraps c.object.name fluent proxy later w p := by
  -- every call finds the wrapper wrapping the proxy and leaves it so
  induction calls generalizing heap with
  | nil => exact ⟨heap, rfl, wraps⟩
  | cons call calls ih =>
    obtain ⟨isIn, others⟩ := List.forall_mem_cons.1 areIn
    obtain ⟨between, sets, still⟩ :=
      wraps.sets indexable ofProxy ofFluent distinct unambiguous isIn call.2
    obtain ⟨later, runs, last⟩ := ih still others
    refine ⟨later, ?_, last⟩
    unfold Loaded.chain
    rw [List.foldlM_cons, bind_ok sets.returns]
    exact runs

omit ofFluent distinct unambiguous in
theorem isInstance_of_newObject (built : m.newObject proxy.name [] heap = (.ok made, later)) :
    ∃ p, made = .object p ∧ m.IsInstance later proxy p := by
  rw [newObject_eq ofProxy.known] at built
  have built : constructWith (m.executeWithin (255 + 1)) (m.allocateWithin (maxCallDepth + 1))
    proxy [] heap = (.ok made, later) := built
  obtain ⟨p, isObject, -, -, isInstance⟩ := construct_proxy indexable ofProxy built
  exact ⟨p, isObject, isInstance⟩

omit ofProxy distinct in
theorem exists_newObject {interface : TypeDefinition} {shown : List Member}
    (ofInterface : m.Carries (interfaceType c.interface source shown) interface) :
    ∃ w later, m.newObject fluent.name [.object p] heap = (.ok (.object w), later) := by
  rw [newObject_eq ofFluent.known]
  have wrapping : ∃ w later, constructWith (m.executeWithin (255 + 1))
      (m.allocateWithin (maxCallDepth + 1)) fluent [.object p] heap = (.ok (.object w), later) :=
    exists_wrapping indexable ofFluent unambiguous ofInterface
  exact wrapping

omit distinct in
theorem wraps_of_newObject (built : m.newObject fluent.name args heap = (.ok made, later))
    (isArg : args = [] ∨ ∃ p, args = [.object p] ∧ m.IsInstance heap proxy p) :
    ∃ w p, made = .object w ∧ (args = [] ∨ args = [.object p]) ∧
      m.Wraps c.object.name fluent proxy later w p := by
  rw [newObject_eq ofFluent.known] at built
  have built : constructWith (m.executeWithin (253 + 3)) (m.allocateWithin (maxCallDepth + 1))
    fluent args heap = (.ok made, later) := built
  rcases isArg with rfl | ⟨p, rfl, isInstance⟩
  · obtain ⟨w, p, isObject, wraps⟩ := construct_new indexable ofProxy ofFluent unambiguous built
    exact ⟨w, p, isObject, Or.inl rfl, wraps⟩
  · obtain ⟨w, isObject, wraps⟩ :=
      construct_wrapping indexable ofFluent unambiguous isInstance built
    exact ⟨w, p, isObject, Or.inr rfl, wraps⟩

end

end Machine.Loaded

namespace Synthesis

theorem completes_of_synthesize {s : Synthesizer} {root : SourceType} {timeout : UInt64}
    {w : Wrappers} (unique : ∀ u, s.catalog.get? root.name = some u → u = root)
    (succeeds : (run (Session.start timeout) (s.synthesize root)).1 = .ok (some w)) :
    ∃ shown members, Synthesizer.Completes s root
      (run (Session.start timeout) (s.synthesize root)).2 w shown members :=
  (Synthesizer.ends_synthesize_start unique timeout).result (Prod.ext succeeds rfl) w rfl

/-- A proxy can always be wrapped. On a wrapper that a constructor has made, whichever setters are called
in whatever order, the next one sets the field of its member in the proxy and returns the wrapper. -/
theorem wrappers_set_proxies (s : Synthesizer) (root : SourceType) (timeout : UInt64)
    (unique : ∀ u, s.catalog.get? root.name = some u → u = root) (w : Wrappers)
    (succeeds : (run (Session.start timeout) (s.synthesize root)).1 = .ok (some w))
    (runtime : RuntimeNames) (metadata : Metadata) (artifact : Artifact)
    (lowered : lower runtime metadata ((run (Session.start timeout) (s.synthesize root)).2.closure
      [w.interface.name, w.proxy.name, w.fluent.name]) = .ok artifact)
    (indexable : artifact.memberRefs.length ≤ UInt32.size) (m : Loaded)
    (loaded : Loaded.load artifact = .ok m) :
    (∀ heap made later, m.newObject w.proxy.canonical [] heap = (.ok made, later) →
      ∃ p, made = .object p ∧ m.IsInstanceOf later w.proxy.canonical p) ∧
    (∀ heap p, ∃ w' built,
      m.newObject w.fluent.canonical [.object p] heap = (.ok (.object w'), built)) ∧
    ∀ heap args made built, m.newObject w.fluent.canonical args heap = (.ok made, built) →
      (args = [] ∨ ∃ p, args = [.object p] ∧ m.IsInstanceOf heap w.proxy.canonical p) →
      ∃ w' p, made = .object w' ∧ (args = [] ∨ args = [.object p]) ∧
        m.IsInstanceOf built w.proxy.canonical p ∧
        ∀ calls, (∀ call ∈ calls, s.catalog.EligibleMember root call.1) →
          ∃ after, m.chain made calls built = (.ok made, after) ∧
            ∀ mem value, s.catalog.EligibleMember root mem → ∃ later,
              m.Sets root.options.settersOnly s.options.objectProperty w' p mem value after later := by
  obtain ⟨shown, members, completes⟩ := completes_of_synthesize unique succeeds
  have listed := completes.listed
  simp only [List.forall_mem_cons] at listed
  obtain ⟨isInterface, isProxy, isFluent, -⟩ := listed
  obtain rfl : artifact = m.artifact := by
    unfold Loaded.load at loaded
    split at loaded <;> cases loaded
    rfl
  obtain ⟨interface, ofInterface⟩ :=
    exists_carries lowered (Session.mem_closure_of_root List.mem_cons_self isInterface)
  obtain ⟨proxy, ofProxy⟩ := exists_carries lowered
    (Session.mem_closure_of_root (List.mem_cons_of_mem _ List.mem_cons_self) isProxy)
  obtain ⟨fluent, ofFluent⟩ := exists_carries lowered (Session.mem_closure_of_root
    (List.mem_cons_of_mem _ (List.mem_cons_of_mem _ List.mem_cons_self)) isFluent)
  have isProxyName : w.proxy.canonical = proxy.name := ofProxy.name_eq.symm
  have isFluentName : w.fluent.canonical = fluent.name := ofFluent.name_eq.symm
  let c := s.fluentContext root
  rw [completes.interface] at ofInterface
  rw [completes.fluent, completes.proxy] at ofFluent
  rw [completes.proxy] at ofProxy
  have ofProxy : m.Carries (proxyOf c.proxy root members (some c.interface)) proxy := ofProxy
  have lookup := lookup_of_mem ofProxy.known
  have distinct := completes.retyped.nodup_names
  have unambiguous : Unambiguous (c.wantedOf root.options members) := completes.unambiguous
  rw [isProxyName, isFluentName]
  refine ⟨?proxies, ?wrapping, ?wrappers⟩
  case proxies =>
    intro heap made later built
    obtain ⟨p, isObject, isInstance⟩ := isInstance_of_newObject indexable ofProxy built
    exact ⟨p, isObject, proxy, lookup, isInstance⟩
  case wrapping =>
    intro heap p
    exact exists_newObject indexable ofFluent unambiguous ofInterface
  case wrappers =>
    intro heap args made between built isArg
    have isArg : args = [] ∨ ∃ p, args = [.object p] ∧ m.IsInstance heap proxy p := by
      refine isArg.imp_right ?_
      rintro ⟨p, isArg, type, found, isInstance⟩
      cases lookup.symm.trans found
      exact ⟨p, isArg, isInstance⟩
    obtain ⟨w', p, rfl, isArg, wraps⟩ :=
      wraps_of_newObject indexable ofProxy ofFluent unambiguous built isArg
    refine ⟨w', p, rfl, isArg, ⟨proxy, lookup, wraps.proxy⟩, fun calls eligible => ?_⟩
    obtain ⟨after, runs, still⟩ := wraps.chain indexable ofProxy ofFluent distinct unambiguous
      fun call isIn => completes.retyped.among (eligible call isIn)
    refine ⟨after, runs, fun mem value isEligible => ?_⟩
    obtain ⟨later, sets, -⟩ := still.sets indexable ofProxy ofFluent distinct unambiguous
      (completes.retyped.among isEligible) value
    exact ⟨later, sets⟩

/-- A fluent parcel gets a size twice, the later size being none. -/
theorem wrappers_set_proxies_parcel :
    (∀ u, post.catalog.get? parcel.name = some u → u = parcel) ∧
      (run (Session.start 1) (post.synthesize parcel)).1 = .ok (some (post.wrappersOf parcel)) ∧
      ∃ artifact m, lower (runtimeNames post.catalog) {} (posted.closure parcelNames) = .ok artifact ∧
        artifact.memberRefs.length ≤ UInt32.size ∧ Loaded.load artifact = .ok m ∧
        ∃ w p built between later,
          m.newObject "Post.FluentParcel" [] Heap.empty = (.ok (.object w), built) ∧
          m.chain (.object w) [(parcel.members[0], .text "L")] built = (.ok (.object w), between) ∧
          m.Sets false "Object" w p parcel.members[0] .null between later := by
  have known : post.catalog.get? parcel.name = some parcel := by decide +kernel
  have unique (u : SourceType) (found : post.catalog.get? parcel.name = some u) : u = parcel :=
    Option.some.inj (found.symm.trans known)
  have succeeds : (run (Session.start 1) (post.synthesize parcel)).1 =
      .ok (some (post.wrappersOf parcel)) := by decide +kernel
  have ofParcel : post.catalog.extract parcel = .ok parcel.members := by decide +kernel
  have isMember : post.catalog.EligibleMember parcel parcel.members[0] :=
    ⟨_, ofParcel, List.getElem_mem _⟩
  have builds : (match lower (runtimeNames post.catalog) {} (posted.closure parcelNames) with
      | .error _ => false
      | .ok artifact => match Loaded.load artifact with
        | .error _ => false
        | .ok m => (m.newObject "Post.FluentParcel" [] Heap.empty).1.isOk &&
            decide (artifact.memberRefs.length ≤ UInt32.size)) = true := by
    rw [Session.closure_of_reachWithin? reachWithin?_posted]
    decide +kernel
  cases lowered : lower (runtimeNames post.catalog) {} (posted.closure parcelNames) with
  | error e =>
    rw [lowered] at builds
    cases builds
  | ok artifact =>
    rw [lowered] at builds
    cases loaded : Loaded.load artifact with
    | error e =>
      dsimp only at builds
      rw [loaded] at builds
      cases builds
    | ok m =>
      dsimp only at builds
      rw [loaded] at builds
      obtain ⟨builds, small⟩ := (Bool.and_eq_true _ _).mp builds
      have indexable : artifact.memberRefs.length ≤ UInt32.size := of_decide_eq_true small
      rcases made : m.newObject "Post.FluentParcel" [] Heap.empty with ⟨e | value, built⟩
      · rw [made] at builds
        cases builds
      · obtain ⟨-, -, wrap⟩ := wrappers_set_proxies post parcel 1 unique _ succeeds
          (runtimeNames post.catalog) {} artifact lowered indexable m loaded
        obtain ⟨w, p, rfl, -, -, calls⟩ := wrap _ _ _ _ made (Or.inl rfl)
        obtain ⟨between, chained, sets⟩ := calls [(parcel.members[0], .text "L")]
          (List.forall_mem_singleton.2 isMember)
        obtain ⟨later, sets⟩ := sets _ .null isMember
        exact ⟨unique, succeeds, artifact, m, rfl, indexable, loaded, w, p, built, between,
          later, made, chained, sets⟩

end Synthesis

end FluentWrappers
