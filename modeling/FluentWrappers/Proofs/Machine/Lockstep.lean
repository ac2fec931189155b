import FluentWrappers.Proofs.Machine.Dispatch
import FluentWrappers.Proofs.Machine.StackDepth

/-!
# Lockstep with the check

In an artifact that keeps the discipline of lowered code the machine and the check go hand in hand:
before every instruction the operand stack is as deep as the check computed, every frame has its
arguments, a method that gives a result ends with its return, and no run ends with a fault in a body.
The invariant that calls carry is that an activation has the arguments of its method.
-/

namespace FluentWrappers

open Fallible Machine Loaded

/-! ### The discipline -/

/-- The discipline that lowered code keeps: the root constructor takes a receiver and leaves nothing,
virtual calls take receivers, and interfaces do not overload names. -/
structure Artifact.Disciplined (a : Artifact) : Prop where
  root : ∀ r ∈ a.memberRefs, r.kind = .method → r.isRootConstructor = true →
    r.isStatic = false ∧ r.returnsValue = false
  virtual : ∀ t ∈ a.types, ∀ method ∈ t.methods, ∀ i ∈ method.instructions,
    i.opcode = .callVirt → (i.memberIn a.memberRefs).isStatic = false
  interfaces : ∀ t ∈ a.types, t.kind = .interface → (t.methods.map (·.name)).Nodup

/-- Virtual calls of the root constructor, whose reference need not resolve, pass enough arguments for
the methods that are bound to its name. -/
def Artifact.RootCallsSuffice (a : Artifact) : Prop :=
  ∀ t ∈ a.types, ∀ method ∈ t.methods, ∀ i ∈ method.instructions, i.opcode = .callVirt →
    (i.memberIn a.memberRefs).isRootConstructor = true → ∀ t' ∈ a.types, ∀ bound ∈ t'.methods,
      bound.binding = some ⟨rootObject, constructorName⟩ →
        bound.arity ≤ (i.memberIn a.memberRefs).paramCount.toNat

theorem MemberReference.isRootConstructor_iff {r : MemberReference} :
    r.isRootConstructor = true ↔ r.owner = rootObject ∧ r.name = constructorName := by
  unfold isRootConstructor
  rw [Bool.and_eq_true, beq_iff_eq, beq_iff_eq]

namespace Machine

variable {m : Loaded} {a b : Activation} {frame : Frame} {heap : Heap} {i : CodeInstruction}
  {done rest : List CodeInstruction} {depth : Nat}

/-! ### Nothing is owed -/

theorem Activation.Tracks.mem (h : a.Tracks m frame done (i :: rest) depth) :
    i ∈ a.method.instructions := by
  rw [h.walked.split]
  exact List.mem_append_right _ List.mem_cons_self

/-- The check counts every instruction of a disciplined artifact as the machine does. -/
theorem not_miscounted (disciplined : m.artifact.Disciplined) (known : a.Known m)
    (concrete : a.method.isAbstract = false) (hi : i ∈ a.method.instructions) :
    ¬ i.Miscounted m.artifact.memberRefs := by
  obtain ⟨r, done, rest, depth, walked⟩ := Method.walkedTo_of_mem known.checked concrete hi
  obtain ⟨effect, accepted⟩ := walked.accepted
  rintro (⟨op, root, miscounted⟩ | ⟨op, static⟩)
  · have needs : i.needs? = some .method := by simp only [CodeInstruction.needs?, op]
    obtain ⟨found, kind⟩ := CodeInstruction.needs_found accepted needs
    obtain ⟨receiver, nothing⟩ := disciplined.root _ (List.mem_of_getElem? found) kind root
    rcases miscounted with static | returns
    · rw [static] at receiver
      cases receiver
    · rw [returns] at nothing
      cases nothing
  · rw [disciplined.virtual _ known.type _ known.method i hi op] at static
    cases static

theorem owed_eq_zero (disciplined : m.artifact.Disciplined) (known : a.Known m)
    (concrete : a.method.isAbstract = false) {instructions : List CodeInstruction}
    (within : ∀ i ∈ instructions, i ∈ a.method.instructions) :
    owed m.artifact.memberRefs instructions = 0 := by
  by_contra owing
  obtain ⟨i, hi, some⟩ := owed_pos_iff.1 (Nat.pos_of_ne_zero owing)
  exact not_miscounted disciplined known concrete (within i hi)
    (CodeInstruction.overcount_pos_iff.1 some)

/-- The operand stack of a frame is as deep as the check computed. -/
theorem depth_eq (disciplined : m.artifact.Disciplined) (known : a.Known m)
    (held : a.Holds m frame heap) (h : a.Tracks m frame done (i :: rest) depth) :
    depth = frame.stack.length := by
  have nothing : owed m.artifact.memberRefs done = 0 := by
    refine owed_eq_zero disciplined known held.concrete fun j hj => ?_
    rw [h.walked.split]
    exact List.mem_append_left _ hj
  rw [h.balance, nothing]
  rfl

/-! ### Every activation has its arguments -/

/-- The activation has a value for each argument slot of its method. -/
def Activation.Supplied (a : Activation) : Prop := a.method.argSlots ≤ a.args.length

/-- A method bound to the one that a reference names has the parameters that the reference passes. -/
theorem bound_arity_eq (disciplined : m.artifact.Disciplined) {r : MemberReference}
    (hr : r ∈ m.artifact.memberRefs) (kind : r.kind = .method) (plain : r.isRootConstructor = false)
    {owner : TypeDefinition} {target : Method} (howner : owner ∈ m.artifact.types)
    (htarget : target ∈ owner.methods) (binding : target.binding = some ⟨r.owner, r.name⟩) :
    target.arity = r.paramCount.toNat := by
  have check := (Artifact.verify_parts m.verified).2.1 r hr
  obtain ⟨interface, x, located, named, _⟩ := Artifact.checkMemberRef_method check plain kind
  obtain ⟨interfaces, bindings⟩ := Artifact.verify_interfaces m.verified howner
  obtain ⟨listed, interface', y, located', named', _⟩ :=
    Artifact.checkBinding_resolves (bindings target htarget) binding
  rw [located] at located'
  cases located'
  have isInterface := Artifact.checkInterface_kind (interfaces _ listed) located
  have distinct := disciplined.interfaces interface (Artifact.findType?_eq_some located).1 isInterface
  obtain ⟨hx, nameX, arityX⟩ := TypeDefinition.findMethod?_eq_some named
  obtain ⟨hy, nameY, arityY⟩ := TypeDefinition.findMethod?_eq_some named'
  have same := List.inj_on_of_nodup_map distinct hx hy (nameX.trans nameY.symm)
  rw [← arityX, ← arityY, same]

theorem direct_supplied {r : MemberReference} {owner : TypeDefinition} {target : Method}
    {args : List Value} (hr : r ∈ m.artifact.memberRefs) (kind : r.kind = .method)
    (plain : r.isRootConstructor = false) (found : m.lookup r.owner = .ok owner)
    (named : owner.findMethod? r.name r.paramCount.toNat = some target)
    (count : args.length = r.paramCount.toNat + if r.isStatic then 0 else 1) :
    target.argSlots ≤ args.length := by
  have check := (Artifact.verify_parts m.verified).2.1 r hr
  obtain ⟨owner', target', located, named', static, _⟩ :=
    Artifact.checkMemberRef_method check plain kind
  have known : m.lookup r.owner = .ok owner' := by
    unfold lookup
    rw [located]
  rw [found] at known
  cases known
  rw [named] at named'
  cases named'
  have arity := (TypeDefinition.findMethod?_eq_some named).2.2
  have slots : target.argSlots = args.length := by
    unfold Method.arity at arity
    unfold Method.argSlots
    rw [static, count, arity]
  exact Nat.le_of_eq slots

theorem Activation.Calls.supplied (disciplined : m.artifact.Disciplined)
    (suffice : m.artifact.RootCallsSuffice) (known : a.Known m) (h : a.Calls m b) : b.Supplied := by
  unfold Supplied
  cases h with
  | @constructor _ _ _ _ _ _ args made constructor held action prepared =>
    obtain ⟨_, arity⟩ := (prepare_meets (allocateWithin_meets _ _)).result prepared _ rfl
    have slots := constructor.argSlots_le
    rw [List.length_cons, ← arity]
    exact slots
  | @method _ _ _ _ member owner target args held action =>
    show target.argSlots ≤ args.length
    obtain ⟨done, i, rest, depth, tracks⟩ := held.tracks known
    obtain ⟨_, next, _, _, rfl, targets, _⟩ := tracks.action_ok action
    obtain ⟨effect, accepted⟩ := tracks.walked.accepted
    have needs : i.needs? = some .method := by
      cases targets with
      | direct op => simp only [CodeInstruction.needs?, op]
      | virtual op => simp only [CodeInstruction.needs?, op]
    obtain ⟨found, kind⟩ := CodeInstruction.needs_found accepted needs
    have hr := List.mem_of_getElem? found
    cases targets with
    | direct _ plain located named count => exact direct_supplied hr kind plain located named count
    | virtual op type hType resolved count =>
      have slots := target.argSlots_le
      obtain ⟨howner, htarget, how⟩ := resolveVirtual_eq_ok hType resolved
      rcases how with binding | ⟨_, arity⟩
      · cases root : (i.memberIn m.artifact.memberRefs).isRootConstructor with
        | true =>
          obtain ⟨rootOwner, rootName⟩ := MemberReference.isRootConstructor_iff.1 root
          rw [rootOwner, rootName] at binding
          have few := suffice _ known.type _ known.method i tracks.mem op root owner howner target
            htarget binding
          rw [count]
          omega
        | false =>
          have arity := bound_arity_eq disciplined hr kind root howner htarget binding
          rw [count, ← arity]
          exact slots
      · rw [count, ← arity]
        exact slots

theorem Entry.Starts.supplied {entry : Entry} (h : entry.Starts m heap a) : a.Supplied := by
  unfold Activation.Supplied
  cases h with
  | @newObject _ _ _ _ constructor _ found prepared =>
    obtain ⟨_, arity⟩ := (prepare_meets (allocateWithin_meets _ _)).result prepared _ rfl
    have slots := constructor.argSlots_le
    rw [List.length_cons, ← arity]
    exact slots
  | @invoke _ _ _ _ target _ found =>
    obtain ⟨_, _, arity⟩ := (instanceMethod_meets _ _ _).result found
    have slots := target.argSlots_le
    rw [List.length_cons, ← arity]
    exact slots
  | @invokeStatic _ _ args _ target found =>
    obtain ⟨_, _, arity, static⟩ := staticMethod_eq_ok found
    have slots : target.argSlots = args.length := by
      unfold Method.arity at arity
      unfold Method.argSlots
      rw [static, arity]
      rfl
    exact Nat.le_of_eq slots

theorem Entry.Activates.supplied {entry : Entry} (disciplined : m.artifact.Disciplined)
    (suffice : m.artifact.RootCallsSuffice) (h : entry.Activates m heap a) : a.Supplied := by
  obtain ⟨first, starts, reached⟩ := h
  cases reached with
  | refl => exact starts.supplied
  | tail reached calls =>
    exact calls.supplied disciplined suffice (starts.known.reached reached)

/-! ### Lockstep -/

theorem enough_operands (disciplined : m.artifact.Disciplined) (known : a.Known m)
    (held : a.Holds m frame heap) (h : a.Tracks m frame done (i :: rest) depth) :
    i.takes m.artifact.memberRefs a.method.results ≤ frame.stack.length := by
  have counted := not_miscounted disciplined known held.concrete h.mem
  rw [← CodeInstruction.overcount_pos_iff, Nat.pos_iff_ne_zero, Decidable.not_not] at counted
  rw [← depth_eq disciplined known held h]
  exact Method.balanced_takes h.walked counted

/-- No action of an activation that has its arguments ends with a fault in the body. -/
theorem action_sound {e : RunError} {heap' : Heap} (disciplined : m.artifact.Disciplined)
    (known : a.Known m) (supplied : a.Supplied) (held : a.Holds m frame heap)
    (failed : m.action frame heap = (.error e, heap')) : e.Harmless := by
  obtain ⟨done, i, rest, depth, tracks⟩ := held.tracks known
  obtain ⟨_, _, _, meets⟩ := tracks.action_meets (enough_operands disciplined known held tracks)
  obtain harmless | ⟨few, _⟩ := meets.fault failed
  · exact harmless
  · rw [tracks.args, tracks.method] at few
    exact absurd supplied (Nat.not_le.2 few)

theorem returns {value : Value} {heap' : Heap} (known : a.Known m)
    (run : a.run m = (.ok value, heap')) :
    ∃ frame heap, a.Holds m frame heap ∧
      a.method.code.drop frame.code.position = [Opcode.ret.byte] ∧
      m.action frame heap = (.ok (.done value), heap') := by
  obtain ⟨e, t, _, failed⟩ | ⟨_, start⟩ := Activation.fails_or_starts m a
  · rw [failed] at run
    cases run
  · obtain ⟨fuel, enough, same⟩ := start.run_eq known
    rw [run] at same
    obtain ⟨frame, heap, held, ⟨_, _, ends, _⟩ | ⟨_, _, ends, step⟩⟩ :=
      start.last_step known enough same.symm
    · cases ends
    · cases ends
      have acted := step_eq_done step
      obtain ⟨done, i, rest, depth, tracks⟩ := held.tracks known
      obtain ⟨_, _, _, _, ret⟩ := tracks.action_ok acted
      exact ⟨frame, heap, held, tracks.walked.code_at_return ret, acted⟩

/-- How a run goes hand in hand with the check. -/
structure Lockstep (m : Loaded) (entry : Entry) (heap : Heap) : Prop where
  /-- A frame stands before an instruction, at the depth that the check computes there, and has its
  arguments. -/
  frames : ∀ a frame heap', entry.Activates m heap a → a.Holds m frame heap' →
    (∃ i ∈ a.method.instructions, i.offset = frame.code.position) ∧
      a.method.depthAt m.artifact.memberRefs frame.code.position = .ok frame.stack.length ∧
      a.method.argSlots ≤ frame.args.length
  /-- A method that gives a result comes to the return that ends its code. -/
  results : ∀ a value heap', entry.Activates m heap a → a.run m = (.ok value, heap') →
    ∃ frame heap'', a.Holds m frame heap'' ∧
      a.method.code.drop frame.code.position = [Opcode.ret.byte] ∧
      m.action frame heap'' = (.ok (.done value), heap')
  /-- Neither the run nor a method within it ends with a fault in a body. -/
  faults : ∀ e : RunError, e.isBodyFault = true → (entry.run m heap).1 ≠ .error e ∧
    ∀ a, entry.Activates m heap a → (a.run m).1 ≠ .error e

/-- Every run of a disciplined artifact goes hand in hand with the check. -/
theorem lockstep (m : Loaded) (disciplined : m.artifact.Disciplined)
    (suffice : m.artifact.RootCallsSuffice) (entry : Entry) (heap : Heap) :
    Lockstep m entry heap := by
  have sound : ∀ {a frame heap' e}, entry.Activates m heap a → a.Holds m frame heap' →
      (m.action frame heap').1 = .error e → e.Harmless := by
    intro a frame heap' e activates held failed
    exact action_sound disciplined activates.known (activates.supplied disciplined suffice) held
      (Prod.ext failed rfl)
  refine ⟨?_, ?_, ?_⟩
  · intro a frame heap' activates held
    obtain ⟨done, i, rest, depth, tracks⟩ := held.tracks activates.known
    refine ⟨⟨i, tracks.mem, tracks.walked.offset_eq⟩, ?_, ?_⟩
    · rw [← depth_eq disciplined activates.known held tracks]
      exact tracks.walked.depthAt_eq
    · rw [tracks.args]
      exact activates.supplied disciplined suffice
  · intro a value heap' activates run
    exact returns activates.known run
  · intro e fault
    have lies : ¬ e.Harmless := by
      unfold RunError.Harmless
      rw [fault]
      exact Bool.noConfusion
    constructor
    · intro failed
      obtain ⟨a, frame, heap', activates, held, failed⟩ := (Entry.run_fault_iff fault).1 failed
      exact lies (sound activates held failed)
    · intro a activates failed
      have run : a.run m = (.error e, (a.run m).2) := Prod.ext failed rfl
      obtain ⟨b, frame, heap', reached, held, acted⟩ :=
        Activation.fault_origin fault a.levels a rfl activates.known run
      obtain ⟨first, starts, before⟩ := activates
      exact lies (sound ⟨first, starts, before.trans reached⟩ held (congrArg Prod.fst acted))

/-! ### A disciplined artifact -/

/-- A class whose constructor calls the root constructor, an interface that it implements, and a
method that makes an object and calls it through the interface. -/
def wellBehaved : Artifact where
  memberRefs := [.method rootObject constructorName 0 false, .method "I" "m" 1 true,
    .method "C" constructorName 0 false]
  types := [
    { name := "I", kind := .interface, flags := TypeFlag.isAbstract,
      methods := [abstractMethod "m" ["a"] .object] },
    { name := "C", kind := .classType, interfaces := ["I"], methods := [
        ⟨constructorName, .publicAccess, MethodFlag.isConstructor, [], .void, none, 1,
          Binary.Wire.loadArg 0 ++ Binary.Wire.onMember .call 0 ++ Binary.Wire.opcode .ret⟩,
        ⟨"m", .publicAccess, MethodFlag.isVirtual, [⟨"a", .object⟩], .object, some ⟨"I", "m"⟩, 1,
          Binary.Wire.loadArg 1 ++ Binary.Wire.opcode .ret⟩] },
    { name := "D", kind := .classType, methods := [
        ⟨"go", .publicAccess, MethodFlag.isStatic, [⟨"a", .object⟩], .object, none, 2,
          Binary.Wire.onMember .newObj 2 ++ Binary.Wire.loadArg 0 ++
            Binary.Wire.onMember .callVirt 1 ++ Binary.Wire.opcode .ret⟩] }]
  metadata := { name := "" }

def loadedWellBehaved : Loaded := ⟨wellBehaved, rfl⟩

theorem wellBehaved_lockstep :
    wellBehaved.Disciplined ∧ wellBehaved.RootCallsSuffice ∧
      Lockstep loadedWellBehaved (.invokeStatic "D" "go" [.int 7]) Heap.empty := by
  have disciplined : wellBehaved.Disciplined := by
    constructor
    · decide +kernel
    · decide +kernel
    · decide +kernel
  have unbound : ∀ t ∈ wellBehaved.types, ∀ method ∈ t.methods,
      method.binding ≠ some ⟨rootObject, constructorName⟩ := by
    decide +kernel
  have suffice : wellBehaved.RootCallsSuffice := by
    intro _ _ _ _ _ _ _ _ t ht bound hbound binding
    exact absurd binding (unbound t ht bound hbound)
  exact ⟨disciplined, suffice, lockstep loadedWellBehaved disciplined suffice _ _⟩

/-- A class that implements the constructor of an interface with the name of the root, and a virtual
call of the root constructor, which passes fewer arguments. -/
def rootInterface : Artifact where
  memberRefs := [.method rootObject constructorName 0 false]
  types := [
    { name := rootObject, kind := .interface, flags := TypeFlag.isAbstract,
      methods := [abstractMethod constructorName ["a"] .object] },
    { name := "C", kind := .classType, interfaces := [rootObject], methods := [
        ⟨constructorName, .publicAccess, MethodFlag.isConstructor, [], .void, none, 0,
          Binary.Wire.opcode .ret⟩,
        ⟨"init", .publicAccess, MethodFlag.isVirtual, [⟨"a", .object⟩], .object,
          some ⟨rootObject, constructorName⟩, 1, Binary.Wire.loadArg 1 ++ Binary.Wire.opcode .ret⟩] },
    { name := "D", kind := .classType, methods := [
        ⟨"go", .publicAccess, MethodFlag.isStatic, [⟨"on", .object⟩], .void, none, 1,
          Binary.Wire.loadArg 0 ++ Binary.Wire.onMember .callVirt 0 ++ Binary.Wire.opcode .ret⟩] }]
  metadata := { name := "" }

def loadedRootInterface : Loaded := ⟨rootInterface, rfl⟩

/-- The artifact is disciplined, and a run of it lacks an argument. -/
theorem rootInterface_lacks_argument :
    let made := (Entry.newObject "C" []).run loadedRootInterface Heap.empty
    rootInterface.Disciplined ∧ made.1 = .ok (.object 0) ∧
      ((Entry.invokeStatic "D" "go" [.object 0]).run loadedRootInterface made.2).1 =
        .error (.invalidOperand 1) := by
  have disciplined : rootInterface.Disciplined := by
    constructor
    · decide +kernel
    · decide +kernel
    · decide +kernel
  exact ⟨disciplined, rfl, rfl⟩

end Machine

end FluentWrappers
