import FluentWrappers.Proofs.Machine.Activation

/-!
# Virtual calls of interface methods

A type that is no interface has a method bound to every abstract method of the interfaces it lists, and
a virtual call runs the first method bound to the name. Bindings hold no number of parameters, so a
call runs a method with the referenced number of parameters as long as the interface does not overload
the name, and calls of different overloads cannot both do so.
-/

namespace FluentWrappers

open Fallible Machine Loaded

/-! ### Arguments of a body -/

theorem Method.loads_within {refs : List MemberReference} {m : Method} {i : CodeInstruction}
    {index : Nat} (h : m.checkBody refs = .ok ()) (hi : i ∈ m.instructions)
    (loads : i.loads? = some index) : index < m.argSlots := by
  cases abstract : m.isAbstract with
  | true =>
    rw [instructions_of_abstract h abstract] at hi
    cases hi
  | false =>
    obtain ⟨r, done, rest, depth, walked⟩ := walkedTo_of_mem h abstract hi
    obtain ⟨effect, accepted⟩ := walked.accepted
    exact CodeInstruction.loads_within accepted loads

theorem Method.argSlots_le (m : Method) : m.argSlots ≤ m.arity + 1 := by
  unfold argSlots arity
  split <;> omega

namespace Machine

variable {m : Loaded} {frame : Loaded.Frame} {heap : Heap} {type : TypeDefinition}
  {args : List Value} {r : MemberReference}

/-! ### Virtual calls -/

/-- The latest operands are arguments above an instance of the type. -/
def Loaded.Frame.Offers (frame : Frame) (heap : Heap) (type : TypeDefinition) (args : List Value) :
    Prop :=
  ∃ ref inst below, frame.stack = args.reverse ++ .object ref :: below ∧
    heap.get? ref = some inst ∧ inst.typeName = type.name

theorem instanceOf_ok {ref : Nat} {inst : Instance} (alive : heap.get? ref = some inst) :
    instanceOf (.object ref) heap = (.ok (ref, inst), heap) := by
  unfold instanceOf
  dsimp only
  rw [bind_ok (get_apply heap), alive]
  rfl

/-- A virtual call on an instance takes the arguments and the instance off the operands. -/
theorem callVirtual_object {owner : TypeDefinition} {target : Method} {ref : Nat} {inst : Instance}
    {below : List Value} (known : type ∈ m.artifact.types)
    (stack : frame.stack = args.reverse ++ .object ref :: below)
    (alive : heap.get? ref = some inst) (named : inst.typeName = type.name)
    (count : args.length = r.paramCount.toNat)
    (resolved : m.resolveVirtual type r = .ok (owner, target)) :
    m.callVirtual frame r heap =
      (.ok (.call { frame with stack := below } r owner target (.object ref :: args)), heap) := by
  have length : args.reverse.length = r.paramCount.toNat := by rw [List.length_reverse, count]
  have enough : r.paramCount.toNat ≤ frame.stack.length := by
    rw [stack, List.length_append, length]
    exact Nat.le_add_right _ _
  have taken : (frame.stack.take r.paramCount.toNat).reverse = args := by
    rw [stack, ← length, List.take_left, List.reverse_reverse]
  have dropped : frame.stack.drop r.paramCount.toNat = .object ref :: below := by
    rw [stack, ← length, List.drop_left]
  let above : Frame := { frame with stack := frame.stack.drop r.paramCount.toNat }
  have popped : above.pop heap = (.ok (.object ref, { frame with stack := below }), heap) :=
    pop_ok dropped heap
  have found : (liftM (m.lookup inst.typeName) : Run TypeDefinition) heap = (.ok type, heap) := by
    rw [lift_apply, named, lookup_of_mem known]
  have target : (liftM (m.resolveVirtual type r) : Run (TypeDefinition × Method)) heap =
      (.ok (owner, target), heap) := by
    rw [lift_apply, resolved]
  unfold callVirtual
  rw [bind_ok (popMany_ok enough heap)]
  dsimp only
  rw [bind_ok popped]
  dsimp only
  rw [bind_ok (instanceOf_ok alive)]
  dsimp only
  rw [bind_ok found, bind_ok target, taken]
  rfl

theorem callVirtual_eq {owner : TypeDefinition} {target : Method} (known : type ∈ m.artifact.types)
    (offers : frame.Offers heap type args) (count : args.length = r.paramCount.toNat)
    (resolved : m.resolveVirtual type r = .ok (owner, target)) :
    ∃ later receiver, m.callVirtual frame r heap =
      (.ok (.call later r owner target (receiver :: args)), heap) := by
  obtain ⟨ref, inst, below, stack, alive, named⟩ := offers
  exact ⟨_, _, callVirtual_object known stack alive named count resolved⟩

/-! ### Agreement on the number of parameters -/

/-- A type honours an abstract method of an interface: it declares a method with as many parameters
that is bound to it, and a virtual call with as many arguments on an instance runs a method with as
many parameters, each of whose argument loads finds its argument. -/
structure Loaded.Honours (m : Loaded) (type : TypeDefinition) (interface : String) (x : Method) :
    Prop where
  declares : ∃ b ∈ type.methods, b.binding = some ⟨interface, x.name⟩ ∧ b.arity = x.arity
  dispatches : ∀ (r : MemberReference) (frame : Frame) (heap : Heap) (args : List Value),
    r.owner = interface → r.name = x.name → r.paramCount.toNat = x.arity →
    args.length = x.arity → frame.Offers heap type args →
    ∃ later owner target slots, m.callVirtual frame r heap =
        (.ok (.call later r owner target slots), heap) ∧ target.arity = x.arity ∧
      ∀ i ∈ target.instructions, ∀ index ∈ i.loads?, index < slots.length

variable {interface : String} {i : TypeDefinition} {x y : Method}

theorem honours_of_unique (known : type ∈ m.artifact.types) (concrete : type.kind ≠ .interface)
    (listed : interface ∈ type.interfaces) (found : m.artifact.findType? interface = some i)
    (hx : x ∈ i.methods) (abstract : x.isAbstract = true)
    (unique : ∀ y ∈ i.methods, y.isAbstract = true → y.name = x.name → y.arity = x.arity) :
    m.Honours type interface x := by
  obtain ⟨interfaces, bindings⟩ := Artifact.verify_interfaces m.verified known
  obtain ⟨b, bound⟩ := Artifact.checkInterface_implements (interfaces interface listed) found concrete
    hx abstract
  obtain ⟨hb, binding⟩ := TypeDefinition.findImplementation?_eq_some bound
  obtain ⟨_, i', y, found', named, abstract'⟩ := Artifact.checkBinding_resolves (bindings b hb) binding
  rw [found] at found'
  cases found'
  obtain ⟨hy, name, arity⟩ := TypeDefinition.findMethod?_eq_some named
  have same : b.arity = x.arity := arity.symm.trans (unique y hy abstract' name)
  refine ⟨⟨b, hb, binding, same⟩, ?_⟩
  intro r frame heap args owner name count length offers
  rw [← owner, ← name] at bound
  obtain ⟨later, receiver, call⟩ := callVirtual_eq known offers (length.trans count.symm)
    (resolveVirtual_of_bound bound)
  refine ⟨later, type, b, receiver :: args, call, same, ?_⟩
  intro j hj index loads
  have within := Method.loads_within (Artifact.verify_body m.verified known hb) hj loads
  have slots := b.argSlots_le
  rw [List.length_cons, length]
  omega

theorem Loaded.Honours.arity_eq {b : Method} (h : m.Honours type interface x)
    (known : type ∈ m.artifact.types) (small : x.arity < UInt16.size)
    (bound : type.findImplementation? interface x.name = some b) : b.arity = x.arity := by
  let r : MemberReference := ⟨.method, interface, x.name, UInt16.ofNat x.arity, false, false⟩
  let args : List Value := List.replicate x.arity .null
  let frame : Frame := ⟨b, [], args.reverse ++ [.object 0], Binary.Reader.ofBytes []⟩
  let heap : Heap := ⟨#[⟨type.name, []⟩]⟩
  have count : r.paramCount.toNat = x.arity := UInt16.toNat_ofNat_of_lt' small
  have length : args.length = x.arity := List.length_replicate
  have offers : frame.Offers heap type args := ⟨0, ⟨type.name, []⟩, [], rfl, rfl, rfl⟩
  obtain ⟨_, _, target, _, called, arity, _⟩ := h.dispatches r frame heap args rfl rfl count length offers
  obtain ⟨_, _, runs⟩ := callVirtual_eq known offers (length.trans count.symm)
    (resolveVirtual_of_bound (r := r) bound)
  rw [runs] at called
  cases called
  exact arity

/-- A type that is no interface honours the abstract methods of a listed interface that does not
overload their name, and it honours no two of them with one name and different numbers of parameters
that references can hold. -/
theorem honours_overloads (m : Loaded) {type i : TypeDefinition} {interface : String}
    (known : type ∈ m.artifact.types) (concrete : type.kind ≠ .interface)
    (listed : interface ∈ type.interfaces) (found : m.artifact.findType? interface = some i) :
    (∀ x ∈ i.methods, x.isAbstract = true →
        (∀ y ∈ i.methods, y.isAbstract = true → y.name = x.name → y.arity = x.arity) →
        m.Honours type interface x) ∧
      ∀ x ∈ i.methods, ∀ y ∈ i.methods, x.isAbstract = true → y.isAbstract = true →
        x.name = y.name → x.arity < UInt16.size → y.arity < UInt16.size →
        m.Honours type interface x → m.Honours type interface y → x.arity = y.arity := by
  constructor
  · intro x hx abstract unique
    exact honours_of_unique known concrete listed found hx abstract unique
  · intro x hx y hy abstract _ same smallX smallY honoursX honoursY
    have interfaces := (Artifact.verify_interfaces m.verified known).1
    obtain ⟨b, bound⟩ := Artifact.checkInterface_implements (interfaces interface listed) found
      concrete hx abstract
    have first := honoursX.arity_eq known smallX bound
    rw [same] at bound
    exact first.symm.trans (honoursY.arity_eq known smallY bound)

/-! ### An overloaded name -/

/-- An abstract method with parameters of any type. -/
def abstractMethod (name : String) (params : List String) (returns : Signature) : Method where
  name := name
  visibility := .publicAccess
  flags := MethodFlag.isAbstract ||| MethodFlag.isVirtual
  params := params.map (⟨·, .object⟩)
  returns := returns
  binding := none
  maxStack := 0
  code := []

/-- An interface with two methods of one name. -/
def overloading : TypeDefinition where
  name := "I"
  kind := .interface
  flags := TypeFlag.isAbstract
  methods := [abstractMethod "m" ["a"] .object, abstractMethod "m" ["a", "b"] .object,
    abstractMethod "reset" [] .void]

/-- A class with a method for each method of the interface; that with more parameters is first. -/
def overloader : TypeDefinition where
  name := "C"
  kind := .classType
  interfaces := ["I"]
  methods := [
    ⟨constructorName, .publicAccess, MethodFlag.isConstructor, [], .void, none, 0,
      Binary.Wire.opcode .ret⟩,
    ⟨"second", .publicAccess, MethodFlag.isVirtual, [⟨"a", .object⟩, ⟨"b", .object⟩], .object,
      some ⟨"I", "m"⟩, 1, Binary.Wire.loadArg 2 ++ Binary.Wire.opcode .ret⟩,
    ⟨"first", .publicAccess, MethodFlag.isVirtual, [⟨"a", .object⟩], .object, some ⟨"I", "m"⟩, 1,
      Binary.Wire.loadArg 1 ++ Binary.Wire.opcode .ret⟩,
    ⟨"reset", .publicAccess, MethodFlag.isVirtual, [], .void, some ⟨"I", "reset"⟩, 0,
      Binary.Wire.opcode .ret⟩]

def overloadCaller : TypeDefinition where
  name := "D"
  kind := .classType
  methods := [⟨"go", .publicAccess, MethodFlag.isStatic, [⟨"on", .object⟩, ⟨"a", .object⟩], .object,
    none, 2, Binary.Wire.loadArg 0 ++ Binary.Wire.loadArg 1 ++
      Binary.Wire.onMember .callVirt 0 ++ Binary.Wire.opcode .ret⟩]

def overloads : Artifact where
  memberRefs := [.method "I" "m" 1 true]
  types := [overloading, overloader, overloadCaller]
  metadata := { name := "" }

def loadedOverloads : Loaded := ⟨overloads, rfl⟩

theorem overloader_honours :
    (overloader ∈ overloads.types ∧ overloader.kind ≠ .interface ∧ "I" ∈ overloader.interfaces ∧
        overloads.findType? "I" = some overloading) ∧
      loadedOverloads.Honours overloader "I" (abstractMethod "reset" [] .void) ∧
      ¬ (loadedOverloads.Honours overloader "I" (abstractMethod "m" ["a"] .object) ∧
        loadedOverloads.Honours overloader "I" (abstractMethod "m" ["a", "b"] .object)) := by
  have known : overloader ∈ overloads.types := by simp [overloads]
  have concrete : overloader.kind ≠ .interface := by decide
  have listed : "I" ∈ overloader.interfaces := by decide
  have found : overloads.findType? "I" = some overloading := rfl
  obtain ⟨honoured, clash⟩ := honours_overloads loadedOverloads known concrete listed found
  refine ⟨⟨known, concrete, listed, found⟩, ?_, ?_⟩
  · refine honoured _ (by simp [overloading]) rfl ?_
    decide
  · rintro ⟨one, two⟩
    have first : abstractMethod "m" ["a"] .object ∈ overloading.methods := by simp [overloading]
    have second : abstractMethod "m" ["a", "b"] .object ∈ overloading.methods := by
      simp [overloading]
    have same := clash _ first _ second rfl rfl rfl (by decide) (by decide) one two
    exact absurd same (by decide)

/-- The call with one argument runs the method with two parameters, which lacks an argument. -/
theorem overloads_lack_argument :
    let made := (Entry.newObject "C" []).run loadedOverloads Heap.empty
    made.1 = .ok (.object 0) ∧
      ((Entry.invokeStatic "D" "go" [.object 0, .int 7]).run loadedOverloads made.2).1 =
        .error (.invalidOperand 2) :=
  ⟨rfl, rfl⟩

end Machine

end FluentWrappers
