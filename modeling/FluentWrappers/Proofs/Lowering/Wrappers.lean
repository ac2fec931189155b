import FluentWrappers.Machine.Access
import FluentWrappers.Proofs.FirstOccurrence
import FluentWrappers.Proofs.Lowering.Definitions
import FluentWrappers.Proofs.Lowering.Execution
import FluentWrappers.Proofs.Machine.Heap
import FluentWrappers.Proofs.Synthesis.Product

/-!
# Wrappers at work

In an artifact that carries a proxy and its fluent wrapper, the accessors of a proxy read and write its
backing fields, and the setters of a wrapper write those of the proxy that it holds and return the
wrapper, so that they can be chained.
-/

namespace FluentWrappers

open Fallible Machine Loaded Lowering Synthesis

/-! ### Members by name -/

/-- The name of the accessor of a property, if it has one. -/
def Property.accessor? (p : Property) : Accessor → Option String
  | .getter => p.getter
  | .setter => p.setter

namespace Machine.Loaded

variable {m : Loaded} {heap : Heap} {type : TypeDefinition} {ref : Nat} {inst : Instance}
  {name : String}

section

variable (alive : heap.get? ref = some inst) (named : inst.typeName = type.name)
  (known : type ∈ m.artifact.types)

include alive named known

theorem invoke_eq {args : List Value} {target : Method}
    (own : ownInstanceMethod? name args.length type = some (type, target)) :
    m.invoke (.object ref) name args heap = m.execute type target (.object ref :: args) heap := by
  obtain ⟨bases, hierarchy⟩ := hierarchy_eq_cons m type
  have found : m.instanceMethod (.object ref) name args.length heap = (.ok (type, target), heap) := by
    have type' : (liftM (m.lookup inst.typeName) : Run TypeDefinition) heap = (.ok type, heap) := by
      rw [lift_apply, named, lookup_of_mem known]
    unfold instanceMethod
    rw [bind_ok (instanceOf_ok alive)]
    dsimp only
    rw [bind_ok type', hierarchy, List.findSome?_cons, own]
    rfl
  unfold invoke
  rw [bind_ok found]

theorem accessorName_eq {property : String} {p : Property} {accessor : Accessor}
    (found : type.findProperty? property = some p) (has : p.accessor? accessor = some name) :
    m.accessorName (.object ref) property accessor heap = (.ok name, heap) := by
  obtain ⟨bases, hierarchy⟩ := hierarchy_eq_cons m type
  have type' : (liftM (m.lookup inst.typeName) : Run TypeDefinition) heap = (.ok type, heap) := by
    rw [lift_apply, named, lookup_of_mem known]
  unfold accessorName
  rw [bind_ok (instanceOf_ok alive)]
  dsimp only
  rw [bind_ok type', hierarchy, List.findSome?_cons, found]
  cases accessor with
  | getter | setter =>
    unfold Property.accessor? at has
    dsimp only at has ⊢
    rw [has]
    rfl

theorem getProperty_eq {property : String} {p : Property}
    (found : type.findProperty? property = some p) (getter : p.getter = some name) :
    m.getProperty (.object ref) property heap = m.invoke (.object ref) name [] heap := by
  have accessor : m.accessorName (.object ref) property .getter heap = (.ok name, heap) :=
    accessorName_eq alive named known found getter
  unfold getProperty
  rw [bind_ok accessor]

theorem setProperty_eq {property : String} {p : Property} {value result : Value} {later : Heap}
    (found : type.findProperty? property = some p) (setter : p.setter = some name)
    (invoked : m.invoke (.object ref) name [value] heap = (.ok result, later)) :
    m.setProperty (.object ref) property value heap = (.ok (), later) := by
  have accessor : m.accessorName (.object ref) property .setter heap = (.ok name, heap) :=
    accessorName_eq alive named known found setter
  unfold setProperty
  rw [bind_ok accessor, bind_ok invoked]
  rfl

end

/-! ### Types of an artifact -/

/-- The type has its definition in the artifact and its references in the table. -/
structure Carries (m : Loaded) (t : SynthesizedType) (d : TypeDefinition) : Prop where
  known : d ∈ m.artifact.types
  lowered : lowerType m.artifact.memberRefs t = .ok d
  links : ∀ spec ∈ t.methods, ∀ r ∈ referencesOfMethod spec, r ∈ m.artifact.memberRefs

namespace Carries

variable {t : SynthesizedType} {d : TypeDefinition} {spec : MethodSpec} {method : Method}
  (carries : m.Carries t d)

include carries

theorem name_eq : d.name = t.canonical := by
  obtain ⟨methods, -, rfl⟩ := of_lowerType carries.lowered
  rfl

theorem link {body : Body} {i : Synthesis.Instruction} {r : MemberReference} (k : Nat)
    (isIn : spec ∈ t.methods) (isBody : spec.body = some body)
    (isPart : body.instructions[k]? = some i) (isRef : referenceOf? i = some r) :
    r ∈ m.artifact.memberRefs := by
  refine carries.links spec isIn r ?_
  unfold referencesOfMethod
  rw [isBody]
  exact List.mem_filterMap.2 ⟨i, List.mem_of_getElem? isPart, isRef⟩

theorem ownInstanceMethod (found : t.findMethod? spec.name spec.arity = some spec)
    (isInstance : spec.kind = .instanceMethod) :
    ∃ method, ownInstanceMethod? spec.name spec.arity d = some (d, method) ∧
      lowerMethod m.artifact.memberRefs t spec = .ok method := by
  obtain ⟨method, isFound, isLowered⟩ := findMethod?_of_lowerType carries.lowered found
  refine ⟨method, ?_, isLowered⟩
  obtain ⟨-, -, flags, -⟩ := of_lowerMethod isLowered
  obtain ⟨abstract, static, constructor⟩ := flags_of_kind spec
  unfold ownInstanceMethod?
  rw [isFound]
  unfold Method.isAbstract Method.isStatic Method.isConstructor
  dsimp only
  rw [flags, abstract, static, constructor, isInstance]
  rfl

section

variable {args : List Value} (isClass : definitionKind t.kind = .classType)
  (found : t.findMethod? constructorName args.length = some spec)
  (isConstructor : spec.kind = .constructor)

include isClass found isConstructor

theorem constructWith_eq : ∃ method, lowerMethod m.artifact.memberRefs t spec = .ok method ∧
    ∀ execute allocate heap, constructWith execute allocate d args heap = (do
      let ref ← allocate d
      let _ ← execute d method (.object ref :: args)
      return Value.object ref : Run Value) heap := by
  obtain ⟨method, isFound, isLowered⟩ := findMethod?_of_lowerType carries.lowered found
  obtain ⟨-, -, flags, -⟩ := of_lowerMethod isLowered
  obtain ⟨methods, -, rfl⟩ := of_lowerType carries.lowered
  refine ⟨method, isLowered, fun execute allocate heap => ?_⟩
  refine constructWith_class isClass (not_isAbstract_of_class isClass) isFound ?_
  unfold Method.isConstructor
  rw [flags, (flags_of_kind spec).2.2, isConstructor]
  rfl

/-- An object that was made with a constructor of a class is a new instance on which the constructor
has run. -/
theorem of_constructWith {levels room : Nat} {made : Value} {heap later : Heap}
    (constructed : constructWith (m.executeWithin levels) (m.allocateWithin room) d args heap =
      (.ok made, later)) :
    ∃ method ref between result, lowerMethod m.artifact.memberRefs t spec = .ok method ∧
      made = .object ref ∧ heap.Grows between ∧ heap.get? ref = none ∧ m.IsInstance between d ref ∧
        m.executeWithin levels d method (.object ref :: args) between = (.ok result, later) := by
  obtain ⟨method, isLowered, constructs⟩ := carries.constructWith_eq isClass found isConstructor
  rw [constructs] at constructed
  obtain ⟨ref, between, allocated, constructed⟩ := bind_eq_ok_iff.1 constructed
  obtain ⟨result, last, executed, constructed⟩ := bind_eq_ok_iff.1 constructed
  cases constructed
  obtain ⟨grows, fresh, isInstance⟩ := (leads_allocateWithin room d).result allocated
  exact ⟨method, ref, between, result, isLowered, rfl, grows, fresh, isInstance, executed⟩

/-- An object is made if no field of the class needs an instance and the constructor runs through on
every new instance. -/
theorem exists_constructWith {levels room : Nat} {heap : Heap}
    (none : ∀ f ∈ (m.hierarchy d).flatMap (·.fields), m.NeedsNone f.type)
    (runs : ∀ method ref between, lowerMethod m.artifact.memberRefs t spec = .ok method →
      m.IsInstance between d ref →
      ∃ last, m.executeWithin levels d method (.object ref :: args) between = (.ok .null, last)) :
    ∃ ref later, constructWith (m.executeWithin levels) (m.allocateWithin (room + 1)) d args heap =
      (.ok (.object ref), later) := by
  obtain ⟨method, isLowered, constructs⟩ := carries.constructWith_eq isClass found isConstructor
  obtain ⟨ref, between, allocated⟩ : ∃ ref between, m.allocateWithin (room + 1) d heap =
      (.ok ref, between) := exists_allocateWithin room none
  obtain ⟨-, -, isInstance⟩ := (leads_allocateWithin (room + 1) d).result allocated
  obtain ⟨last, executed⟩ := runs method ref between isLowered isInstance
  refine ⟨ref, last, ?_⟩
  rw [constructs, bind_ok allocated, bind_ok executed]
  rfl

end

omit carries in
theorem execute_of_runsTo {levels : Nat} {body : Body} {args : List Value}
    {outcome : Except RunError Value × Heap}
    (isLowered : lowerMethod m.artifact.memberRefs t spec = .ok method)
    (concrete : spec.kind ≠ .abstractMethod) (isBody : spec.body = some body)
    (runs : m.RunsTo (m.callees levels) method args body.instructions [] heap outcome) :
    m.executeWithin (levels + 1) d method args heap = outcome := by
  obtain ⟨-, -, flags, -, -, code⟩ := of_lowerMethod isLowered
  refine executeWithin_of_runsTo ?_ (code body isBody) runs
  unfold Method.isAbstract
  rw [flags, (flags_of_kind spec).1]
  exact beq_false_of_ne concrete

end Carries

/-! ### Bodies of accessors -/

section

variable {callees : Callees} {method : Method} {value : Value} {others : List Value}
  {f : FieldTarget} {later : Heap} (indexable : m.artifact.memberRefs.length ≤ UInt32.size)
  (links : fieldReference f ∈ m.artifact.memberRefs) (alive : heap.get? ref = some inst)

include indexable links alive

theorem runsTo_read (isField : inst.get? f.name = some value) (returns : method.returnsValue = true) :
    m.RunsTo callees method (.object ref :: others) [.loadThis, .loadField f, .ret] [] heap
      (.ok value, heap) :=
  .loadThis indexable (.loadField indexable links alive isField (.ret indexable returns))

theorem runsTo_write (stored : heap.setField? ref f.name value = some later)
    (isVoid : method.returnsValue = false) :
    m.RunsTo callees method [.object ref, value] [.loadThis, .loadArg 1, .storeField f, .ret] [] heap
      (.ok .null, later) :=
  .loadThis indexable (.loadArg indexable rfl (.storeField indexable links alive stored
    (.retVoid indexable isVoid)))

end

end Machine.Loaded

/-! ### Proxies -/

/-- The getter of a member in a proxy that implements the interface. -/
abbrev Synthesis.proxyGetter (name interface : TypeName) (source : SourceType) (mem : Member) :
    MethodSpec :=
  backedGetter name (accessorVisibility source (some interface)) (some interface) mem

abbrev Synthesis.proxySetter (name interface : TypeName) (source : SourceType) (mem : Member) :
    MethodSpec :=
  backedSetter name (accessorVisibility source (some interface)) (some interface) mem

namespace Machine.Loaded

section

variable {m : Loaded} {name interface : TypeName} {source : SourceType} {members : List Member}
  {proxy : TypeDefinition} {heap later : Heap} {p : Nat} {inst : Instance} {mem : Member}
  {value : Value} (indexable : m.artifact.memberRefs.length ≤ UInt32.size)
  (carries : m.Carries (proxyOf name source members (some interface)) proxy)
  (distinct : (members.map (·.name)).Nodup) (isIn : mem ∈ members)

/-- A search that passes over the constructor and selects one accessor of the proxy finds it. -/
theorem find?_proxy {test : MethodSpec → Bool} {spec : MethodSpec}
    (passes : test defaultConstructor = false)
    (selects : (members.flatMap fun n =>
      [proxyGetter name interface source n, proxySetter name interface source n]).filter test =
        [spec]) :
    (proxyOf name source members (some interface)).methods.find? test = some spec := by
  rw [← List.head?_filter]
  unfold proxyOf backedOf
  dsimp only
  rw [List.filter_cons_of_neg (Bool.eq_false_iff.1 passes), selects]
  rfl

include carries distinct isIn

/-- The method with the binding or the name of a getter is the one that reads the backing field. -/
theorem proxy_getter : ∃ method,
    proxy.findImplementation? interface.canonical (getterName mem.name) = some method ∧
      ownInstanceMethod? (getterName mem.name) 0 proxy = some (proxy, method) ∧
      lowerMethod m.artifact.memberRefs (proxyOf name source members (some interface))
        (proxyGetter name interface source mem) =
          .ok method := by
  have bound : (proxyOf name source members (some interface)).methods.find?
      (bindsTo interface (getterName mem.name)) =
        some (proxyGetter name interface source mem) := by
    refine find?_proxy rfl (filter_getter distinct isIn (fun n => ?_) fun n => ?_)
    · simp [bindsTo, backedGetter, bindingTo, getterName_inj]
    · simp [bindsTo, backedSetter, bindingTo, (getterName_ne_setterName _ _).symm]
  have named : (proxyOf name source members (some interface)).findMethod? (getterName mem.name) 0 =
      some (proxyGetter name interface source mem) := by
    refine find?_proxy ?_ (filter_getter distinct isIn (fun n => ?_) fun n => ?_)
    · simp [defaultConstructor, constructorOf, (getterName_ne_constructorName _).symm]
    · simp [backedGetter, MethodSpec.arity, getterName_inj]
    · -- no setter is found, whatever its name, for it has a parameter
      simp [backedSetter, MethodSpec.arity]
  obtain ⟨method, isBound, isLowered⟩ := findImplementation?_of_lowerType carries.lowered bound
  have named : (proxyOf name source members (some interface)).findMethod?
      (proxyGetter name interface source mem).name (proxyGetter name interface source mem).arity =
        some (proxyGetter name interface source mem) := named
  obtain ⟨method', isOwn, isLowered'⟩ := carries.ownInstanceMethod named rfl
  obtain rfl := Except.ok.inj (isLowered.symm.trans isLowered')
  exact ⟨method, isBound, isOwn, isLowered⟩

/-- The method with the binding or the name of a setter is the one that writes the backing field. -/
theorem proxy_setter : ∃ method,
    proxy.findImplementation? interface.canonical (setterName mem.name) = some method ∧
      ownInstanceMethod? (setterName mem.name) 1 proxy = some (proxy, method) ∧
      lowerMethod m.artifact.memberRefs (proxyOf name source members (some interface))
        (proxySetter name interface source mem) =
          .ok method := by
  have bound : (proxyOf name source members (some interface)).methods.find?
      (bindsTo interface (setterName mem.name)) =
        some (proxySetter name interface source mem) := by
    refine find?_proxy rfl (filter_setter distinct isIn (fun n => ?_) fun n => ?_)
    · simp [bindsTo, backedSetter, bindingTo, setterName_inj]
    · simp [bindsTo, backedGetter, bindingTo, getterName_ne_setterName]
  have named : (proxyOf name source members (some interface)).findMethod? (setterName mem.name) 1 =
      some (proxySetter name interface source mem) := by
    refine find?_proxy ?_ (filter_setter distinct isIn (fun n => ?_) fun n => ?_)
    · -- the constructor has no parameter
      simp [defaultConstructor, constructorOf, MethodSpec.arity]
    · simp [backedSetter, MethodSpec.arity, setterName_inj]
    · simp [backedGetter, MethodSpec.arity]
  obtain ⟨method, isBound, isLowered⟩ := findImplementation?_of_lowerType carries.lowered bound
  have named : (proxyOf name source members (some interface)).findMethod?
      (proxySetter name interface source mem).name (proxySetter name interface source mem).arity =
        some (proxySetter name interface source mem) := named
  obtain ⟨method', isOwn, isLowered'⟩ := carries.ownInstanceMethod named rfl
  obtain rfl := Except.ok.inj (isLowered.symm.trans isLowered')
  exact ⟨method, isBound, isOwn, isLowered⟩

omit distinct in
include indexable in
theorem execute_proxyGetter {levels : Nat} {method : Method}
    (isLowered : lowerMethod m.artifact.memberRefs (proxyOf name source members (some interface))
      (proxyGetter name interface source mem) = .ok method) (alive : heap.get? p = some inst)
    (isField : inst.get? (backingField mem.name) = some value) :
    m.executeWithin (levels + 1) proxy method [.object p] heap = (.ok value, heap) := by
  have isMethod : proxyGetter name interface source mem ∈
      (proxyOf name source members (some interface)).methods :=
    List.mem_cons_of_mem _ (List.mem_flatMap.2 ⟨mem, isIn, List.mem_cons_self⟩)
  have links := carries.link 1 isMethod rfl rfl rfl
  exact Carries.execute_of_runsTo isLowered nofun rfl
    (runsTo_read indexable links alive isField (returnsValue_of_lowerMethod isLowered))

omit distinct in
include indexable in
theorem execute_proxySetter {levels : Nat} {method : Method}
    (isLowered : lowerMethod m.artifact.memberRefs (proxyOf name source members (some interface))
      (proxySetter name interface source mem) = .ok method) (alive : heap.get? p = some inst)
    (stored : heap.setField? p (backingField mem.name) value = some later) :
    m.executeWithin (levels + 1) proxy method [.object p, value] heap = (.ok .null, later) := by
  have isMethod : proxySetter name interface source mem ∈
      (proxyOf name source members (some interface)).methods :=
    List.mem_cons_of_mem _
      (List.mem_flatMap.2 ⟨mem, isIn, List.mem_cons_of_mem _ List.mem_cons_self⟩)
  have links := carries.link 2 isMethod rfl rfl rfl
  exact Carries.execute_of_runsTo isLowered nofun rfl
    (runsTo_write indexable links alive stored (returnsValue_of_lowerMethod isLowered))

omit distinct isIn in
include indexable in
theorem construct_proxy {levels room : Nat} {made : Value}
    (constructed : constructWith (m.executeWithin (levels + 1)) (m.allocateWithin room) proxy [] heap =
      (.ok made, later)) :
    ∃ p, made = .object p ∧ heap.Grows later ∧ heap.get? p = none ∧ m.IsInstance later proxy p := by
  have found : (proxyOf name source members (some interface)).findMethod? constructorName
      ([] : List Value).length = some defaultConstructor := rfl
  obtain ⟨method, p, between, result, isLowered, rfl, grows, fresh, isInstance, executed⟩ :=
    carries.of_constructWith rfl found rfl constructed
  have isMethod : defaultConstructor ∈ (proxyOf name source members (some interface)).methods :=
    List.mem_cons_self
  have root := carries.link 1 isMethod rfl rfl rfl
  have runs : m.executeWithin (levels + 1) proxy method [.object p] between = (.ok .null, between) :=
    Carries.execute_of_runsTo isLowered nofun rfl (.loadThis indexable
      (.rootConstructor indexable root
        (.retVoid indexable (returnsValue_of_lowerMethod isLowered))))
  cases executed.symm.trans runs
  exact ⟨p, rfl, grows, fresh, isInstance⟩

end

end Machine.Loaded

/-! ### Fluent wrappers -/

namespace Synthesis

/-- A method of a type without two methods alike is the one that is found by its name. -/
theorem findMethod?_of_unambiguous {t : SynthesizedType} {spec : MethodSpec}
    (distinct : Unambiguous t.methods) (isIn : spec ∈ t.methods) :
    t.findMethod? spec.name spec.arity = some spec := by
  unfold SynthesizedType.findMethod?
  refine FirstOccurrence.find?_of_alone isIn (by simp) fun other isOther same => ?_
  rw [Bool.and_eq_true, beq_iff_eq, beq_iff_eq] at same
  exact List.inj_on_of_nodup_map distinct isOther isIn (Prod.ext same.1 same.2)

end Synthesis

namespace Machine.Loaded

/-- The object is a wrapper that holds a proxy. -/
structure Wraps (m : Loaded) (object : String) (fluent proxy : TypeDefinition) (heap : Heap)
    (w p : Nat) : Prop where
  differs : w ≠ p
  wrapper : ∃ inst, heap.get? w = some inst ∧ inst.typeName = fluent.name ∧
    inst.get? object = some (.object p)
  proxy : m.IsInstance heap proxy p

section

variable {m : Loaded} {heap later : Heap} {type fluent proxy : TypeDefinition} {object field : String}
  {w p : Nat} {value : Value}

theorem IsInstance.stored (isInstance : m.IsInstance heap type p)
    (stored : heap.Stored later w field value) : m.IsInstance later type p := by
  obtain ⟨inst, alive, named, has⟩ := isInstance
  by_cases same : p = w
  · subst same
    obtain ⟨before, after, alive', isAfter, sameName, isField, others⟩ := stored.cell
    obtain rfl := Option.some.inj (alive.symm.trans alive')
    refine ⟨after, isAfter, sameName.trans named, fun f isIn => ?_⟩
    have before := has f isIn
    unfold Instance.has at before ⊢
    by_cases isStored : f.name = field
    · rw [isStored, isField]
      rfl
    · rw [others f.name isStored]
      exact before
  · exact ⟨inst, (stored.others p same).trans alive, named, has⟩

theorem Wraps.stored (wraps : m.Wraps object fluent proxy heap w p)
    (stored : heap.Stored later p field value) : m.Wraps object fluent proxy later w p := by
  obtain ⟨inst, alive, named, holds⟩ := wraps.wrapper
  exact ⟨wraps.differs, ⟨inst, (stored.others w wraps.differs).trans alive, named, holds⟩,
    wraps.proxy.stored stored⟩

theorem wraps_of_stored {inst : Instance} (differs : w ≠ p) (isInstance : m.IsInstance heap proxy p)
    (alive : heap.get? w = some inst) (named : inst.typeName = fluent.name)
    (stored : heap.Stored later w object (.object p)) : m.Wraps object fluent proxy later w p := by
  obtain ⟨before, after, alive', isAfter, sameName, holds, -⟩ := stored.cell
  obtain rfl := Option.some.inj (alive.symm.trans alive')
  exact ⟨differs, ⟨after, isAfter, sameName.trans named, holds⟩, isInstance.stored stored⟩

theorem IsInstance.grows (isInstance : m.IsInstance heap type p) (grows : heap.Grows later) :
    m.IsInstance later type p := by
  obtain ⟨inst, alive, rest⟩ := isInstance
  exact ⟨inst, grows p inst alive, rest⟩

end

section

variable {m : Loaded} {c : FluentContext} {source : SourceType} {members : List Member}
  {options : TypeOptions} {fluent proxy : TypeDefinition} {heap later : Heap} {w p : Nat}
  {mem : Member} {value : Value} (indexable : m.artifact.memberRefs.length ≤ UInt32.size)
  (ofProxy : m.Carries (proxyOf c.proxy source members (some c.interface)) proxy)
  (ofFluent : m.Carries
    (fluentOf c (proxyOf c.proxy source members (some c.interface)) options) fluent)
  (distinct : (members.map (·.name)).Nodup)
  (unambiguous : Unambiguous (c.wantedOf options members)) (isIn : mem ∈ members)

include ofFluent in
theorem lookup_fluent {spec : MethodSpec} (unambiguous : Unambiguous (c.wantedOf options members))
    (isIn : spec ∈ c.wantedOf options members) (isInstance : spec.kind = .instanceMethod) :
    ∃ method, ownInstanceMethod? spec.name spec.arity fluent = some (fluent, method) ∧
      lowerMethod m.artifact.memberRefs
        (fluentOf c (proxyOf c.proxy source members (some c.interface)) options) spec =
          .ok method :=
  ofFluent.ownInstanceMethod (findMethod?_of_unambiguous unambiguous isIn) isInstance

include ofProxy isIn in
theorem exists_field (isInstance : m.IsInstance heap proxy p) :
    ∃ inst value, heap.get? p = some inst ∧ inst.typeName = proxy.name ∧
      inst.get? (backingField mem.name) = some value := by
  obtain ⟨inst, alive, named, has⟩ := isInstance
  obtain ⟨bases, hierarchy⟩ := hierarchy_eq_cons m proxy
  have isField : lowerField ⟨backingField mem.name, mem.type, .privateAccess⟩ ∈ proxy.fields := by
    obtain ⟨methods, -, rfl⟩ := of_lowerType ofProxy.lowered
    exact List.mem_map_of_mem (List.mem_map_of_mem isIn)
  have all := has _ (List.mem_flatMap.2 ⟨proxy, hierarchy ▸ List.mem_cons_self, isField⟩)
  obtain ⟨value, isValue⟩ := Option.isSome_iff_exists.1 all
  exact ⟨inst, value, alive, named, isValue⟩

include ofProxy isIn in
/-- A proxy has the backing field of each member, so a value can be stored in it. -/
theorem exists_stored (isInstance : m.IsInstance heap proxy p) (value : Value) :
    ∃ later, heap.setField? p (backingField mem.name) value = some later := by
  obtain ⟨inst, old, alive, -, isField⟩ := exists_field ofProxy isIn isInstance
  refine Heap.exists_setField alive ?_ value
  unfold Instance.has
  rw [isField]
  rfl

include isIn in
theorem mem_wantedOf {spec : MethodSpec} (isMethod : spec ∈ c.methodsOf options mem) :
    spec ∈ c.wantedOf options members := by
  unfold FluentContext.wantedOf
  have ofMembers : spec ∈ members.flatMap (c.methodsOf options) :=
    List.mem_flatMap.2 ⟨mem, isIn, isMethod⟩
  simp [ofMembers]

include isIn in
theorem setterOf_mem : c.setterOf mem ∈ c.wantedOf options members := by
  refine mem_wantedOf isIn ?_
  unfold FluentContext.methodsOf
  split <;> exact List.mem_cons_self

include isIn in
theorem getterOf_mem (wanted : mem.hasFluentGetter options.settersOnly = true) :
    c.getterOf mem ∈ c.wantedOf options members := by
  refine mem_wantedOf isIn ?_
  unfold FluentContext.methodsOf
  rw [if_pos wanted]
  exact List.mem_cons_of_mem _ List.mem_cons_self

theorem newConstructorOf_mem : c.newConstructorOf ∈ c.wantedOf options members :=
  List.mem_cons_self

theorem wrapConstructorOf_mem : c.wrapConstructorOf ∈ c.wantedOf options members :=
  List.mem_cons_of_mem _ List.mem_cons_self

theorem accessorOf_mem : c.accessorOf ∈ c.wantedOf options members := by
  unfold FluentContext.wantedOf
  simp

include indexable ofProxy ofFluent distinct unambiguous isIn

/-- A setter of a wrapper writes the backing field in the proxy and returns the wrapper. -/
theorem invoke_setter_of_setField (wraps : m.Wraps c.object.name fluent proxy heap w p)
    (stored : heap.setField? p (backingField mem.name) value = some later) :
    m.invoke (.object w) mem.fluentSetter [value] heap = (.ok (.object w), later) := by
  obtain ⟨wrapper, aliveWrapper, namedWrapper, holds⟩ := wraps.wrapper
  obtain ⟨inst, old, alive, named, isField⟩ := exists_field ofProxy isIn wraps.proxy
  obtain ⟨target, bound, -, isTarget⟩ := proxy_setter ofProxy distinct isIn
  have isMethod : c.setterOf mem ∈ c.wantedOf options members := setterOf_mem isIn
  obtain ⟨method, own, isLowered⟩ := lookup_fluent ofFluent unambiguous isMethod rfl
  have own : ownInstanceMethod? mem.fluentSetter [value].length fluent = some (fluent, method) := own
  have executes : (m.callees maxCallDepth).execute proxy target [.object p, value] heap =
      (.ok .null, later) := execute_proxySetter indexable ofProxy isIn isTarget alive stored
  have object := ofFluent.link 1 isMethod rfl rfl rfl
  have setter := ofFluent.link 3 isMethod rfl rfl rfl
  have call : m.RunsTo (m.callees maxCallDepth) method [.object w, value]
      [.callVirt ⟨c.interface, setterName mem.name, 1, false, false⟩, .loadThis, .ret]
      ([value].reverse ++ [.object p]) heap (.ok (.object w), later) :=
    .callVirt indexable setter alive ofProxy.known named rfl bound executes
      (.loadThis indexable (.ret indexable (returnsValue_of_lowerMethod isLowered)))
  refine (invoke_eq aliveWrapper namedWrapper ofFluent.known own).trans ?_
  exact Carries.execute_of_runsTo isLowered nofun rfl (.loadThis indexable
    (.loadField indexable object aliveWrapper holds (.loadArg indexable rfl call)))

theorem invoke_setter (wraps : m.Wraps c.object.name fluent proxy heap w p) (value : Value) :
    ∃ later, m.invoke (.object w) mem.fluentSetter [value] heap = (.ok (.object w), later) ∧
      heap.Stored later p (backingField mem.name) value := by
  obtain ⟨later, stored⟩ := exists_stored ofProxy isIn wraps.proxy value
  exact ⟨later, invoke_setter_of_setField indexable ofProxy ofFluent distinct unambiguous isIn wraps
    stored, Heap.stored_setField stored⟩

theorem invoke_getter (wraps : m.Wraps c.object.name fluent proxy heap w p)
    (wanted : mem.hasFluentGetter options.settersOnly = true)
    {inst : Instance} (alive : heap.get? p = some inst)
    (isField : inst.get? (backingField mem.name) = some value) :
    m.invoke (.object w) mem.fluentGetter [] heap = (.ok value, heap) := by
  obtain ⟨wrapper, aliveWrapper, namedWrapper, holds⟩ := wraps.wrapper
  obtain ⟨inst', -, alive', named, -⟩ := exists_field ofProxy isIn wraps.proxy
  obtain rfl := Option.some.inj (alive.symm.trans alive')
  obtain ⟨target, bound, -, isTarget⟩ := proxy_getter ofProxy distinct isIn
  have isMethod : c.getterOf mem ∈ c.wantedOf options members := getterOf_mem isIn wanted
  obtain ⟨method, own, isLowered⟩ := lookup_fluent ofFluent unambiguous isMethod rfl
  have own : ownInstanceMethod? mem.fluentGetter ([] : List Value).length fluent =
      some (fluent, method) := own
  have executes : (m.callees maxCallDepth).execute proxy target [.object p] heap =
      (.ok value, heap) := execute_proxyGetter indexable ofProxy isIn isTarget alive isField
  have object := ofFluent.link 1 isMethod rfl rfl rfl
  have getter := ofFluent.link 2 isMethod rfl rfl rfl
  have call : m.RunsTo (m.callees maxCallDepth) method [.object w]
      [.callVirt ⟨c.interface, getterName mem.name, 0, true, false⟩, .ret]
      (([] : List Value).reverse ++ [.object p]) heap (.ok value, heap) :=
    .callVirt indexable getter alive ofProxy.known named rfl bound executes
      (.ret indexable (returnsValue_of_lowerMethod isLowered))
  refine (invoke_eq aliveWrapper namedWrapper ofFluent.known own).trans ?_
  exact Carries.execute_of_runsTo isLowered nofun rfl (.loadThis indexable
    (.loadField indexable object aliveWrapper holds call))

omit indexable ofFluent unambiguous in
theorem findProperty?_proxy : proxy.findProperty? mem.name = some (lowerProperty
    ⟨mem.name, mem.type, some (getterName mem.name), some (setterName mem.name)⟩) := by
  obtain ⟨methods, -, rfl⟩ := of_lowerType ofProxy.lowered
  show ((members.map fun m => PropertySpec.mk m.name m.type (some (getterName m.name))
    (some (setterName m.name))).map lowerProperty).find? (fun p => p.name == mem.name) = _
  rw [List.map_map, List.find?_map]
  have first : members.find? (fun m => m.name == mem.name) = some mem :=
    FirstOccurrence.find?_key distinct isIn
  exact congrArg (Option.map _) first

omit ofFluent unambiguous in
theorem getProperty_proxy (isInstance : m.IsInstance heap proxy p) {inst : Instance}
    (alive : heap.get? p = some inst) (isField : inst.get? (backingField mem.name) = some value) :
    m.getProperty (.object p) mem.name heap = (.ok value, heap) := by
  obtain ⟨inst', -, alive', named, -⟩ := exists_field ofProxy isIn isInstance
  obtain rfl := Option.some.inj (alive.symm.trans alive')
  obtain ⟨target, -, own, isTarget⟩ := proxy_getter ofProxy distinct isIn
  have own : ownInstanceMethod? (getterName mem.name) ([] : List Value).length proxy =
      some (proxy, target) := own
  have found := findProperty?_proxy ofProxy distinct isIn
  refine (getProperty_eq alive named ofProxy.known found rfl).trans ?_
  refine (invoke_eq alive named ofProxy.known own).trans ?_
  exact execute_proxyGetter indexable ofProxy isIn isTarget alive isField

omit ofFluent unambiguous in
/-- Setting a property of a proxy writes the backing field. -/
theorem setProperty_of_setField (isInstance : m.IsInstance heap proxy p)
    (stored : heap.setField? p (backingField mem.name) value = some later) :
    m.setProperty (.object p) mem.name value heap = (.ok (), later) := by
  obtain ⟨inst, old, alive, named, isField⟩ := exists_field ofProxy isIn isInstance
  obtain ⟨target, -, own, isTarget⟩ := proxy_setter ofProxy distinct isIn
  have own : ownInstanceMethod? (setterName mem.name) [value].length proxy =
      some (proxy, target) := own
  have found := findProperty?_proxy ofProxy distinct isIn
  have invoked : m.invoke (.object p) (setterName mem.name) [value] heap = (.ok .null, later) :=
    (invoke_eq alive named ofProxy.known own).trans
      (execute_proxySetter indexable ofProxy isIn isTarget alive stored)
  exact setProperty_eq alive named ofProxy.known found rfl invoked

omit ofFluent unambiguous in
theorem setProperty_proxy (isInstance : m.IsInstance heap proxy p) (value : Value) :
    ∃ later, m.setProperty (.object p) mem.name value heap = (.ok (), later) ∧
      heap.Stored later p (backingField mem.name) value := by
  obtain ⟨later, stored⟩ := exists_stored ofProxy isIn isInstance value
  exact ⟨later, setProperty_of_setField indexable ofProxy distinct isIn isInstance stored,
    Heap.stored_setField stored⟩

omit ofProxy distinct isIn in
/-- The object property of a wrapper gives what the object field holds. -/
theorem getProperty_held {wrapper : Instance} (alive : heap.get? w = some wrapper)
    (named : wrapper.typeName = fluent.name) (holds : wrapper.get? c.object.name = some value) :
    m.getProperty (.object w) c.objectProperty heap = (.ok value, heap) := by
  have isMethod : c.accessorOf ∈ c.wantedOf options members := accessorOf_mem
  obtain ⟨method, own, isLowered⟩ := lookup_fluent ofFluent unambiguous isMethod rfl
  have own : ownInstanceMethod? (getterName c.objectProperty) ([] : List Value).length fluent =
      some (fluent, method) := own
  have object := ofFluent.link 1 isMethod rfl rfl rfl
  have found : fluent.findProperty? c.objectProperty = some (lowerProperty
      ⟨c.objectProperty, c.objectType, some (getterName c.objectProperty), none⟩) := by
    obtain ⟨methods, -, rfl⟩ := of_lowerType ofFluent.lowered
    refine List.find?_cons_of_pos ?_
    exact beq_iff_eq.2 rfl
  refine (getProperty_eq alive named ofFluent.known found rfl).trans ?_
  refine (invoke_eq alive named ofFluent.known own).trans ?_
  exact Carries.execute_of_runsTo isLowered nofun rfl
    (runsTo_read indexable object alive holds (returnsValue_of_lowerMethod isLowered))

omit ofProxy distinct isIn in
theorem getProperty_object (wraps : m.Wraps c.object.name fluent proxy heap w p) :
    m.getProperty (.object w) c.objectProperty heap = (.ok (.object p), heap) := by
  obtain ⟨wrapper, alive, named, holds⟩ := wraps.wrapper
  exact getProperty_held indexable ofFluent unambiguous alive named holds

omit ofProxy distinct isIn indexable unambiguous in
theorem has_object {inst : Instance}
    (has : ∀ f ∈ (m.hierarchy fluent).flatMap (·.fields), inst.has f.name = true) :
    inst.has c.object.name = true := by
  obtain ⟨bases, hierarchy⟩ := hierarchy_eq_cons m fluent
  have isField : lowerField ⟨c.object.name, c.objectType, .privateAccess⟩ ∈ fluent.fields := by
    obtain ⟨methods, -, rfl⟩ := of_lowerType ofFluent.lowered
    exact List.mem_cons_self
  exact has _ (List.mem_flatMap.2 ⟨fluent, hierarchy ▸ List.mem_cons_self, isField⟩)

omit indexable ofProxy ofFluent distinct isIn in
theorem found_wrapConstructor :
    (fluentOf c (proxyOf c.proxy source members (some c.interface)) options).findMethod?
      constructorName [Value.object p].length = some c.wrapConstructorOf := by
  have isMethod : c.wrapConstructorOf ∈ c.wantedOf options members := wrapConstructorOf_mem
  exact findMethod?_of_unambiguous (t := fluentOf c
    (proxyOf c.proxy source members (some c.interface)) options) unambiguous isMethod

omit ofProxy distinct unambiguous isIn in
/-- On a new wrapper the constructor with an argument sets the object field to it. -/
theorem execute_wrapConstructor {levels : Nat} {method : Method}
    (isLowered : lowerMethod m.artifact.memberRefs
      (fluentOf c (proxyOf c.proxy source members (some c.interface)) options) c.wrapConstructorOf =
        .ok method) (isInstance : m.IsInstance heap fluent w) :
    ∃ later, m.executeWithin (levels + 1) fluent method [.object w, .object p] heap =
      (.ok .null, later) ∧ heap.Stored later w c.object.name (.object p) := by
  obtain ⟨inst, alive, -, has⟩ := isInstance
  obtain ⟨later, stored⟩ := Heap.exists_setField alive (has_object ofFluent has) (.object p)
  have isMethod : c.wrapConstructorOf ∈ c.wantedOf options members := wrapConstructorOf_mem
  have root := ofFluent.link 1 isMethod rfl rfl rfl
  have object := ofFluent.link 4 isMethod rfl rfl rfl
  refine ⟨later, ?_, Heap.stored_setField stored⟩
  exact Carries.execute_of_runsTo isLowered nofun rfl (.loadThis indexable
    (.rootConstructor indexable root (.loadThis indexable (.loadArg indexable rfl
      (.storeField indexable object alive stored
        (.retVoid indexable (returnsValue_of_lowerMethod isLowered)))))))

omit ofProxy distinct isIn in
theorem construct_wrapping {levels room : Nat} {made : Value}
    (isInstance : m.IsInstance heap proxy p)
    (constructed : constructWith (m.executeWithin (levels + 1)) (m.allocateWithin room) fluent
      [.object p] heap = (.ok made, later)) :
    ∃ w, made = .object w ∧ m.Wraps c.object.name fluent proxy later w p := by
  obtain ⟨method, w, between, result, isLowered, rfl, grows, fresh, isNew, executed⟩ :=
    ofFluent.of_constructWith rfl (found_wrapConstructor unambiguous) rfl constructed
  obtain ⟨last, runs, stored⟩ := execute_wrapConstructor indexable ofFluent isLowered isNew
  cases executed.symm.trans runs
  obtain ⟨inst, alive, named, -⟩ := isNew
  have differs : w ≠ p := by
    rintro rfl
    obtain ⟨inst', alive', -⟩ := isInstance
    rw [fresh] at alive'
    cases alive'
  exact ⟨w, rfl, wraps_of_stored differs (isInstance.grows grows) alive named stored⟩

omit indexable ofProxy distinct unambiguous isIn in
theorem fields_fluent : (m.hierarchy fluent).flatMap (·.fields) =
    [lowerField ⟨c.object.name, c.objectType, .privateAccess⟩] := by
  obtain ⟨methods, -, rfl⟩ := of_lowerType ofFluent.lowered
  rw [hierarchy_of_rootObject rfl]
  rfl

omit indexable ofProxy distinct unambiguous isIn in
/-- The only field of a wrapper is of the interface, which is no struct. -/
theorem needsNone_fluent {interface : TypeDefinition} {shown : List Member}
    (ofInterface : m.Carries (interfaceType c.interface source shown) interface) :
    ∀ f ∈ (m.hierarchy fluent).flatMap (·.fields), m.NeedsNone f.type := by
  have isInterface : interface.kind = .interface := by
    obtain ⟨methods, -, rfl⟩ := of_lowerType ofInterface.lowered
    rfl
  have known : m.artifact.findType? c.interface.canonical = some interface := by
    have named : interface.name = c.interface.canonical := ofInterface.name_eq
    rw [← named]
    exact Artifact.findType?_of_mem m.verified ofInterface.known
  rw [fields_fluent ofFluent]
  intro f isIn allocate heap
  have isField : f = lowerField ⟨c.object.name, c.objectType, .privateAccess⟩ :=
    List.mem_singleton.1 isIn
  subst isField
  refine ⟨.null, ?_⟩
  show m.defaultValue allocate (.named c.interface.canonical) heap = _
  unfold defaultValue
  dsimp only
  rw [known]
  dsimp only
  rw [isInterface]
  rfl

omit ofProxy distinct isIn in
theorem exists_wrapping {levels room : Nat} {interface : TypeDefinition} {shown : List Member}
    (ofInterface : m.Carries (interfaceType c.interface source shown) interface) :
    ∃ w later, constructWith (m.executeWithin (levels + 1)) (m.allocateWithin (room + 1)) fluent
      [.object p] heap = (.ok (.object w), later) := by
  refine ofFluent.exists_constructWith rfl (found_wrapConstructor unambiguous) rfl
    (needsNone_fluent ofFluent ofInterface) fun method ref between isLowered isNew => ?_
  obtain ⟨last, runs, -⟩ := execute_wrapConstructor indexable ofFluent isLowered isNew
  exact ⟨last, runs⟩

omit distinct isIn in
/-- The constructor without arguments wraps a new proxy. -/
theorem construct_new {levels room : Nat} {made : Value}
    (constructed : constructWith (m.executeWithin (levels + 3)) (m.allocateWithin room) fluent [] heap =
      (.ok made, later)) :
    ∃ w p, made = .object w ∧ m.Wraps c.object.name fluent proxy later w p := by
  have isMethod : c.newConstructorOf ∈ c.wantedOf options members := newConstructorOf_mem
  have found := findMethod?_of_unambiguous (t := fluentOf c
    (proxyOf c.proxy source members (some c.interface)) options) unambiguous isMethod
  have found : (fluentOf c (proxyOf c.proxy source members (some c.interface)) options).findMethod?
      constructorName ([] : List Value).length = some c.newConstructorOf := found
  obtain ⟨method, w, between, result, isLowered, rfl, -, -, ⟨inst, alive, named, has⟩, executed⟩ :=
    ofFluent.of_constructWith rfl found rfl constructed
  have root := ofFluent.link 1 isMethod rfl rfl rfl
  have proxied := ofFluent.link 3 isMethod rfl rfl rfl
  have object := ofFluent.link 4 isMethod rfl rfl rfl
  have start {outcome : Except RunError Value × Heap}
      (runs : m.RunsTo (m.callees (levels + 2)) method [.object w]
        [.newObj (MethodTarget.constructor c.proxy 0), .storeField c.object, .ret]
        [.object w] between outcome) :
      m.executeWithin (levels + 3) fluent method [.object w] between = outcome :=
    Carries.execute_of_runsTo isLowered nofun rfl
      (.loadThis indexable (.rootConstructor indexable root (.loadThis indexable runs)))
  -- if the proxy could not be made, neither could the wrapper
  rcases nested : (m.callees (levels + 2)).construct proxy [] between with ⟨e | value, after⟩
  · have runs := start (.newObj indexable proxied rfl ofProxy.known ofProxy.name_eq.symm
      (fun _ _ same => nested.symm.trans same) fun _ _ same => nomatch nested.symm.trans same)
    cases executed.symm.trans runs
  · obtain ⟨p, rfl, grows, fresh, isInstance⟩ := construct_proxy indexable ofProxy nested
    have alive' := grows w inst alive
    obtain ⟨last, stored⟩ := Heap.exists_setField alive' (has_object ofFluent has) (.object p)
    have runs : m.executeWithin (levels + 3) fluent method [.object w] between =
        (.ok .null, last) := by
      refine start (.newObj indexable proxied rfl ofProxy.known ofProxy.name_eq.symm
        (fun _ _ same => nomatch nested.symm.trans same) fun made after' same => ?_)
      cases nested.symm.trans same
      exact .storeField indexable object alive' stored
        (.retVoid indexable (returnsValue_of_lowerMethod isLowered))
    cases executed.symm.trans runs
    have differs : w ≠ p := by
      rintro rfl
      rw [fresh] at alive
      cases alive
    exact ⟨w, p, rfl, wraps_of_stored differs isInstance alive' named (Heap.stored_setField stored)⟩

end

end Machine.Loaded

end FluentWrappers
