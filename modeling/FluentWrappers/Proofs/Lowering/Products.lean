import FluentWrappers.Proofs.Lowering.Acceptance
import FluentWrappers.Proofs.Synthesis.Parts

/-!
# Products link up

Every method of what is made of a source type was built. The clone of a struct links up by itself, a
proxy does if no other type has the name of its interface, and a fluent wrapper does among types with
its interface and its proxy.
-/

namespace FluentWrappers.Lowering

open Synthesis

/-! ### Bodies -/

theorem isBuilt_of_body {m : MethodSpec} {instructions : List Instruction} {maxStack : UInt16}
    (isBody : m.body = some ⟨instructions, maxStack⟩) (concrete : m.kind ≠ .abstractMethod)
    (few : instructions.length ≤ 6)
    (built : BodyBuilder.build instructions m.returns.isSome = .ok ⟨instructions, maxStack⟩)
    (fits : ∀ i ∈ instructions, i.Fits m.slots) : m.IsBuilt := by
  unfold MethodSpec.IsBuilt
  rw [isBody]
  exact ⟨concrete, Nat.lt_of_le_of_lt few (by decide), built, fits⟩

theorem isBuilt_abstractAccessors {m : Member} {method : MethodSpec}
    (isMethod : method ∈ abstractAccessors m) : method.IsBuilt := by
  rcases mem_abstractAccessors.1 isMethod with ⟨-, rfl⟩ | ⟨-, rfl⟩ <;> rfl

theorem isBuilt_backedOf {name : TypeName} {kind : ProductKind} {visibility : Visibility}
    {source : SourceType} {members : List Member} {interface : Option TypeName} {method : MethodSpec}
    (isMethod : method ∈ (backedOf name kind visibility source members interface).methods) :
    method.IsBuilt := by
  obtain ⟨m, -, rfl | rfl⟩ := mem_methods_backedOf.1 isMethod
  · refine isBuilt_of_body rfl (by rintro ⟨⟩) (by simp) rfl ?_
    simp [Instruction.Fits, MethodSpec.slots, MethodSpec.arity, backedGetter]
  · refine isBuilt_of_body rfl (by rintro ⟨⟩) (by simp) rfl ?_
    simp [Instruction.Fits, MethodSpec.slots, MethodSpec.arity, backedSetter]

theorem isBuilt_defaultConstructor : defaultConstructor.IsBuilt := by
  refine isBuilt_of_body rfl (by rintro ⟨⟩) (by simp) rfl ?_
  simp [Instruction.Fits, MethodSpec.slots, MethodSpec.arity, defaultConstructor, constructorOf]

section

variable {c : FluentContext} {options : TypeOptions} {members : List Member} {method : MethodSpec}

theorem isBuilt_wantedOf (isMethod : method ∈ c.wantedOf options members) : method.IsBuilt := by
  rcases FluentContext.of_mem_wantedOf isMethod with
    rfl | rfl | ⟨m, -, rfl | rfl⟩ | rfl | isFactory
  · refine isBuilt_of_body rfl (by rintro ⟨⟩) (by simp) rfl ?_
    simp [Instruction.Fits, MethodSpec.slots, MethodSpec.arity, FluentContext.newConstructorOf,
      constructorOf]
  · refine isBuilt_of_body rfl (by rintro ⟨⟩) (by simp) rfl ?_
    simp [Instruction.Fits, MethodSpec.slots, MethodSpec.arity, FluentContext.wrapConstructorOf,
      constructorOf]
  · refine isBuilt_of_body rfl (by rintro ⟨⟩) (by simp) rfl ?_
    simp [Instruction.Fits, MethodSpec.slots, MethodSpec.arity, FluentContext.setterOf]
  · refine isBuilt_of_body rfl (by rintro ⟨⟩) (by simp) rfl ?_
    simp [Instruction.Fits, MethodSpec.slots, MethodSpec.arity, FluentContext.getterOf]
  · refine isBuilt_of_body rfl (by rintro ⟨⟩) (by simp) rfl ?_
    simp [Instruction.Fits, MethodSpec.slots, MethodSpec.arity, FluentContext.accessorOf]
  · obtain ⟨isKind, -, returns, isBody⟩ := FluentContext.of_mem_factoryOf isFactory
    refine isBuilt_of_body isBody (by simp [isKind]) (by simp) (by rw [returns]; rfl) ?_
    simp [Instruction.Fits]

end

theorem isBuilt_of_product {s : Synthesizer} {u : SourceType} {kind : ProductKind}
    {t : SynthesizedType} (made : s.product u kind = some t) : ∀ m ∈ t.methods, m.IsBuilt := by
  intro m isMethod
  rcases Synthesizer.of_product made with
    ⟨underlying, literals, -, -, rfl⟩ | ⟨-, ⟨-, rfl⟩ | ⟨-, rfl⟩ | ⟨-, rfl⟩ | ⟨-, -, rfl⟩⟩
  · exact absurd isMethod List.not_mem_nil
  · obtain ⟨member, -, isMethod⟩ := List.mem_flatMap.1 isMethod
    exact isBuilt_abstractAccessors isMethod
  · rcases List.mem_cons.1 isMethod with rfl | isMethod
    · exact isBuilt_defaultConstructor
    · exact isBuilt_backedOf isMethod
  · have isBacked : m ∈ (backedOf u.name .structClone (accessorVisibility u none) u
        (s.resolvedMembers u) none).methods := isMethod
    exact isBuilt_backedOf isBacked
  · exact isBuilt_wantedOf isMethod

/-! ### References -/

section

variable {types : List SynthesizedType} {members : List Member} {m : Member}

theorem held_of_body {spec : MethodSpec} {instructions : List Instruction} {maxStack : UInt16}
    (isBody : spec.body = some ⟨instructions, maxStack⟩)
    (held : ∀ i ∈ instructions, Holds types i) :
    ∀ body ∈ spec.body, ∀ i ∈ body.instructions, Holds types i := by
  intro body isBody'
  cases isBody.symm.trans isBody'
  exact held

theorem isRootConstructor_rootConstructor :
    (methodReference MethodTarget.rootConstructor).isRootConstructor = true := by decide

theorem holdsField_backing {t : SynthesizedType} (isIn : t ∈ types)
    (fields : t.fields = members.map fun m => ⟨backingField m.name, m.type, .privateAccess⟩)
    (isMember : m ∈ members) : HoldsField types ⟨t.name, backingField m.name⟩ := by
  refine ⟨t, isIn, rfl, ⟨backingField m.name, m.type, .privateAccess⟩, ?_, rfl⟩
  rw [fields]
  exact List.mem_map_of_mem isMember

theorem held_backedAccessors {owner : TypeName} {visibility : Visibility}
    {interface : Option TypeName} {method : MethodSpec}
    (holds : HoldsField types ⟨owner, backingField m.name⟩)
    (isMethod : method = backedGetter owner visibility interface m ∨
      method = backedSetter owner visibility interface m) :
    ∀ body ∈ method.body, ∀ i ∈ body.instructions, Holds types i := by
  rcases isMethod with rfl | rfl
  · exact held_of_body rfl (by simp [Holds, holds])
  · exact held_of_body rfl (by simp [Holds, holds])

end

/-! ### Products among other types -/

section

variable {s : Synthesizer} {u : SourceType} {types : List SynthesizedType} {m : Member}

theorem eligible_of_mem_resolvedMembers (isMember : m ∈ s.resolvedMembers u) :
    m.readable = true ∧ m.writable = true := by
  obtain ⟨n, ⟨members, found, isIn⟩, rfl⟩ := exists_of_mem_resolvedMembers isMember
  have eligible := SourceCatalog.isEligible_of_extract found isIn
  have same : (s.resolved n).readable = n.readable ∧ (s.resolved n).writable = n.writable := by
    unfold Synthesizer.resolved
    split <;> exact ⟨rfl, rfl⟩
  simp only [Member.isEligible, Bool.and_eq_true] at eligible
  exact ⟨same.1.trans eligible.1.1.2, same.2.trans eligible.1.2⟩

/-- The accessors that the interface has for a member are found by their names. -/
theorem exists_accessors (isMember : m ∈ s.resolvedMembers u) :
    (∃ spec, (s.madeInterface u).findMethod? (getterName m.name) 0 = some spec ∧
      spec.kind = .abstractMethod ∧ spec.returns.isSome = true) ∧
    ∃ spec, (s.madeInterface u).findMethod? (setterName m.name) 1 = some spec ∧
      spec.kind = .abstractMethod ∧ spec.returns.isSome = false := by
  have all {spec : MethodSpec} {accessor : String} {arity : Nat}
      (found : (s.madeInterface u).findMethod? accessor arity = some spec) :
      spec.arity = arity ∧ spec.kind = .abstractMethod ∧
        spec.returns.isSome = decide (spec.arity = 0) := by
    unfold SynthesizedType.findMethod? at found
    obtain ⟨n, -, isMethod⟩ := List.mem_flatMap.1 (List.mem_of_find?_eq_some found)
    have selected := List.find?_some found
    rw [Bool.and_eq_true, beq_iff_eq, beq_iff_eq] at selected
    refine ⟨selected.2, ?_⟩
    rcases mem_abstractAccessors.1 isMethod with ⟨-, rfl⟩ | ⟨-, rfl⟩ <;> exact ⟨rfl, rfl⟩
  have find {spec : MethodSpec} (isMethod : spec ∈ abstractAccessors m) :
      ∃ found, (s.madeInterface u).findMethod? spec.name spec.arity = some found := by
    rw [← Option.isSome_iff_exists]
    exact List.find?_isSome.2 ⟨spec, List.mem_flatMap.2 ⟨m, isMember, isMethod⟩, by simp⟩
  obtain ⟨readable, writable⟩ := eligible_of_mem_resolvedMembers isMember
  obtain ⟨getter, foundGetter⟩ := find (mem_abstractAccessors.2 (Or.inl ⟨readable, rfl⟩))
  obtain ⟨setter, foundSetter⟩ := find (mem_abstractAccessors.2 (Or.inr ⟨writable, rfl⟩))
  obtain ⟨isGetter, abstract, returns⟩ := all foundGetter
  obtain ⟨isSetter, abstract', isVoid⟩ := all foundSetter
  rw [isGetter] at returns
  rw [isSetter] at isVoid
  exact ⟨⟨getter, foundGetter, abstract, returns⟩, setter, foundSetter, abstract', isVoid⟩

/-- A type without interfaces and bindings links up if its bodies do. -/
theorem linksUp_of_unbound {t : SynthesizedType} (unlisted : t.interfaces = [])
    (unbound : ∀ m ∈ t.methods, m.implements = none)
    (held : ∀ m ∈ t.methods, ∀ body ∈ m.body, ∀ i ∈ body.instructions, Holds types i) :
    LinksUp types t where
  held := held
  implements name isListed := by
    rw [unlisted] at isListed
    exact absurd isListed List.not_mem_nil
  binds m isMethod b isBound := by
    rw [unbound m isMethod] at isBound
    cases isBound

theorem linksUp_interface : LinksUp types (s.madeInterface u) := by
  have bare (m : MethodSpec) (isMethod : m ∈ (s.madeInterface u).methods) :
      m.implements = none ∧ m.body = none := by
    obtain ⟨n, -, isMethod⟩ := List.mem_flatMap.1 isMethod
    rcases mem_abstractAccessors.1 isMethod with ⟨-, rfl⟩ | ⟨-, rfl⟩ <;> exact ⟨rfl, rfl⟩
  refine linksUp_of_unbound rfl (fun m isMethod => (bare m isMethod).1) ?_
  intro m isMethod body isBody
  rw [(bare m isMethod).2] at isBody
  cases isBody

theorem linksUp_struct (isIn : s.madeStruct u ∈ types) : LinksUp types (s.madeStruct u) := by
  have backed {m : MethodSpec} (isMethod : m ∈ (s.madeStruct u).methods) :
      m ∈ (backedOf u.name .structClone (accessorVisibility u none) u (s.resolvedMembers u)
        none).methods := isMethod
  refine linksUp_of_unbound rfl (fun m isMethod => ?_) fun m isMethod => ?_
  · obtain ⟨n, -, rfl | rfl⟩ := mem_methods_backedOf.1 (backed isMethod) <;> rfl
  · obtain ⟨n, isMember, isAccessor⟩ := mem_methods_backedOf.1 (backed isMethod)
    exact held_backedAccessors (holdsField_backing isIn rfl isMember) isAccessor

theorem linksUp_proxy (isIn : s.madeProxy u ∈ types)
    (unique : ∀ i ∈ types, i.canonical = (s.productName u .interface).canonical →
      i = s.madeInterface u) : LinksUp types (s.madeProxy u) where
  held m isMethod := by
    rcases List.mem_cons.1 isMethod with rfl | isMethod
    · exact held_of_body rfl (by simp [Holds, isRootConstructor_rootConstructor])
    · obtain ⟨n, isMember, isAccessor⟩ := mem_methods_backedOf.1 isMethod
      exact held_backedAccessors (holdsField_backing isIn rfl isMember) isAccessor
  implements name isListed i isType isNamed := by
    obtain rfl := List.mem_singleton.1 isListed
    obtain rfl := unique i isType isNamed
    refine ⟨rfl, fun method isMethod => Option.isSome_iff_exists.1 (List.find?_isSome.2 ?_)⟩
    -- the accessor for the same member is bound to the method
    obtain ⟨n, isMember, isMethod⟩ := List.mem_flatMap.1 isMethod
    rcases mem_abstractAccessors.1 isMethod with ⟨-, rfl⟩ | ⟨-, rfl⟩
    · exact ⟨_, List.mem_cons_of_mem _ (mem_methods_backedOf.2 ⟨n, isMember, Or.inl rfl⟩),
        beq_iff_eq.2 rfl⟩
    · exact ⟨_, List.mem_cons_of_mem _ (mem_methods_backedOf.2 ⟨n, isMember, Or.inr rfl⟩),
        beq_iff_eq.2 rfl⟩
  binds m isMethod b isBound := by
    rcases List.mem_cons.1 isMethod with rfl | isMethod
    · cases isBound
    · obtain ⟨n, isMember, isAccessor⟩ := mem_methods_backedOf.1 isMethod
      obtain ⟨⟨getter, isGetter, ofGetter, -⟩, setter, isSetter, ofSetter, -⟩ :=
        exists_accessors isMember
      rcases isAccessor with rfl | rfl
      · cases isBound
        refine ⟨List.mem_singleton_self _, fun i isType isNamed => ?_⟩
        obtain rfl := unique i isType isNamed
        exact ⟨getter, isGetter, ofGetter⟩
      · cases isBound
        refine ⟨List.mem_singleton_self _, fun i isType isNamed => ?_⟩
        obtain rfl := unique i isType isNamed
        exact ⟨setter, isSetter, ofSetter⟩

theorem linksUp_fluent (isFluent : s.madeFluent u ∈ types) (isProxy : s.madeProxy u ∈ types)
    (isInterface : s.madeInterface u ∈ types) : LinksUp types (s.madeFluent u) := by
  have holdsObject : HoldsField types (s.fluentContext u).object :=
    ⟨_, isFluent, rfl, _, List.mem_singleton_self _, rfl⟩
  have holdsProxy : HoldsMethod types (.constructor (s.fluentContext u).proxy 0) :=
    ⟨_, isProxy, rfl, defaultConstructor, rfl, rfl, rfl⟩
  have holdsFluent : HoldsMethod types (.constructor (s.fluentContext u).name 0) :=
    ⟨_, isFluent, rfl, (s.fluentContext u).newConstructorOf, rfl, rfl, rfl⟩
  have holdsAccessors (n : Member) (isMember : n ∈ s.resolvedMembers u) :
      HoldsMethod types ⟨(s.fluentContext u).interface, getterName n.name, 0, true, false⟩ ∧
        HoldsMethod types ⟨(s.fluentContext u).interface, setterName n.name, 1, false, false⟩ := by
    obtain ⟨⟨getter, isGetter, abstract, returns⟩, setter, isSetter, abstract', isVoid⟩ :=
      exists_accessors isMember
    exact ⟨⟨_, isInterface, rfl, getter, isGetter, by rw [abstract]; rfl, returns⟩,
      ⟨_, isInterface, rfl, setter, isSetter, by rw [abstract']; rfl, isVoid⟩⟩
  have unbound (m : MethodSpec) (isMethod : m ∈ (s.madeFluent u).methods) : m.implements = none := by
    rcases FluentContext.of_mem_wantedOf isMethod with
      rfl | rfl | ⟨n, -, rfl | rfl⟩ | rfl | isFactory
    · rfl
    · rfl
    · rfl
    · rfl
    · rfl
    · exact (FluentContext.of_mem_factoryOf isFactory).2.1
  refine linksUp_of_unbound rfl unbound fun m isMethod => ?_
  rcases FluentContext.of_mem_wantedOf isMethod with
    rfl | rfl | ⟨n, isMember, isAccessor⟩ | rfl | isFactory
  · exact held_of_body rfl
      (by simp [Holds, isRootConstructor_rootConstructor, holdsProxy, holdsObject])
  · exact held_of_body rfl (by simp [Holds, isRootConstructor_rootConstructor, holdsObject])
  · obtain ⟨getter, setter⟩ := holdsAccessors n isMember
    rcases isAccessor with rfl | rfl
    · exact held_of_body rfl (by simp [Holds, holdsObject, setter])
    · exact held_of_body rfl (by simp [Holds, holdsObject, getter])
  · exact held_of_body rfl (by simp [Holds, holdsObject])
  · exact held_of_body (FluentContext.of_mem_factoryOf isFactory).2.2.2
      (by simp [Holds, holdsFluent])

end

end FluentWrappers.Lowering
