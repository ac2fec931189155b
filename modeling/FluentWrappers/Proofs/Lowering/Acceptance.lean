import FluentWrappers.Proofs.Lowering.BuiltBodies
import FluentWrappers.Proofs.Lowering.Standalone

/-!
# Types that link up

Types link up if what the bodies, interfaces and bindings of each refer to is found among them. The
verifier looks all of this up again in their definitions. So types that link up have an artifact, unless
two have one canonical name, an enumeration has no integral primitive under it, or an interface is not
among them at all.
-/

namespace FluentWrappers.Lowering

open Synthesis (Instruction FieldTarget MethodTarget MethodSpec SynthesizedType LoweringFault
  SynthesisError)

variable {types : List SynthesizedType} {t : SynthesizedType} {table : List MemberReference}
  {definitions : List TypeDefinition} {runtime : RuntimeNames} {metadata : Metadata}

/-! ### Links -/

/-- A type with the owner's name has a field of that name. -/
def HoldsField (types : List SynthesizedType) (f : FieldTarget) : Prop :=
  ∃ t ∈ types, t.canonical = f.owner.canonical ∧ ∃ field ∈ t.fields, field.name = f.name

/-- A type with the owner's name has a method of that name and number of parameters, static and with a
result as the target says. -/
def HoldsMethod (types : List SynthesizedType) (m : MethodTarget) : Prop :=
  ∃ t ∈ types, t.canonical = m.owner.canonical ∧ ∃ spec,
    t.findMethod? m.name m.params.toNat = some spec ∧
      (spec.kind == .staticMethod) = m.isStatic ∧ spec.returns.isSome = m.returns

/-- The types have what the instruction refers to. The root constructor is there always. -/
def Holds (types : List SynthesizedType) : Instruction → Prop
  | .loadField f | .storeField f => HoldsField types f
  | .call m | .callVirt m | .newObj m =>
    (methodReference m).isRootConstructor = true ∨ HoldsMethod types m
  | .loadThis | .loadArg _ | .ret => True

/-- What the type refers to is found among the types. Of an interface that is listed it is asked that it
fits if it is there, and not that it is there. -/
structure LinksUp (types : List SynthesizedType) (t : SynthesizedType) : Prop where
  held : ∀ m ∈ t.methods, ∀ body ∈ m.body, ∀ i ∈ body.instructions, Holds types i
  implements : ∀ name ∈ t.interfaces, ∀ i ∈ types, i.canonical = name.canonical →
    i.kind = .interface ∧ ∀ method ∈ i.methods, ∃ bound,
      t.methods.find? (bindsTo name method.name) = some bound
  binds : ∀ m ∈ t.methods, ∀ b ∈ m.implements, b.interface ∈ t.interfaces ∧
    ∀ i ∈ types, i.canonical = b.interface.canonical →
      ∃ target, i.findMethod? b.method m.arity = some target ∧ target.kind = .abstractMethod

/-- The enumeration has an integral primitive under it. -/
def HasIntegral (t : SynthesizedType) : Prop :=
  ∃ spec ∈ t.enumSpec, spec.underlying.isIntegral = true

/-- What keeps types from having an artifact even if they link up. -/
inductive Obstacle (types : List SynthesizedType) : LoweringFault → Prop
  | emittedTwice {t : SynthesizedType} (isIn : t ∈ types)
      (again : ¬ (types.map (·.canonical)).Nodup) : Obstacle types (.emittedTwice t.canonical)
  | invalidEnum {t : SynthesizedType} (distinct : (types.map (·.canonical)).Nodup)
      (isIn : t ∈ types) (isEnum : t.kind = .enumClone) (bare : ¬ HasIntegral t) :
      Obstacle types (.unsound (.invalidEnum t.canonical))
  | unresolvedInterface {t : SynthesizedType} {name : TypeName}
      (distinct : (types.map (·.canonical)).Nodup) (isIn : t ∈ types)
      (isListed : name ∈ t.interfaces) (missing : name.canonical ∉ types.map (·.canonical)) :
      Obstacle types (.unsound (.unresolvedInterface t.canonical name.canonical))

/-! ### Definitions by name -/

theorem findType?_of_mem (runtime : RuntimeNames) (metadata : Metadata)
    (defined : lowerTypes (referenceTable types) [] types = .ok definitions) (isIn : t ∈ types) :
    ∃ d,
    (assembled runtime metadata types definitions).findType? t.canonical = some d ∧
      lowerType (referenceTable types) t = .ok d := by
  have byName : types.find? (fun u => u.canonical == t.canonical) = some t :=
    FirstOccurrence.find?_key (nodup_of_lowerTypes defined).1 isIn
  have same (u : SynthesizedType) (d : TypeDefinition)
      (lowered : lowerType (referenceTable types) u = .ok d) :
      (u.canonical == t.canonical) = (d.name == t.canonical) := by
    obtain ⟨methods, -, rfl⟩ := of_lowerType lowered
    rfl
  obtain ⟨d, lowered, found⟩ :=
    find?_of_forall₂ (forall₂_of_lowerTypes defined) same byName
  exact ⟨d, found, lowered⟩

section

variable (defined : lowerTypes (referenceTable types) [] types = .ok definitions)

include defined

theorem findType?_eq_none {name : String} (missing : name ∉ types.map (·.canonical)) :
    (assembled runtime metadata types definitions).findType? name = none := by
  rw [← Option.isNone_iff_eq_none, ← Option.not_isSome, Bool.not_eq_true', ← Bool.not_eq_true,
    isSome_findType?]
  exact (names_of_lowerTypes defined).symm ▸ missing

theorem checkInterface_of_not_mem {d : TypeDefinition} {name : String}
    (missing : name ∉ types.map (·.canonical)) :
    (assembled runtime metadata types definitions).checkInterface d name =
      .error (.unresolvedInterface d.name name) := by
  unfold Artifact.checkInterface
  rw [findType?_eq_none defined missing]

theorem mem_of_checkInterface {d : TypeDefinition} {name : String}
    (passed : (assembled runtime metadata types definitions).checkInterface d name = .ok ()) :
    name ∈ types.map (·.canonical) := by
  by_contra missing
  rw [checkInterface_of_not_mem defined missing] at passed
  cases passed

/-! ### References -/

theorem checkMemberRef_field {f : FieldTarget} (holds : HoldsField types f) :
    (assembled runtime metadata types definitions).checkMemberRef (fieldReference f) = .ok () := by
  obtain ⟨t, isIn, isOwner, field, isField, isNamed⟩ := holds
  obtain ⟨d, found, lowered⟩ :=
    findType?_of_mem runtime metadata defined isIn
  obtain ⟨methods, -, rfl⟩ := of_lowerType lowered
  have has : ((definitionOf t methods).findField? f.name).isSome = true :=
    List.find?_isSome.2 ⟨lowerField field, List.mem_map_of_mem isField, beq_iff_eq.2 isNamed⟩
  rw [isOwner] at found
  unfold Artifact.checkMemberRef
  split
  · rfl
  · rw [show (fieldReference f).owner = f.owner.canonical from rfl, found]
    exact if_pos has

theorem checkMemberRef_method {m : MethodTarget} (holds : HoldsMethod types m) :
    (assembled runtime metadata types definitions).checkMemberRef (methodReference m) = .ok () := by
  obtain ⟨t, isIn, isOwner, spec, isFound, isStatic, returns⟩ := holds
  obtain ⟨d, found, lowered⟩ :=
    findType?_of_mem runtime metadata defined isIn
  obtain ⟨method, has, isLowered⟩ := findMethod?_of_lowerType lowered isFound
  obtain ⟨-, -, sameFlags, -⟩ := of_lowerMethod isLowered
  have sameStatic : method.isStatic = m.isStatic := by
    unfold Method.isStatic
    rw [sameFlags, (flags_of_kind spec).2.1, isStatic]
  have sameReturns : method.returnsValue = m.returns :=
    (returnsValue_of_lowerMethod isLowered).trans returns
  rw [isOwner] at found
  unfold Artifact.checkMemberRef
  split
  · rfl
  · rw [show (methodReference m).owner = m.owner.canonical from rfl, found]
    dsimp only [methodReference, MemberReference.method]
    rw [has]
    exact if_pos (by simp [sameStatic, sameReturns])

theorem checkMemberRef_of_holds {i : Instruction} {r : MemberReference} (holds : Holds types i)
    (isRef : referenceOf? i = some r) :
    (assembled runtime metadata types definitions).checkMemberRef r = .ok () := by
  cases i with
  | loadThis | loadArg | ret => cases isRef
  | loadField f | storeField f =>
    cases isRef
    exact checkMemberRef_field defined holds
  | call m | callVirt m | newObj m =>
    cases isRef
    rcases holds with isRoot | holds
    · exact if_pos isRoot
    · exact checkMemberRef_method defined holds

/-! ### Interfaces and bindings -/

section

variable (links : LinksUp types t) {d : TypeDefinition}
  (lowered : lowerType (referenceTable types) t = .ok d)

include links lowered

theorem checkInterface_of_mem {name : TypeName} (isListed : name ∈ t.interfaces)
    (isIn : name.canonical ∈ types.map (·.canonical)) :
    (assembled runtime metadata types definitions).checkInterface d name.canonical = .ok () := by
  obtain ⟨i, isType, isNamed⟩ := List.mem_map.1 isIn
  obtain ⟨isInterface, implemented⟩ := links.implements name isListed i isType isNamed
  obtain ⟨interface, found, isLowered⟩ :=
    findType?_of_mem runtime metadata defined isType
  obtain ⟨methods, pairs, rfl⟩ := of_lowerType isLowered
  have isKind : (definitionOf i methods).kind = .interface := congrArg definitionKind isInterface
  have none : (definitionOf i methods).methods.find? (fun m =>
      m.isAbstract && (d.findImplementation? name.canonical m.name).isNone) = none := by
    refine List.find?_eq_none.2 fun method isMethod => ?_
    obtain ⟨spec, isSpec, isLowered⟩ := exists_left_of_forall₂ pairs isMethod
    obtain ⟨bound, isBound⟩ := implemented spec isSpec
    obtain ⟨implementation, isFound, -⟩ := findImplementation?_of_lowerType lowered isBound
    rw [(of_lowerMethod isLowered).1, isFound]
    simp
  rw [isNamed] at found
  unfold Artifact.checkInterface
  rw [found]
  dsimp only
  rw [if_neg (not_not.2 isKind), none]
  exact ite_self _

theorem checkBinding_of_linksUp {m : Method} (isMethod : m ∈ d.methods)
    (interfaces : ∀ name ∈ t.interfaces, name.canonical ∈ types.map (·.canonical)) :
    (assembled runtime metadata types definitions).checkBinding d m = .ok () := by
  obtain ⟨methods, pairs, rfl⟩ := of_lowerType lowered
  obtain ⟨spec, isSpec, isLowered⟩ := exists_left_of_forall₂ pairs isMethod
  obtain ⟨-, sameArity, -, -, sameBinding, -⟩ := of_lowerMethod isLowered
  unfold Artifact.checkBinding
  rw [sameBinding]
  cases isBound : spec.implements with
  | none => rfl
  | some b =>
    obtain ⟨isListed, resolved⟩ := links.binds spec isSpec b isBound
    obtain ⟨i, isType, isNamed⟩ := List.mem_map.1 (interfaces b.interface isListed)
    obtain ⟨target, isTarget, isAbstract⟩ := resolved i isType isNamed
    obtain ⟨interface, found, isLowered'⟩ :=
      findType?_of_mem runtime metadata defined isType
    obtain ⟨method, isFound, isLowered''⟩ := findMethod?_of_lowerType isLowered' isTarget
    have abstract : method.isAbstract = true := by
      unfold Method.isAbstract
      rw [(of_lowerMethod isLowered'').2.2.1, (flags_of_kind target).1, isAbstract]
      rfl
    rw [isNamed] at found
    refine if_pos ?_
    unfold Artifact.bindingResolves
    have contains : (definitionOf t methods).interfaces.contains b.interface.canonical = true :=
      List.contains_iff_mem.2 (List.mem_map_of_mem isListed)
    rw [contains, found, sameArity, Option.bind_some, isFound]
    exact abstract

end

end

/-! ### Whole artifacts -/

theorem hasIntegralUnderlying_iff {d : TypeDefinition} (lowered : lowerType table t = .ok d) :
    d.hasIntegralUnderlying = true ↔ HasIntegral t := by
  obtain ⟨methods, -, rfl⟩ := of_lowerType lowered
  unfold TypeDefinition.hasIntegralUnderlying HasIntegral definitionOf
  cases t.enumSpec <;> simp

theorem isEnum_iff {d : TypeDefinition} (lowered : lowerType table t = .ok d) :
    d.kind = .enumeration ↔ t.kind = .enumClone := by
  obtain ⟨methods, -, rfl⟩ := of_lowerType lowered
  show definitionKind t.kind = .enumeration ↔ _
  cases t.kind <;> simp [definitionKind]

/-- Types with an artifact have distinct names, integral primitives under enumerations, and their
interfaces among them. -/
theorem parts_of_lower {artifact : Artifact}
    (lowered : lower runtime metadata types = .ok artifact) : (types.map (·.canonical)).Nodup ∧
      (∀ t ∈ types, t.kind = .enumClone → HasIntegral t) ∧
        ∀ t ∈ types, ∀ name ∈ t.interfaces, name.canonical ∈ types.map (·.canonical) := by
  obtain ⟨definitions, defined, rfl, verified⟩ := of_lower lowered
  refine ⟨(nodup_of_lowerTypes defined).1, fun t isIn isEnum => ?_,
    fun t isIn name isListed => ?_⟩
  · obtain ⟨d, isDefinition, isLowered⟩ := exists_definition defined isIn
    have passed := (Artifact.verify_parts verified).2.2 d isDefinition
    exact (hasIntegralUnderlying_iff isLowered).1
      (Artifact.checkType_enum passed ((isEnum_iff isLowered).2 isEnum))
  · obtain ⟨d, isDefinition, isLowered⟩ := exists_definition defined isIn
    obtain ⟨methods, -, rfl⟩ := of_lowerType isLowered
    exact mem_of_checkInterface defined
      ((Artifact.verify_interfaces verified isDefinition).1 _ (List.mem_map_of_mem isListed))

theorem checkMethod_of_mem {d : TypeDefinition} {m : Method}
    (indexable : (referenceTable types).length ≤ UInt32.size)
    (built : ∀ t ∈ types, ∀ m ∈ t.methods, m.IsBuilt) (isIn : t ∈ types)
    (lowered : lowerType (referenceTable types) t = .ok d) (isMethod : m ∈ d.methods) :
    (assembled runtime metadata types definitions).checkMethod d m = .ok () := by
  obtain ⟨methods, pairs, rfl⟩ := of_lowerType lowered
  obtain ⟨spec, isSpec, isLowered⟩ := exists_left_of_forall₂ pairs isMethod
  have inTable (r : MemberReference) (isRef : r ∈ referencesOfMethod spec) :
      r ∈ referenceTable types :=
    List.mem_eraseDups.2 (List.mem_flatMap.2 ⟨t, isIn, List.mem_flatMap.2 ⟨spec, isSpec, isRef⟩⟩)
  have passed : m.checkBody (assembled runtime metadata types definitions).memberRefs = .ok () :=
    checkBody_of_isBuilt (built t isIn spec isSpec) indexable inTable isLowered
  unfold Artifact.checkMethod
  rw [passed]

section

variable (indexable : (referenceTable types).length ≤ UInt32.size)
  (built : ∀ t ∈ types, ∀ m ∈ t.methods, m.IsBuilt) (links : ∀ t ∈ types, LinksUp types t)
  (defined : lowerTypes (referenceTable types) [] types = .ok definitions)

include links defined

theorem checkMemberRef_of_mem {r : MemberReference} (isRef : r ∈ referenceTable types) :
    (assembled runtime metadata types definitions).checkMemberRef r = .ok () := by
  rw [referenceTable_eq, List.mem_eraseDups, mem_usesOf] at isRef
  obtain ⟨t, isIn, m, isMethod, body, isBody, i, isInstruction, refers⟩ := isRef
  rw [Instruction.reference?_operation] at refers
  exact checkMemberRef_of_holds defined
    ((links t isIn).held m isMethod body isBody i isInstruction) refers

include indexable built

/-- The verifier finds no fault with the definition of a type that links up, besides obstacles. -/
theorem obstacle_of_checkType_error {d : TypeDefinition} {e : VerifyError} (isIn : t ∈ types)
    (isDefinition : d ∈ definitions) (lowered : lowerType (referenceTable types) t = .ok d)
    (refused : (assembled runtime metadata types definitions).checkType d = .error e) :
    Obstacle types (.unsound e) := by
  have parts : d.name = t.canonical ∧ d.interfaces = t.interfaces.map (·.canonical) := by
    obtain ⟨methods, -, rfl⟩ := of_lowerType lowered
    exact ⟨rfl, rfl⟩
  obtain ⟨isNamed, interfaces⟩ := parts
  have distinct := (nodup_of_lowerTypes defined).1
  rcases Artifact.of_checkType_error refused with
    ⟨rfl, isEnum, bare⟩ | ⟨name, isListed, refused⟩ | ⟨m, isMethod, refused, passed⟩ |
      ⟨isStandalone, refused⟩ | ⟨m, isMethod, refused⟩
  · rw [isNamed]
    refine .invalidEnum distinct isIn ((isEnum_iff lowered).1 isEnum) fun integral => ?_
    rw [(hasIntegralUnderlying_iff lowered).2 integral] at bare
    cases bare
  · rw [interfaces] at isListed
    obtain ⟨interface, isInterface, rfl⟩ := List.mem_map.1 isListed
    by_cases known : interface.canonical ∈ types.map (·.canonical)
    · have passed : (assembled runtime metadata types definitions).checkInterface d
          interface.canonical = .ok () :=
        checkInterface_of_mem defined (links t isIn) lowered isInterface known
      cases passed.symm.trans refused
    · rw [checkInterface_of_not_mem defined known] at refused
      cases refused
      rw [isNamed]
      exact .unresolvedInterface distinct isIn isInterface known
  · -- all interfaces of the type have passed, so they are among the types
    have known (name : TypeName) (isListed : name ∈ t.interfaces) :
        name.canonical ∈ types.map (·.canonical) :=
      mem_of_checkInterface defined
        (passed name.canonical (interfaces ▸ List.mem_map_of_mem isListed))
    have passed : (assembled runtime metadata types definitions).checkBinding d m = .ok () :=
      checkBinding_of_linksUp defined (links t isIn) lowered isMethod known
    cases passed.symm.trans refused
  · have closed : isClosed runtime types = true := isClosed_of_flags isStandalone
    cases (checkStandalone_of_closed closed defined isDefinition).symm.trans refused
  · have passed : (assembled runtime metadata types definitions).checkMethod d m = .ok () :=
      checkMethod_of_mem indexable built isIn lowered isMethod
    cases passed.symm.trans refused

theorem obstacle_of_verify_error {e : VerifyError}
    (refused : (assembled runtime metadata types definitions).verify = .error e) :
    Obstacle types (.unsound e) := by
  have distinct : (definitions.map (·.name)).Nodup :=
    names_of_lowerTypes defined ▸ (nodup_of_lowerTypes defined).1
  rcases Artifact.of_verify_error rfl distinct refused with
    ⟨r, isRef, refused⟩ | ⟨d, isDefinition, refused⟩
  · have passed : (assembled runtime metadata types definitions).checkMemberRef r = .ok () :=
      checkMemberRef_of_mem links defined isRef
    cases passed.symm.trans refused
  · obtain ⟨t, isIn, lowered⟩ := exists_left_of_forall₂ (forall₂_of_lowerTypes defined) isDefinition
    exact obstacle_of_checkType_error indexable built links defined isIn isDefinition lowered refused

end

/-- Types that link up, if their names are distinct, have no artifact only because of an obstacle. -/
theorem obstacle_of_lower_error (indexable : (referenceTable types).length ≤ UInt32.size)
    (built : ∀ t ∈ types, ∀ m ∈ t.methods, m.IsBuilt)
    (links : (types.map (·.canonical)).Nodup → ∀ t ∈ types, LinksUp types t) {e : SynthesisError}
    (failed : lower runtime metadata types = .error e) :
    ∃ fault, Obstacle types fault ∧ e = .lowering fault := by
  rcases of_lower_error failed with
    ⟨fault, undefined, rfl⟩ | ⟨definitions, cause, defined, refused, rfl⟩
  · rcases of_lowerTypes_error undefined with
      ⟨t, isIn, rfl, old | again⟩ | ⟨t, isIn, spec, isSpec, mismatch, -⟩
    · exact absurd old List.not_mem_nil
    · exact ⟨_, .emittedTwice isIn again, rfl⟩
    · rw [bodyOf?_of_isBuilt (built t isIn spec isSpec)] at mismatch
      cases mismatch
  · have links := links (nodup_of_lowerTypes defined).1
    exact ⟨_, obstacle_of_verify_error indexable built links defined refused, rfl⟩

end FluentWrappers.Lowering
