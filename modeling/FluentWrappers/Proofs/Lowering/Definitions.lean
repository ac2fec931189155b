import FluentWrappers.Lowering.Artifact
import FluentWrappers.Proofs.Verification.Acceptance

/-!
# The definitions of an artifact

If types become an artifact, each of them has its definition in it, their canonical names are distinct,
and the artifact was accepted.
-/

namespace FluentWrappers.Lowering

open Synthesis (SynthesizedType MethodSpec LoweringFault)

variable {table : List MemberReference} {seen : List String} {types : List SynthesizedType}
  {definitions : List TypeDefinition} {artifact : Artifact} {runtime : RuntimeNames}
  {metadata : Metadata}

theorem of_lowerTypes_cons {t : SynthesizedType}
    (lowered : lowerTypes table seen (t :: types) = .ok definitions) :
    t.canonical ∉ seen ∧ ∃ d rest, lowerType table t = .ok d ∧
      lowerTypes table (t.canonical :: seen) types = .ok rest ∧ definitions = d :: rest := by
  unfold lowerTypes at lowered
  by_cases again : seen.contains t.canonical = true
  · rw [if_pos again] at lowered
    cases lowered
  · rw [if_neg again] at lowered
    refine ⟨mt List.contains_iff_mem.2 again, ?_⟩
    cases first : lowerType table t with
    | error e =>
      rw [first] at lowered
      cases lowered
    | ok d =>
      rw [first] at lowered
      replace lowered : (lowerTypes table (t.canonical :: seen) types >>= fun rest =>
        pure (d :: rest)) = .ok definitions := lowered
      cases others : lowerTypes table (t.canonical :: seen) types with
      | error e =>
        rw [others] at lowered
        cases lowered
      | ok rest =>
        rw [others] at lowered
        cases lowered
        exact ⟨d, rest, rfl, rfl, rfl⟩

/-- Types that are lowered together have canonical names of their own. -/
theorem nodup_of_lowerTypes (lowered : lowerTypes table seen types = .ok definitions) :
    (types.map (·.canonical)).Nodup ∧ ∀ t ∈ types, t.canonical ∉ seen := by
  induction types generalizing seen definitions with
  | nil => exact ⟨List.nodup_nil, fun _ isIn => absurd isIn List.not_mem_nil⟩
  | cons t types ih =>
    obtain ⟨fresh, d, rest, -, others, -⟩ := of_lowerTypes_cons lowered
    obtain ⟨distinct, unseen⟩ := ih others
    refine ⟨List.nodup_cons.2 ⟨?_, distinct⟩, List.forall_mem_cons.2 ⟨fresh, ?_⟩⟩
    · intro isIn
      obtain ⟨u, isLater, same⟩ := List.mem_map.1 isIn
      exact unseen u isLater (same ▸ List.mem_cons_self)
    · exact fun u isLater old => unseen u isLater (List.mem_cons_of_mem _ old)

theorem exists_definition (lowered : lowerTypes table seen types = .ok definitions)
    {t : SynthesizedType} (isIn : t ∈ types) : ∃ d ∈ definitions, lowerType table t = .ok d := by
  induction types generalizing seen definitions with
  | nil => exact absurd isIn List.not_mem_nil
  | cons first types ih =>
    obtain ⟨-, d, rest, isFirst, others, rfl⟩ := of_lowerTypes_cons lowered
    rcases List.mem_cons.1 isIn with rfl | isIn
    · exact ⟨d, List.mem_cons_self, isFirst⟩
    · obtain ⟨d', isIn', isLowered⟩ := ih others isIn
      exact ⟨d', List.mem_cons_of_mem d isIn', isLowered⟩

/-! ### Single definitions -/

theorem forall₂_of_mapM {α β ε : Type} {f : α → Except ε β} {xs : List α} {ys : List β}
    (mapped : xs.mapM f = .ok ys) : List.Forall₂ (fun x y => f x = .ok y) xs ys := by
  induction xs generalizing ys with
  | nil =>
    cases mapped
    exact .nil
  | cons x xs ih =>
    rw [List.mapM_cons] at mapped
    obtain ⟨y, first, mapped⟩ := Check.bind_eq_ok_iff.1 mapped
    obtain ⟨rest, others, mapped⟩ := Check.bind_eq_ok_iff.1 mapped
    cases mapped
    exact .cons first (ih others)

theorem find?_of_forall₂ {α β : Type} {r : α → β → Prop} {p : α → Bool} {q : β → Bool} {xs : List α}
    {ys : List β} (pairs : List.Forall₂ r xs ys) (same : ∀ x y, r x y → p x = q y) {x : α}
    (found : xs.find? p = some x) : ∃ y, r x y ∧ ys.find? q = some y := by
  induction pairs with
  | nil => cases found
  | cons related _ ih =>
    rw [List.find?_cons] at found
    split at found
    case h_1 holds =>
      cases found
      exact ⟨_, related, by rw [List.find?_cons, ← same _ _ related, holds]⟩
    case h_2 fails =>
      obtain ⟨y, isPair, isFound⟩ := ih found
      refine ⟨y, isPair, ?_⟩
      rw [List.find?_cons, ← same _ _ related, fails]
      exact isFound

theorem exists_left_of_forall₂ {α β : Type} {r : α → β → Prop} {xs : List α} {ys : List β}
    (pairs : List.Forall₂ r xs ys) {y : β} (isIn : y ∈ ys) : ∃ x ∈ xs, r x y := by
  induction pairs with
  | nil => cases isIn
  | cons related _ ih =>
    rcases List.mem_cons.1 isIn with rfl | isIn
    · exact ⟨_, List.mem_cons_self, related⟩
    · obtain ⟨x, isLeft, related⟩ := ih isIn
      exact ⟨x, List.mem_cons_of_mem _ isLeft, related⟩

theorem forall₂_of_lowerTypes (lowered : lowerTypes table seen types = .ok definitions) :
    List.Forall₂ (fun t d => lowerType table t = .ok d) types definitions := by
  induction types generalizing seen definitions with
  | nil =>
    cases lowered
    exact .nil
  | cons t types ih =>
    obtain ⟨-, d, rest, first, others, rfl⟩ := of_lowerTypes_cons lowered
    exact .cons first (ih others)

/-- The definition of a type with the methods as they were lowered. -/
def definitionOf (t : SynthesizedType) (methods : List Method) : TypeDefinition where
  name := t.canonical
  kind := definitionKind t.kind
  visibility := t.visibility
  flags := typeFlags t
  base := if definitionKind t.kind = .classType then some rootObject else none
  interfaces := t.interfaces.map (·.canonical)
  fields := t.fields.map lowerField
  methods := methods
  properties := t.properties.map lowerProperty
  underlying := t.enumSpec.map (·.underlying)
  literals := (t.enumSpec.map (·.literals)).getD []

theorem of_lowerType {t : SynthesizedType} {d : TypeDefinition}
    (lowered : lowerType table t = .ok d) : ∃ methods,
      List.Forall₂ (fun spec method => lowerMethod table t spec = .ok method) t.methods methods ∧
        d = definitionOf t methods := by
  obtain ⟨methods, mapped, made⟩ := Check.bind_eq_ok_iff.1 lowered
  cases made
  exact ⟨methods, forall₂_of_mapM mapped, rfl⟩

theorem names_of_lowerTypes (lowered : lowerTypes table seen types = .ok definitions) :
    definitions.map (·.name) = types.map (·.canonical) := by
  have pairs := forall₂_of_lowerTypes lowered
  clear lowered
  induction pairs with
  | nil => rfl
  | cons first _ others =>
    obtain ⟨methods, -, rfl⟩ := of_lowerType first
    exact congrArg₂ List.cons rfl others

theorem of_lowerMethod {t : SynthesizedType} {spec : MethodSpec} {method : Method}
    (lowered : lowerMethod table t spec = .ok method) :
    method.name = spec.name ∧ method.arity = spec.arity ∧ method.flags = methodFlags spec ∧
      method.returns = (spec.returns.map TypeRef.signature).getD .void ∧
      method.binding = spec.implements.map (fun b => ⟨b.interface.canonical, b.method⟩) ∧
      ∀ body, spec.body = some body → method.code = bodyCode table body := by
  unfold lowerMethod at lowered
  cases kept : bodyOf? spec with
  | none =>
    rw [kept] at lowered
    cases lowered
  | some body? =>
    rw [kept] at lowered
    cases lowered
    refine ⟨rfl, List.length_map _, rfl, rfl, rfl, fun body isBody => ?_⟩
    unfold bodyOf? at kept
    rw [isBody] at kept
    cases isKind : spec.kind <;> rw [isKind] at kept <;> cases kept <;> rfl

theorem findMethod?_of_lowerType {t : SynthesizedType} {d : TypeDefinition} {spec : MethodSpec}
    {name : String} {arity : Nat} (lowered : lowerType table t = .ok d)
    (found : t.findMethod? name arity = some spec) :
    ∃ method, d.findMethod? name arity = some method ∧ lowerMethod table t spec = .ok method := by
  obtain ⟨methods, pairs, rfl⟩ := of_lowerType lowered
  have same (spec : MethodSpec) (method : Method)
      (isLowered : lowerMethod table t spec = .ok method) :
      (spec.name == name && spec.arity == arity) = (method.name == name && method.arity == arity) := by
    obtain ⟨sameName, sameArity, -⟩ := of_lowerMethod isLowered
    rw [sameName, sameArity]
  obtain ⟨method, isLowered, isFound⟩ := find?_of_forall₂ pairs same found
  exact ⟨method, isFound, isLowered⟩

/-- The method is bound to the one of the interface, by the interface's canonical name. -/
def bindsTo (interface : TypeName) (name : String) (spec : MethodSpec) : Bool :=
  spec.implements.map (fun b => (⟨b.interface.canonical, b.method⟩ : MethodBinding)) ==
    some ⟨interface.canonical, name⟩

theorem findImplementation?_of_lowerType {t : SynthesizedType} {d : TypeDefinition}
    {spec : MethodSpec} {interface : TypeName} {name : String} (lowered : lowerType table t = .ok d)
    (found : t.methods.find? (bindsTo interface name) = some spec) :
    ∃ method, d.findImplementation? interface.canonical name = some method ∧
      lowerMethod table t spec = .ok method := by
  obtain ⟨methods, pairs, rfl⟩ := of_lowerType lowered
  have same (spec : MethodSpec) (method : Method)
      (isLowered : lowerMethod table t spec = .ok method) : bindsTo interface name spec =
        (method.binding == some ⟨interface.canonical, name⟩) := by
    obtain ⟨-, -, -, -, sameBinding, -⟩ := of_lowerMethod isLowered
    rw [sameBinding]
    rfl
  obtain ⟨method, isLowered, isFound⟩ := find?_of_forall₂ pairs same found
  exact ⟨method, isFound, isLowered⟩

/-! ### Flags -/

theorem flags_of_kind (spec : MethodSpec) :
    hasFlag (methodFlags spec) MethodFlag.isAbstract = (spec.kind == .abstractMethod) ∧
      hasFlag (methodFlags spec) MethodFlag.isStatic = (spec.kind == .staticMethod) ∧
      hasFlag (methodFlags spec) MethodFlag.isConstructor = (spec.kind == .constructor) := by
  unfold methodFlags kindFlags
  cases spec.kind <;> cases spec.specialName <;> cases spec.implements.isSome <;> decide

theorem not_isAbstract_of_class {t : SynthesizedType} (isClass : definitionKind t.kind = .classType) :
    hasFlag (typeFlags t) TypeFlag.isAbstract = false := by
  have notInterface : t.kind ≠ .interface := fun same => by
    rw [same] at isClass
    cases isClass
  unfold typeFlags
  rw [if_neg notInterface]
  cases t.isSealed <;> rfl

theorem isVoid_signature (type : TypeRef) : type.signature.isVoid = false := by
  cases type <;> rfl

theorem returnsValue_of_lowerMethod {t : SynthesizedType} {spec : MethodSpec} {method : Method}
    (lowered : lowerMethod table t spec = .ok method) :
    method.returnsValue = spec.returns.isSome := by
  obtain ⟨-, -, -, sameReturns, -⟩ := of_lowerMethod lowered
  unfold Method.returnsValue
  rw [sameReturns]
  cases spec.returns with
  | none => rfl
  | some type => exact congrArg (! ·) (isVoid_signature type)

/-! ### Whole artifacts -/

/-- The artifact of types with these definitions. -/
def assembled (runtime : RuntimeNames) (metadata : Metadata) (types : List SynthesizedType)
    (definitions : List TypeDefinition) : Artifact where
  flags := if isClosed runtime types then ArtifactFlag.standalone else ArtifactFlag.lenient
  memberRefs := referenceTable types
  types := definitions
  runtimeRefs := runtimeRefs runtime types
  metadata := metadata

theorem assemble_eq (runtime : RuntimeNames) (metadata : Metadata) (types : List SynthesizedType) :
    assemble runtime metadata types =
      (lowerTypes (referenceTable types) [] types).map (assembled runtime metadata types) := by
  show (lowerTypes (referenceTable types) [] types >>= fun definitions =>
    pure (assembled runtime metadata types definitions)) = _
  cases lowerTypes (referenceTable types) [] types <;> rfl

theorem of_lower (lowered : lower runtime metadata types = .ok artifact) :
    ∃ definitions, lowerTypes (referenceTable types) [] types = .ok definitions ∧
      artifact = assembled runtime metadata types definitions ∧ artifact.verify = .ok () := by
  unfold lower at lowered
  rw [assemble_eq] at lowered
  cases found : lowerTypes (referenceTable types) [] types with
  | error e =>
    rw [found] at lowered
    cases lowered
  | ok definitions =>
    rw [found] at lowered
    obtain ⟨artifact, isAssembled, lowered⟩ := Check.bind_eq_ok_iff.1 lowered
    cases isAssembled
    split at lowered
    case h_1 verified =>
      cases lowered
      exact ⟨definitions, rfl, rfl, verified⟩
    case h_2 => cases lowered

end FluentWrappers.Lowering
