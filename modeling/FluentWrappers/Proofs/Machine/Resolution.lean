import FluentWrappers.Machine.Access
import FluentWrappers.Proofs.Machine.Instruction

/-!
# Finding types and methods

Whatever a run looks up is part of the artifact: types by name, methods along the bases of a type, and
the constructors of new objects. Looking up and making objects fails only for reasons that do not lie
in a body.
-/

namespace FluentWrappers.Machine

open Fallible Loaded

/-! ### Methods along the bases -/

namespace Loaded

variable {m : Loaded}

theorem artifact_of_load {artifact : Artifact} (loaded : load artifact = .ok m) :
    m.artifact = artifact := by
  unfold load at loaded
  split at loaded <;> cases loaded
  rfl

theorem lookup_of_mem {type : TypeDefinition} (known : type ∈ m.artifact.types) :
    m.lookup type.name = .ok type := by
  unfold lookup
  rw [Artifact.findType?_of_mem m.verified known]

theorem mem_of_baseOf? {type base : TypeDefinition} (found : m.baseOf? type = some base) :
    base ∈ m.artifact.types := by
  unfold baseOf? at found
  split at found
  · split at found
    · cases found
    · exact (Artifact.findType?_eq_some found).1
  · cases found

theorem hierarchyWithin_succ {fuel : Nat} {type base : TypeDefinition}
    (found : m.baseOf? type = some base) :
    m.hierarchyWithin (fuel + 1) type = type :: m.hierarchyWithin fuel base := by
  rw [hierarchyWithin, found]

theorem hierarchyWithin_baseless {fuel : Nat} {type : TypeDefinition}
    (baseless : m.baseOf? type = none) : m.hierarchyWithin fuel type = [type] := by
  cases fuel with
  | zero => rfl
  | succ fuel => rw [hierarchyWithin, baseless]

theorem hierarchyWithin_subset {fuel : Nat} {type t : TypeDefinition}
    (known : type ∈ m.artifact.types) (h : t ∈ m.hierarchyWithin fuel type) :
    t ∈ m.artifact.types := by
  induction fuel generalizing type with
  | zero =>
    rw [List.mem_singleton.1 h]
    exact known
  | succ fuel ih =>
    cases found : m.baseOf? type with
    | none =>
      rw [hierarchyWithin_baseless found] at h
      rw [List.mem_singleton.1 h]
      exact known
    | some base =>
      rw [hierarchyWithin_succ found] at h
      rcases List.mem_cons.1 h with here | above
      · rw [here]
        exact known
      · exact ih (mem_of_baseOf? found) above

/-- The method that a search along the bases finds is one of a type of the artifact. -/
theorem findSome?_hierarchy {α : Type} {find : TypeDefinition → Option α} {type : TypeDefinition}
    {found : α} (known : type ∈ m.artifact.types)
    (h : (m.hierarchy type).findSome? find = some found) :
    ∃ t ∈ m.artifact.types, find t = some found := by
  obtain ⟨t, ht, here⟩ := List.exists_of_findSome?_eq_some h
  exact ⟨t, hierarchyWithin_subset known ht, here⟩

/-- What a virtual call runs: a method bound to the referenced one, or one of its name and number of
parameters. -/
theorem ownTarget?_eq_some {member : MemberReference} {t owner : TypeDefinition} {target : Method}
    (h : ownTarget? member t = some (owner, target)) :
    owner = t ∧ target ∈ t.methods ∧ (target.binding = some ⟨member.owner, member.name⟩ ∨
      target.name = member.name ∧ target.arity = member.paramCount.toNat) := by
  unfold ownTarget? at h
  split at h
  case h_1 found bound =>
    cases h
    obtain ⟨mem, binding⟩ := TypeDefinition.findImplementation?_eq_some bound
    exact ⟨rfl, mem, Or.inl binding⟩
  case h_2 =>
    split at h
    case h_1 found named =>
      split at h
      · cases h
      · cases h
        obtain ⟨mem, same⟩ := TypeDefinition.findMethod?_eq_some named
        exact ⟨rfl, mem, Or.inr same⟩
    case h_2 => cases h

theorem resolveVirtual_eq_ok {type owner : TypeDefinition} {member : MemberReference}
    {target : Method} (known : type ∈ m.artifact.types)
    (h : m.resolveVirtual type member = .ok (owner, target)) :
    owner ∈ m.artifact.types ∧ target ∈ owner.methods ∧
      (target.binding = some ⟨member.owner, member.name⟩ ∨
        target.name = member.name ∧ target.arity = member.paramCount.toNat) := by
  unfold resolveVirtual at h
  split at h
  case h_1 found first =>
    cases h
    obtain ⟨t, ht, here⟩ := findSome?_hierarchy known first
    obtain ⟨rfl, rest⟩ := ownTarget?_eq_some here
    exact ⟨ht, rest⟩
  case h_2 => cases h

theorem hierarchy_of_rootObject {type : TypeDefinition} (base : type.base = some rootObject) :
    m.hierarchy type = [type] := by
  apply hierarchyWithin_baseless
  unfold baseOf?
  rw [base]
  exact if_pos rfl

theorem hierarchy_eq_cons (m : Loaded) (type : TypeDefinition) :
    ∃ bases, m.hierarchy type = type :: bases := by
  unfold hierarchy
  cases m.artifact.types.length with
  | zero => exact ⟨[], rfl⟩
  | succ fuel =>
    cases found : m.baseOf? type with
    | none => exact ⟨[], hierarchyWithin_baseless found⟩
    | some base => exact ⟨_, hierarchyWithin_succ found⟩

/-- A reference resolves to the first method of the type itself that is bound to it. -/
theorem resolveVirtual_of_bound {type : TypeDefinition} {r : MemberReference} {found : Method}
    (bound : type.findImplementation? r.owner r.name = some found) :
    m.resolveVirtual type r = .ok (type, found) := by
  obtain ⟨bases, hierarchy⟩ := hierarchy_eq_cons m type
  have own : ownTarget? r type = some (type, found) := by
    unfold ownTarget?
    rw [bound]
  unfold resolveVirtual
  rw [hierarchy, List.findSome?_cons, own]

theorem Targets.known {opcode : Opcode} {member : MemberReference} {owner : TypeDefinition}
    {target : Method} {args : List Value} (h : m.Targets opcode member owner target args) :
    owner ∈ m.artifact.types ∧ target ∈ owner.methods := by
  cases h with
  | direct _ _ found named _ =>
    exact ⟨lookup_mem found, (TypeDefinition.findMethod?_eq_some named).1⟩
  | virtual _ type known resolved _ =>
    obtain ⟨mem, method, _⟩ := resolveVirtual_eq_ok known resolved
    exact ⟨mem, method⟩

/-! ### Making objects -/

section
variable {allocate : TypeDefinition → Run Nat} {heap : Heap}

theorem defaultValue_meets
    (harmless : ∀ type heap, Meets (allocate type) heap (fun _ => True) RunError.Harmless)
    (s : Signature) :
    Meets (m.defaultValue allocate s) heap (fun _ => True) RunError.Harmless := by
  unfold defaultValue
  split
  · exact meets_pure trivial
  · exact meets_pure trivial
  · split
    · split
      · exact meets_pure trivial
      · exact (harmless _ _).bind fun ref t _ => meets_pure trivial
      · exact meets_pure trivial
    · exact meets_pure trivial
  · exact meets_pure trivial

theorem defaultFields_meets
    (harmless : ∀ type heap, Meets (allocate type) heap (fun _ => True) RunError.Harmless)
    (made : List (String × Value)) (fields : List Field) :
    Meets (m.defaultFields allocate made fields) heap (fun _ => True) RunError.Harmless := by
  induction fields generalizing made heap with
  | nil => exact meets_pure trivial
  | cons f rest ih =>
    unfold defaultFields
    split
    · exact ih made
    · refine (defaultValue_meets harmless f.type).bind fun value t _ => ?_
      exact ih _

theorem allocateWithin_meets (levels : Nat) (type : TypeDefinition) :
    Meets (m.allocateWithin levels type) heap (fun _ => True) RunError.Harmless := by
  induction levels generalizing type heap with
  | zero => exact meets_throw rfl
  | succ levels ih =>
    unfold allocateWithin
    refine (defaultFields_meets (fun type heap => ih type) [] _).bind fun fields t _ => ?_
    exact trivial

/-- A constructor that an object is made with is one of its type and has the given number of
parameters. -/
theorem prepare_meets {allocate : TypeDefinition → Run Nat} {type : TypeDefinition}
    {args : List Value} {heap : Heap}
    (harmless : Meets (allocate type) heap (fun _ => True) RunError.Harmless) :
    Meets (prepare allocate type args) heap (fun found => ∀ constructor ∈ found.2,
      constructor ∈ type.methods ∧ constructor.arity = args.length) RunError.Harmless := by
  unfold prepare
  dsimp only
  split
  · exact meets_throw rfl
  · refine harmless.bind fun ref t _ => ?_
    split
    case h_1 constructor named =>
      refine meets_pure fun found same => ?_
      cases same
      obtain ⟨named, _⟩ := Option.filter_eq_some_iff.1 named
      obtain ⟨mem, _, arity⟩ := TypeDefinition.findMethod?_eq_some named
      exact ⟨mem, arity⟩
    case h_2 =>
      split
      · exact meets_pure fun found same => nomatch same
      · exact meets_throw rfl

end

theorem constructWith_eq_error {execute : TypeDefinition → Method → List Value → Run Value}
    {allocate : TypeDefinition → Run Nat} {type : TypeDefinition} {args : List Value}
    {heap heap' : Heap} {e : RunError} :
    constructWith execute allocate type args heap = (.error e, heap') ↔
      prepare allocate type args heap = (.error e, heap') ∨
        ∃ made constructor between,
          prepare allocate type args heap = (.ok (made, some constructor), between) ∧
            execute type constructor (made :: args) between = (.error e, heap') := by
  unfold constructWith
  constructor
  · intro h
    obtain failed | ⟨⟨made, found⟩, between, prepared, h⟩ := bind_eq_error_iff.1 h
    · exact Or.inl failed
    · cases found with
      | none => cases h
      | some constructor =>
        obtain failed | ⟨_, _, _, h⟩ := bind_eq_error_iff.1 h
        · exact Or.inr ⟨made, constructor, between, prepared, failed⟩
        · cases h
  · rintro (failed | ⟨made, constructor, between, prepared, failed⟩)
    · exact bind_error failed
    · rw [bind_ok prepared]
      exact bind_error failed

/-! ### Methods to start with -/

theorem instanceMethod_meets (receiver : Value) (name : String) (arity : Nat) {heap : Heap} :
    Meets (m.instanceMethod receiver name arity) heap (fun found =>
      found.1 ∈ m.artifact.types ∧ found.2 ∈ found.1.methods ∧ found.2.arity = arity)
      RunError.Harmless := by
  unfold instanceMethod
  refine (instanceOf_meets receiver).bind fun inst t _ => ?_
  refine (lookup_meets m inst.2.typeName).bind fun type t found => ?_
  split
  case h_1 found first =>
    obtain ⟨t, ht, here⟩ := findSome?_hierarchy (lookup_mem ‹_›) first
    unfold ownInstanceMethod? at here
    split at here
    case h_1 target named =>
      split at here
      · cases here
      · cases here
        obtain ⟨mem, _, arity⟩ := TypeDefinition.findMethod?_eq_some named
        exact meets_pure ⟨ht, mem, arity⟩
    case h_2 => cases here
  case h_2 => exact meets_throw rfl

theorem staticMethod_eq_ok {typeName name : String} {arity : Nat} {type : TypeDefinition}
    {target : Method} (h : m.staticMethod typeName name arity = .ok (type, target)) :
    type ∈ m.artifact.types ∧ target ∈ type.methods ∧ target.arity = arity ∧
      target.isStatic = true := by
  unfold staticMethod at h
  obtain ⟨t, found, h⟩ := Check.bind_eq_ok_iff.1 h
  split at h
  case h_1 named =>
    cases h
    obtain ⟨named, static⟩ := Option.filter_eq_some_iff.1 named
    obtain ⟨mem, _, arity⟩ := TypeDefinition.findMethod?_eq_some named
    exact ⟨lookup_mem found, mem, arity, static⟩
  case h_2 => cases h

theorem staticMethod_meets (typeName name : String) (arity : Nat) {heap : Heap} :
    Meets (liftM (m.staticMethod typeName name arity) : Run (TypeDefinition × Method)) heap
      (fun found => m.staticMethod typeName name arity = .ok found) RunError.Harmless := by
  refine meets_lift (fun _ h => h) fun e h => ?_
  unfold staticMethod lookup at h
  split at h
  · rw [Check.ok_bind] at h
    split at h
    · cases h
    · cases h
      rfl
  · cases h
    rfl

end Loaded

end FluentWrappers.Machine
