import FluentWrappers.Proofs.Machine.Resolution

/-!
# Instances on the heap

A field that is set is the only one to change, in the only instance to change. A new instance has all
fields of its type and its bases, and what was on the heap before stays as it was.
-/

namespace FluentWrappers.Machine

open Fallible

/-! ### Fields -/

namespace Instance

variable {i : Instance} {name other : String} {value : Value}

theorem lookup_cons (key : String) (old : Value) (rest : List (String × Value)) :
    ((key, old) :: rest).lookup other = if other = key then some old else rest.lookup other := by
  rw [List.lookup_cons]
  by_cases same : other = key
  · rw [if_pos same, beq_iff_eq.2 same]
  · rw [if_neg same, beq_false_of_ne same]

theorem get?_set : (i.set name value).get? other =
    if other = name then (i.get? name).map fun _ => value else i.get? other := by
  obtain ⟨typeName, fields⟩ := i
  unfold set get?
  dsimp only
  induction fields with
  | nil => simp
  | cons field rest ih =>
    obtain ⟨key, old⟩ := field
    have first : (if key == name then (key, value) else (key, old)) =
        (key, if key = name then value else old) := by
      by_cases same : key = name <;> simp [same]
    rw [List.map_cons, first, lookup_cons, lookup_cons, lookup_cons, ih]
    by_cases isName : other = name
    · subst isName
      by_cases isKey : other = key <;> simp [isKey]
    · by_cases isKey : other = key
      · subst isKey
        simp [isName]
      · simp [isName, isKey]

end Instance

namespace Heap

variable {heap later last : Heap} {ref other : Nat} {inst : Instance} {name : String} {value : Value}

/-- The later heap differs in one field of one instance, which has the value. -/
structure Stored (heap later : Heap) (ref : Nat) (field : String) (value : Value) : Prop where
  others : ∀ other, other ≠ ref → later.get? other = heap.get? other
  cell : ∃ before after, heap.get? ref = some before ∧ later.get? ref = some after ∧
    after.typeName = before.typeName ∧ after.get? field = some value ∧
      ∀ name, name ≠ field → after.get? name = before.get? name

theorem stored_setField (stored : heap.setField? ref name value = some later) :
    Stored heap later ref name value := by
  unfold setField? at stored
  split at stored
  case h_1 => cases stored
  case h_2 before alive =>
    split at stored
    case isFalse => cases stored
    case isTrue has =>
      cases stored
      have within : ref < heap.cells.size := (Array.getElem?_eq_some_iff.1 alive).1
      constructor
      case others =>
        intro other differs
        exact Array.getElem?_setIfInBounds_ne differs.symm
      case cell =>
        refine ⟨before, before.set name value, alive, ?_, rfl, ?_, fun name' differs => ?_⟩
        · exact Array.getElem?_setIfInBounds_self_of_lt within
        · obtain ⟨old, isField⟩ := Option.isSome_iff_exists.1 has
          rw [Instance.get?_set, if_pos rfl, isField]
          rfl
        · rw [Instance.get?_set, if_neg differs]

theorem exists_setField (alive : heap.get? ref = some inst) (has : inst.has name = true)
    (value : Value) : ∃ later, heap.setField? ref name value = some later := by
  unfold setField?
  rw [alive]
  exact ⟨_, if_pos has⟩

/-- All instances of the heap are as they were on the later one. -/
def Grows (heap later : Heap) : Prop :=
  ∀ ref inst, heap.get? ref = some inst → later.get? ref = some inst

theorem grows_refl (heap : Heap) : heap.Grows heap := fun _ _ => id

theorem Grows.trans (first : heap.Grows later) (second : later.Grows last) : heap.Grows last :=
  fun ref inst alive => second ref inst (first ref inst alive)

theorem get?_allocate : (heap.allocate inst).1.get? other =
    if other = heap.cells.size then some inst else heap.get? other := by
  unfold allocate get?
  dsimp only
  rw [Array.getElem?_push]

theorem get?_size (heap : Heap) : heap.get? heap.cells.size = none :=
  Array.getElem?_eq_none (Nat.le_refl _)

theorem grows_allocate (heap : Heap) : heap.Grows (heap.allocate inst).1 := by
  intro ref inst alive
  rw [get?_allocate, if_neg]
  · exact alive
  · rintro rfl
    rw [get?_size] at alive
    cases alive

end Heap

/-! ### New instances -/

namespace Loaded

variable {m : Loaded} {allocate : TypeDefinition → Run Nat} {heap : Heap} {type : TypeDefinition}

/-- Whatever comes of it, a default value leaves the instances on the heap as they were. -/
theorem leads_defaultValue
    (grows : ∀ type heap, Leads (allocate type) heap (fun _ later => heap.Grows later) fun _ => True)
    (signature : Signature) : Leads (m.defaultValue allocate signature) heap
      (fun _ later => heap.Grows later) fun _ => True := by
  unfold defaultValue
  split
  · exact leads_pure heap.grows_refl
  · exact leads_pure heap.grows_refl
  · split
    · split
      · exact leads_pure heap.grows_refl
      · exact (grows _ _).bind fun ref later grown => leads_pure grown
      · exact leads_pure heap.grows_refl
    · exact leads_pure heap.grows_refl
  · exact leads_pure heap.grows_refl

/-- The fields of a new instance are those made already and one for each name that was missing. -/
theorem leads_defaultFields
    (grows : ∀ type heap, Leads (allocate type) heap (fun _ later => heap.Grows later) fun _ => True)
    (made : List (String × Value)) (missing : List Field) :
    Leads (m.defaultFields allocate made missing) heap (fun fields later => heap.Grows later ∧
      (∀ name, (made.lookup name).isSome = true → (fields.lookup name).isSome = true) ∧
        ∀ f ∈ missing, (fields.lookup f.name).isSome = true) fun _ => True := by
  induction missing generalizing made heap with
  | nil => exact leads_pure ⟨heap.grows_refl, fun _ => id, fun _ isIn => nomatch isIn⟩
  | cons f missing ih =>
    unfold defaultFields
    split
    case isTrue old =>
      refine (ih made).mono ?_ fun _ => id
      rintro fields later ⟨grown, kept, others⟩
      exact ⟨grown, kept, List.forall_mem_cons.2 ⟨kept f.name old, others⟩⟩
    case isFalse new =>
      refine (leads_defaultValue grows f.type).bind fun value between first => ?_
      refine (ih (made ++ [(f.name, value)])).mono ?_ fun _ => id
      rintro fields later ⟨grown, kept, others⟩
      have more (name : String) (isMade : (made.lookup name).isSome = true ∨ name = f.name) :
          (fields.lookup name).isSome = true := by
        apply kept
        rw [List.lookup_append, Option.isSome_or]
        rcases isMade with isMade | rfl
        · rw [isMade, Bool.true_or]
        · simp
      exact ⟨first.trans grown, fun name isMade => more name (Or.inl isMade),
        List.forall_mem_cons.2 ⟨more f.name (Or.inr rfl), others⟩⟩

/-- An instance of the type with all fields of the type and its bases. -/
def IsInstance (m : Loaded) (heap : Heap) (type : TypeDefinition) (ref : Nat) : Prop :=
  ∃ inst, heap.get? ref = some inst ∧ inst.typeName = type.name ∧
    ∀ f ∈ (m.hierarchy type).flatMap (·.fields), inst.has f.name = true

/-- An allocation puts an instance on the heap and leaves the others as they were. -/
theorem leads_allocateWithin (levels : Nat) (type : TypeDefinition) :
    Leads (m.allocateWithin levels type) heap (fun ref later => heap.Grows later ∧
      heap.get? ref = none ∧ m.IsInstance later type ref) fun _ => True := by
  induction levels generalizing type heap with
  | zero => exact leads_throw trivial
  | succ levels ih =>
    -- instances for the fields come first, from the level below, and none of them is changed later
    unfold allocateWithin
    refine (leads_defaultFields (fun type heap => (ih type).mono (fun _ _ h => h.1) fun _ => id)
      [] _).bind ?_
    rintro fields between ⟨grown, -, all⟩
    refine leads_of_ok rfl ⟨grown.trans between.grows_allocate, ?_, ⟨type.name, fields⟩, ?_, rfl,
      all⟩
    · refine Option.eq_none_iff_forall_ne_some.2 fun inst alive => ?_
      have still := grown _ inst alive
      cases between.get?_size.symm.trans still
    · exact Heap.get?_allocate.trans (if_pos rfl)

/-- A field of the type needs no instance to begin with. -/
def NeedsNone (m : Loaded) (signature : Signature) : Prop :=
  ∀ allocate heap, ∃ value, m.defaultValue allocate signature heap = (.ok value, heap)

theorem exists_defaultFields (made : List (String × Value)) {missing : List Field}
    (none : ∀ f ∈ missing, m.NeedsNone f.type) :
    ∃ fields, m.defaultFields allocate made missing heap = (.ok fields, heap) := by
  induction missing generalizing made with
  | nil => exact ⟨made, rfl⟩
  | cons f missing ih =>
    obtain ⟨first, others⟩ := List.forall_mem_cons.1 none
    unfold defaultFields
    split
    · exact ih made others
    · obtain ⟨value, isDefault⟩ := first allocate heap
      rw [bind_ok isDefault]
      exact ih _ others

/-- If no field of a type needs an instance, neither does an instance of the type. -/
theorem exists_allocateWithin (levels : Nat)
    (none : ∀ f ∈ (m.hierarchy type).flatMap (·.fields), m.NeedsNone f.type) :
    ∃ ref later, m.allocateWithin (levels + 1) type heap = (.ok ref, later) := by
  obtain ⟨fields, made⟩ : ∃ fields, m.defaultFields (m.allocateWithin levels) []
      ((m.hierarchy type).flatMap (·.fields)) heap = (.ok fields, heap) := exists_defaultFields [] none
  unfold allocateWithin
  rw [bind_ok made]
  exact ⟨_, _, rfl⟩

/-- A new object of a class is allocated, and then its constructor runs. -/
theorem constructWith_class {execute : TypeDefinition → Method → List Value → Run Value}
    {args : List Value} {constructor : Method} (isClass : type.kind = .classType)
    (concrete : hasFlag type.flags TypeFlag.isAbstract = false)
    (found : type.findMethod? constructorName args.length = some constructor)
    (isConstructor : constructor.isConstructor = true) :
    constructWith execute allocate type args heap = (do
      let ref ← allocate type
      let _ ← execute type constructor (.object ref :: args)
      return Value.object ref : Run Value) heap := by
  have filtered : (type.findMethod? constructorName args.length).filter (·.isConstructor) =
      some constructor := by
    rw [found]
    exact if_pos isConstructor
  have prepares {ref : Nat} {between : Heap} (allocated : allocate type heap = (.ok ref, between)) :
      prepare allocate type args heap = (.ok (.object ref, some constructor), between) := by
    unfold prepare
    rw [isClass, concrete, filtered]
    exact bind_ok allocated
  unfold constructWith
  rcases allocated : allocate type heap with ⟨e | ref, between⟩
  · have failed : prepare allocate type args heap = (.error e, between) := by
      unfold prepare
      rw [isClass, concrete]
      exact bind_error allocated
    rw [bind_error failed, bind_error allocated]
  · rw [bind_ok (prepares allocated), bind_ok allocated]

end Loaded

end FluentWrappers.Machine
