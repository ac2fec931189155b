import FluentWrappers.Proofs.Machine.Heap
import FluentWrappers.Proofs.Machine.Nesting

/-!
# New instances and the structs in them

An allocation fails exactly if structs nest deeper than there are levels. Otherwise the new instances
form a tree: those for the fields of an instance come before it on the heap, each field's in a part of
its own. Paths through the fields therefore lead to different instances, none of which was there before.
-/

namespace FluentWrappers.Machine

open Fallible

/-! ### Paths on the heap -/

namespace Heap

variable {heap later : Heap} {ref inner : Nat} {inst : Instance} {name : String} {path : List String}

/-- From an instance, the fields of a path lead to the other. -/
inductive At (heap : Heap) : Nat → List String → Nat → Prop where
  | here {ref : Nat} : heap.At ref [] ref
  | field {ref inner last : Nat} {inst : Instance} {name : String} {path : List String}
      (alive : heap.get? ref = some inst) (holds : inst.get? name = some (.object inner))
      (rest : heap.At inner path last) : heap.At ref (name :: path) last

theorem at_cons_iff {last : Nat} (alive : heap.get? ref = some inst) :
    heap.At ref (name :: path) last ↔
      ∃ inner, inst.get? name = some (.object inner) ∧ heap.At inner path last := by
  constructor
  · intro steps
    cases steps with
    | field still holds rest =>
      cases alive.symm.trans still
      exact ⟨_, holds, rest⟩
  · rintro ⟨inner, holds, rest⟩
    exact .field alive holds rest

/-- Whatever a field refers to is on the heap. -/
def Closed (heap : Heap) : Prop :=
  ∀ ref inst name inner, heap.get? ref = some inst → inst.get? name = some (.object inner) →
    ∃ held, heap.get? inner = some held

/-- What is there does not refer to what comes later. -/
theorem At.alive_of_grows {old last : Nat} (path' : later.At old path last) (grows : heap.Grows later)
    (closed : heap.Closed) (alive : heap.get? old = some inst) :
    ∃ held, heap.get? last = some held := by
  induction path' generalizing inst with
  | here => exact ⟨inst, alive⟩
  | field still holds _ ih =>
    cases (grows _ _ alive).symm.trans still
    obtain ⟨held, isHeld⟩ := closed _ _ _ _ alive holds
    exact ih isHeld

end Heap

namespace Loaded

variable {m : Loaded} {heap later : Heap} {t s u : TypeDefinition} {f : Field} {lo hi ref : Nat}
  {all : List Field} {row : List (String × Value)} {name : String} {path : List String}

/-! ### Defaults -/

/-- What a field holds at first if its type is no struct. -/
def plainDefault (m : Loaded) : Signature → Value
  | .primitive .bool => .bool false
  | .primitive p => if p.isFloat then .float 0 else .int 0
  | .named name =>
    if (m.artifact.findType? name).any (·.kind == .enumeration) then .int 0 else .null
  | _ => .null

theorem plainDefault_ne_object (signature : Signature) :
    m.plainDefault signature ≠ .object ref := by
  unfold plainDefault
  split
  · exact nofun
  · split <;> exact nofun
  · split <;> exact nofun
  · exact nofun

section

variable {allocate : TypeDefinition → Run Nat} {signature : Signature}

theorem defaultValue_of_struct (isStruct : m.structOf? signature = some s) :
    m.defaultValue allocate signature = do return .object (← allocate s) := by
  unfold structOf? at isStruct
  split at isStruct
  case h_2 => cases isStruct
  case h_1 name =>
    obtain ⟨found, kind⟩ := Option.filter_eq_some_iff.1 isStruct
    have isStruct : s.kind = .struct := by simpa using kind
    simp only [defaultValue, found, isStruct]

theorem defaultValue_of_plain (isPlain : m.structOf? signature = none) :
    m.defaultValue allocate signature = pure (m.plainDefault signature) := by
  match signature with
  | .primitive p => cases p <;> rfl
  | .named name =>
    unfold structOf? at isPlain
    unfold defaultValue plainDefault
    dsimp only at isPlain ⊢
    cases found : m.artifact.findType? name with
    | none => rfl
    | some type =>
      rw [found] at isPlain
      cases kind : type.kind with
      | struct => simp [kind] at isPlain
      | classType => simp [kind]
      | enumeration => simp [kind]
      | interface => simp [kind]
  | .void | .string | .object | .array _ | .generic _ _ => rfl

end

/-! ### Trees of instances -/

/-- The fields of an instance and, below the bound, the instances for those of struct types: one after
the other, each behind the instances for its own fields. -/
inductive Row (m : Loaded) (heap : Heap) : Nat → List Field → List (String × Value) → Nat → Prop where
  | nil {lo : Nat} : m.Row heap lo [] [] lo
  | plain {lo hi : Nat} {f : Field} {all : List Field} {row : List (String × Value)}
      (isPlain : m.structOf? f.type = none) (rest : m.Row heap lo all row hi) :
      m.Row heap lo (f :: all) ((f.name, m.plainDefault f.type) :: row) hi
  | struct {lo ref hi : Nat} {f : Field} {s : TypeDefinition} {all : List Field}
      {inner row : List (String × Value)} (isStruct : m.structOf? f.type = some s)
      (nested : m.Row heap lo (m.fields s) inner ref)
      (alive : heap.get? ref = some ⟨s.name, inner⟩)
      (rest : m.Row heap (ref + 1) all row hi) :
      m.Row heap lo (f :: all) ((f.name, .object ref) :: row) hi

/-- An instance of the type with the instances for its fields, which are the last before it. -/
def Tree (m : Loaded) (heap : Heap) (t : TypeDefinition) (lo ref : Nat) : Prop :=
  ∃ row, heap.get? ref = some ⟨t.name, row⟩ ∧ m.Row heap lo (m.fields t) row ref

namespace Row

theorem le (h : m.Row heap lo all row hi) : lo ≤ hi := by
  induction h with
  | nil => exact Nat.le_refl _
  | plain _ _ ih => exact ih
  | struct _ _ _ _ inside after => exact inside.trans (Nat.le_of_succ_le after)

theorem mono (grows : heap.Grows later) (h : m.Row heap lo all row hi) :
    m.Row later lo all row hi := by
  induction h with
  | nil => exact .nil
  | plain isPlain _ ih => exact .plain isPlain ih
  | struct isStruct _ alive _ inside after =>
    exact .struct isStruct inside (grows _ _ alive) after

theorem names (h : m.Row heap lo all row hi) : row.map (·.1) = all.map (·.name) := by
  induction h with
  | nil => rfl
  | plain _ _ ih => rw [List.map_cons, List.map_cons, ih]
  | struct _ _ _ _ _ ih => rw [List.map_cons, List.map_cons, ih]

/-- An object in a field is the instance of a struct, and that with its fields is all there is in a part
of the heap. -/
theorem tree_of_object (h : m.Row heap lo all row hi) (holds : row.lookup name = some (.object ref)) :
    ∃ f ∈ all, f.name = name ∧ ∃ s, m.structOf? f.type = some s ∧
      ∃ lo', lo ≤ lo' ∧ ref < hi ∧ m.Tree heap s lo' ref := by
  induction h with
  | nil => cases holds
  | plain isPlain _ ih =>
    rw [Instance.lookup_cons] at holds
    split at holds
    · exact absurd (Option.some.inj holds) (plainDefault_ne_object _)
    · obtain ⟨f, isIn, found⟩ := ih holds
      exact ⟨f, List.mem_cons_of_mem _ isIn, found⟩
  | struct isStruct nested alive rest _ ih =>
    rw [Instance.lookup_cons] at holds
    split at holds
    case isTrue same =>
      cases holds
      exact ⟨_, List.mem_cons_self, same.symm, _, isStruct, _, Nat.le_refl _, rest.le, _, alive,
        nested⟩
    case isFalse =>
      obtain ⟨f, isIn, same, s, isStruct, lo', above, below, tree⟩ := ih holds
      have := nested.le
      exact ⟨f, List.mem_cons_of_mem _ isIn, same, s, isStruct, lo', by omega, below, tree⟩

/-- Each field holds the default of its type. -/
theorem value (h : m.Row heap lo all row hi) (distinct : (all.map (·.name)).Nodup) (isIn : f ∈ all) :
    (m.structOf? f.type = none → row.lookup f.name = some (m.plainDefault f.type)) ∧
      ∀ s, m.structOf? f.type = some s →
        ∃ lo' ref, row.lookup f.name = some (.object ref) ∧ m.Tree heap s lo' ref := by
  induction h with
  | nil => cases isIn
  | @plain _ _ g all _ isPlain _ ih =>
    obtain ⟨new, distinct⟩ := List.nodup_cons.1 distinct
    rw [Instance.lookup_cons]
    rcases List.mem_cons.1 isIn with rfl | later
    · rw [if_pos rfl]
      refine ⟨fun _ => rfl, fun s isStruct => ?_⟩
      cases isPlain.symm.trans isStruct
    · rw [if_neg fun same => new (List.mem_map.2 ⟨f, later, same⟩)]
      exact ih distinct later
  | @struct _ _ _ g s all _ _ isStruct nested alive _ _ ih =>
    obtain ⟨new, distinct⟩ := List.nodup_cons.1 distinct
    rw [Instance.lookup_cons]
    rcases List.mem_cons.1 isIn with rfl | later
    · rw [if_pos rfl]
      refine ⟨fun isPlain => ?_, fun other isOther => ?_⟩
      · cases isPlain.symm.trans isStruct
      · cases isStruct.symm.trans isOther
        exact ⟨_, _, rfl, _, alive, nested⟩
    · rw [if_neg fun same => new (List.mem_map.2 ⟨f, later, same⟩)]
      exact ih distinct later

/-- The objects in two fields lie in different parts of the heap. -/
theorem apart {other : String} {a b : Nat} (h : m.Row heap lo all row hi)
    (first : row.lookup name = some (.object a)) (second : row.lookup other = some (.object b))
    (differ : name ≠ other) :
    ∃ s u la lb, m.Tree heap s la a ∧ m.Tree heap u lb b ∧ (a < lb ∨ b < la) := by
  induction h with
  | nil => cases first
  | plain isPlain _ ih =>
    rw [Instance.lookup_cons] at first second
    split at first
    · exact absurd (Option.some.inj first) (plainDefault_ne_object _)
    · split at second
      · exact absurd (Option.some.inj second) (plainDefault_ne_object _)
      · exact ih first second
  | struct isStruct nested alive rest _ ih =>
    rw [Instance.lookup_cons] at first second
    split at first
    case isTrue isFirst =>
      cases first
      rw [if_neg (isFirst ▸ differ.symm)] at second
      obtain ⟨-, -, -, u, -, lb, above, -, tree⟩ := rest.tree_of_object second
      exact ⟨_, u, _, lb, ⟨_, alive, nested⟩, tree, .inl above⟩
    case isFalse =>
      split at second
      case isTrue =>
        cases second
        obtain ⟨-, -, -, s, -, la, above, -, tree⟩ := rest.tree_of_object first
        exact ⟨s, _, la, _, tree, ⟨_, alive, nested⟩, .inr above⟩
      case isFalse => exact ih first second

end Row

/-- What a field of the type holds at first. -/
def IsDefault (m : Loaded) (heap : Heap) (signature : Signature) (value : Value) : Prop :=
  match m.structOf? signature with
  | some s => ∃ ref inst, value = .object ref ∧ heap.get? ref = some inst ∧ inst.typeName = s.name
  | none => value = m.plainDefault signature

/-- An instance of the type with the fields of the type and its bases, each with its default. -/
def IsInitial (m : Loaded) (heap : Heap) (t : TypeDefinition) (ref : Nat) : Prop :=
  ∃ inst, heap.get? ref = some inst ∧ inst.typeName = t.name ∧
    (inst.fields.map (·.1)).Nodup ∧
    (∀ name, name ∈ inst.fields.map (·.1) ↔
      ∃ b, Relation.ReflTransGen m.Extends t b ∧ name ∈ b.fields.map (·.name)) ∧
    ∀ f, m.FirstDeclared t f → ∃ value, inst.get? f.name = some value ∧
      m.IsDefault heap f.type value

namespace Tree

theorem le (h : m.Tree heap t lo ref) : lo ≤ ref := h.elim fun _ found => found.2.le

/-- Whatever a path leads to lies in the part of the tree. -/
theorem within {last : Nat} (h : m.Tree heap t lo ref) (steps : heap.At ref path last) :
    lo ≤ last ∧ last ≤ ref := by
  induction steps generalizing t lo with
  | here => exact ⟨h.le, Nat.le_refl _⟩
  | field alive holds rest ih =>
    obtain ⟨row, still, fields⟩ := h
    cases alive.symm.trans still
    obtain ⟨-, -, -, s, -, lo', above, below, inner⟩ := fields.tree_of_object holds
    obtain ⟨least, most⟩ := ih inner
    exact ⟨by omega, by omega⟩

/-- Only the empty path leads back to the instance itself. -/
theorem path_eq_nil (h : m.Tree heap t lo ref) (steps : heap.At ref path ref) : path = [] := by
  cases path with
  | nil => rfl
  | cons name path =>
    obtain ⟨row, alive, fields⟩ := h
    obtain ⟨inner, holds, rest⟩ := (Heap.at_cons_iff alive).1 steps
    obtain ⟨-, -, -, s, -, lo', -, below, tree⟩ := fields.tree_of_object holds
    exact absurd (tree.within rest).2 (Nat.not_le_of_lt below)

/-- Different paths lead to different instances. -/
theorem path_unique {other : List String} {last : Nat} (h : m.Tree heap t lo ref)
    (first : heap.At ref path last) (second : heap.At ref other last) : path = other := by
  induction path generalizing t lo ref other with
  | nil =>
    cases first
    exact (h.path_eq_nil second).symm
  | cons a path ih =>
    cases other with
    | nil =>
      cases second
      exact h.path_eq_nil first
    | cons b other =>
      obtain ⟨row, alive, fields⟩ := h
      obtain ⟨inner, holds, rest⟩ := (Heap.at_cons_iff alive).1 first
      obtain ⟨inner', holds', rest'⟩ := (Heap.at_cons_iff alive).1 second
      by_cases same : a = b
      · subst same
        cases holds.symm.trans holds'
        obtain ⟨-, -, -, s, -, lo', -, -, tree⟩ := fields.tree_of_object holds
        rw [ih tree rest rest']
      · -- the parts of two fields have no instance in common
        obtain ⟨s, u, la, lb, left, right, disjoint⟩ := fields.apart holds holds' same
        have := left.within rest
        have := right.within rest'
        omega

section

variable (acyclic : m.AcyclicBases) (known : t ∈ m.artifact.types)
include acyclic known

/-- Whatever a path through struct fields leads to has its instance in the tree. -/
theorem leads (h : m.Tree heap t lo ref) (nested : m.Nested t path u) :
    u ∈ m.artifact.types ∧ ∃ last lo', heap.At ref path last ∧ m.Tree heap u lo' last := by
  induction nested generalizing lo ref with
  | here => exact ⟨known, ref, lo, .here, h⟩
  | field declared isStruct _ ih =>
    obtain ⟨row, alive, fields⟩ := h
    have isField := (mem_fields acyclic known).2 declared
    obtain ⟨lo', inner, holds, tree⟩ := (fields.value (nodup_fields m _) isField).2 _ isStruct
    obtain ⟨knownLast, last, lo', steps, found⟩ := ih (known_of_structOf? isStruct) tree
    exact ⟨knownLast, last, lo', .field alive holds steps, found⟩

/-- The tree has no paths but those through struct fields. -/
theorem nested_of_at {last : Nat} (h : m.Tree heap t lo ref) (steps : heap.At ref path last) :
    ∃ u, m.Nested t path u := by
  induction steps generalizing t lo with
  | here => exact ⟨t, .here⟩
  | field alive holds _ ih =>
    obtain ⟨row, still, fields⟩ := h
    cases alive.symm.trans still
    obtain ⟨f, isField, rfl, s, isStruct, lo', -, -, tree⟩ := fields.tree_of_object holds
    obtain ⟨u, nested⟩ := ih (known_of_structOf? isStruct) tree
    exact ⟨u, .field ((mem_fields acyclic known).1 isField) isStruct nested⟩

theorem isInitial (h : m.Tree heap t lo ref) : m.IsInitial heap t ref := by
  obtain ⟨row, alive, fields⟩ := h
  refine ⟨_, alive, rfl, ?_, fun name => ?_, fun f declared => ?_⟩
  · rw [fields.names]
    exact nodup_fields m t
  · rw [fields.names]
    exact name_mem_fields acyclic known
  · have isField := (mem_fields acyclic known).2 declared
    obtain ⟨plains, structs⟩ := fields.value (nodup_fields m t) isField
    unfold IsDefault
    cases isStruct : m.structOf? f.type with
    | none => exact ⟨_, plains isStruct, rfl⟩
    | some s =>
      obtain ⟨lo', inner, holds, row, held, -⟩ := structs s isStruct
      exact ⟨_, holds, inner, _, rfl, held, rfl⟩

end

end Tree

/-! ### Allocation -/

/-- The new instances are a tree behind all others, which are as they were. -/
structure Planted (m : Loaded) (heap later : Heap) (t : TypeDefinition) (ref : Nat) : Prop where
  grows : heap.Grows later
  last : later.cells.size = ref + 1
  tree : m.Tree later t heap.cells.size ref

/-- From some levels on, instances of a type come about exactly if structs do not nest deeper. -/
def Allocates (m : Loaded) (allocate : TypeDefinition → Run Nat) (levels : Nat) : Prop :=
  ∀ t ∈ m.artifact.types, ∀ heap, Ends (allocate t) heap
    (fun ref later => m.NestsWithin levels t ∧ m.Planted heap later t ref)
    (fun e _ => ¬ m.NestsWithin levels t ∧ e = .callDepthExceeded (maxCallDepth + 1))

/-- The struct of a field nests within the levels, if its type is one. -/
def FieldWithin (m : Loaded) (levels : Nat) (f : Field) : Prop :=
  ∀ s, m.structOf? f.type = some s → m.NestsWithin levels s

section

variable {allocate : TypeDefinition → Run Nat} {levels : Nat}

/-- A field's default is the plain one, or a tree for it is planted. Whatever fields come after, they make
a row with it. -/
theorem ends_defaultValue (allocates : m.Allocates allocate levels) (f : Field) (heap : Heap) :
    Ends (m.defaultValue allocate f.type) heap
      (fun value later => m.FieldWithin levels f ∧ heap.Grows later ∧
        ∀ last all row hi, later.Grows last → m.Row last later.cells.size all row hi →
          m.Row last heap.cells.size (f :: all) ((f.name, value) :: row) hi)
      (fun e _ => ¬ m.FieldWithin levels f ∧ e = .callDepthExceeded (maxCallDepth + 1)) := by
  cases isStruct : m.structOf? f.type with
  | none =>
    rw [defaultValue_of_plain isStruct]
    refine ends_pure ⟨fun s isOne => ?_, heap.grows_refl, fun _ _ _ _ _ => .plain isStruct⟩
    cases isStruct.symm.trans isOne
  | some s =>
    have within : m.FieldWithin levels f ↔ m.NestsWithin levels s := by
      unfold FieldWithin
      rw [isStruct]
      exact ⟨fun fits => fits s rfl, fun fits other same => Option.some.inj same ▸ fits⟩
    rw [defaultValue_of_struct isStruct, within]
    refine (allocates s (known_of_structOf? isStruct) heap).bind ?_ fun _ _ deep => deep
    rintro ref later ⟨fits, grown, last, row, alive, fields⟩
    refine ends_pure ⟨fits, grown, fun last' all rest hi grows after => ?_⟩
    rw [last] at after
    exact .struct isStruct (fields.mono grows) (grows _ _ alive) after

/-- The fields made so far stay, and those missing are added, the first of each name. -/
theorem ends_defaultFields (allocates : m.Allocates allocate levels)
    (made : List (String × Value)) (missing : List Field) (heap : Heap) :
    Ends (m.defaultFields allocate made missing) heap
      (fun whole later => (∀ f ∈ firsts (made.map (·.1)) missing, m.FieldWithin levels f) ∧
        heap.Grows later ∧ ∃ row, whole = made ++ row ∧
          m.Row later heap.cells.size (firsts (made.map (·.1)) missing) row later.cells.size)
      (fun e _ => (∃ f ∈ firsts (made.map (·.1)) missing, ¬ m.FieldWithin levels f) ∧
        e = .callDepthExceeded (maxCallDepth + 1)) := by
  induction missing generalizing made heap with
  | nil => exact ends_pure ⟨nofun, heap.grows_refl, [], (List.append_nil _).symm, .nil⟩
  | cons f missing ih =>
    have isMade : (made.lookup f.name).isSome = true ↔ f.name ∈ made.map (·.1) := by
      rw [List.lookup_isSome_iff, List.mem_map]
      exact exists_congr fun _ => and_congr_right fun _ => beq_iff_eq.trans eq_comm
    by_cases old : f.name ∈ made.map (·.1)
    · rw [defaultFields, firsts, if_pos old, if_pos (isMade.2 old)]
      exact ih made heap
    · rw [defaultFields, firsts, if_neg old, if_neg fun isOld => old (isMade.1 isOld)]
      refine (ends_defaultValue allocates f heap).bind ?_ ?_
      · rintro value between ⟨within, grown, extend⟩
        have names : (made ++ [(f.name, value)]).map (·.1) = made.map (·.1) ++ [f.name] := by simp
        have others := ih (made ++ [(f.name, value)]) between
        rw [names] at others
        refine others.mono ?_ ?_
        · rintro whole later ⟨all, grows, row, rfl, fields⟩
          exact ⟨List.forall_mem_cons.2 ⟨within, all⟩, grown.trans grows, (f.name, value) :: row,
            by simp, extend _ _ _ _ grows fields⟩
        · rintro e _ ⟨⟨g, isIn, deep⟩, isBound⟩
          exact ⟨⟨g, List.mem_cons_of_mem _ isIn, deep⟩, isBound⟩
      · rintro e _ ⟨deep, isBound⟩
        exact ⟨⟨f, List.mem_cons_self, deep⟩, isBound⟩

end

variable (acyclic : m.AcyclicBases)
include acyclic

/-- Each level takes one layer of structs, down to those that have no structs in them. -/
theorem allocates_allocateWithin (levels : Nat) :
    m.Allocates (m.allocateWithin levels) levels := by
  induction levels with
  | zero => exact fun t _ heap => ends_throw ⟨not_nestsWithin_zero, rfl⟩
  | succ levels ih =>
    intro t known heap
    have layer : m.NestsWithin (levels + 1) t ↔ ∀ f ∈ m.fields t, m.FieldWithin levels f := by
      rw [nestsWithin_succ_iff]
      exact forall_congr' fun f => imp_congr_left (mem_fields acyclic known).symm
    unfold allocateWithin
    refine (ends_defaultFields ih [] _ heap).bind ?_ ?_
    · rintro whole between ⟨all, grown, row, isRow, fields⟩
      rw [show whole = row from isRow]
      refine ends_of_ok rfl ⟨layer.2 all, grown.trans between.grows_allocate, ?_, row, ?_, ?_⟩
      · exact Array.size_push _
      · exact Heap.get?_allocate.trans (if_pos rfl)
      · exact fields.mono between.grows_allocate
    · rintro e _ ⟨⟨f, isIn, deep⟩, isBound⟩
      exact ⟨fun fits => deep (layer.1 fits f isIn), isBound⟩

variable (known : t ∈ m.artifact.types) (depth : Nat) (heap : Heap)
include known

/-- Depth and nesting stay in the bound for an allocation that succeeds and exceed it for one that
fails. -/
theorem ends_allocate : Ends (m.allocate t depth) heap
    (fun ref later => depth + m.nesting t ≤ maxCallDepth ∧ m.Planted heap later t ref)
    (fun e _ => maxCallDepth < depth + m.nesting t ∧
      e = .callDepthExceeded (max depth (maxCallDepth + 1))) := by
  unfold allocate
  split
  case isTrue deep =>
    refine ends_throw ⟨lt_of_lt_of_le (Nat.cast_lt.2 deep) le_self_add, ?_⟩
    rw [max_eq_left (Nat.succ_le_of_lt deep)]
  case isFalse shallow =>
    have shallow : depth ≤ maxCallDepth := Nat.le_of_not_lt shallow
    have fits := nestsWithin_iff_add_nesting_le (m := m) (t := t) shallow
    have levels := allocates_allocateWithin acyclic (maxCallDepth + 1 - depth) t known heap
    rw [fits] at levels
    refine levels.mono (fun _ _ => id) fun e _ failed => ⟨lt_of_not_ge failed.1, ?_⟩
    rw [failed.2, max_eq_right (Nat.le_succ_of_le shallow)]

omit acyclic known

/-- All instances of the structs that nest in an instance are new ones with their defaults, each reached
along one path only and from nothing that was there before. -/
structure Fresh (m : Loaded) (heap later : Heap) (t : TypeDefinition) (ref : Nat) : Prop where
  grows : heap.Grows later
  nested : ∀ path u, m.Nested t path u → ∃ last, later.At ref path last ∧ heap.get? last = none ∧
    m.IsInitial later u last
  paths : ∀ path last, later.At ref path last → ∃ u, m.Nested t path u
  apart : ∀ path other last, later.At ref path last → later.At ref other last → path = other
  unshared : heap.Closed → ∀ old inst path last, heap.get? old = some inst →
    later.At old path last → ∃ held, heap.get? last = some held

theorem Planted.fresh {later : Heap} {ref : Nat} (acyclic : m.AcyclicBases)
    (known : t ∈ m.artifact.types) (h : m.Planted heap later t ref) : m.Fresh heap later t ref where
  grows := h.grows
  nested path u nested := by
    obtain ⟨isType, last, lo, steps, tree⟩ := h.tree.leads acyclic known nested
    exact ⟨last, steps, Array.getElem?_eq_none (h.tree.within steps).1, tree.isInitial acyclic isType⟩
  paths _ _ := h.tree.nested_of_at acyclic known
  apart _ _ _ := h.tree.path_unique
  unshared closed _ _ _ _ alive steps := steps.alive_of_grows h.grows closed alive

/-- An allocation fails exactly if the structs in fields nest deeper than calls may, as those do that
contain themselves. Otherwise it gives a new instance with new ones in it. -/
theorem allocate_within_depth (m : Loaded) (acyclic : m.AcyclicBases) {t : TypeDefinition}
    (known : t ∈ m.artifact.types) (depth : Nat) (heap : Heap) :
    ((m.allocate t depth heap).1 = .error (.callDepthExceeded (max depth (maxCallDepth + 1))) ↔
        maxCallDepth < depth + m.nesting t) ∧
      (depth + m.nesting t ≤ maxCallDepth →
        ∃ ref later, m.allocate t depth heap = (.ok ref, later) ∧ m.Fresh heap later t ref) ∧
      ∀ path cycle s, m.Nested t path s → m.Nested s cycle s → cycle ≠ [] → m.nesting t = ⊤ := by
  have ends := ends_allocate acyclic known depth heap
  refine ⟨?_, fun shallow => ?_, fun _ _ _ => nesting_eq_top⟩
  · rcases run : m.allocate t depth heap with ⟨e | ref, later⟩
    · obtain ⟨deep, rfl⟩ := ends.fault run
      exact iff_of_true rfl deep
    · exact iff_of_false nofun (not_lt_of_ge (ends.result run).1)
  · rcases run : m.allocate t depth heap with ⟨e | ref, later⟩
    · exact absurd (ends.fault run).1 (not_lt_of_ge shallow)
    · exact ⟨ref, later, rfl, (ends.result run).2.fresh heap acyclic known⟩

end Loaded

def point : TypeDefinition where
  name := "Point"
  kind := .struct
  fields := [⟨"x", .primitive .f64, .publicAccess⟩, ⟨"y", .primitive .f64, .publicAccess⟩]

def segment : TypeDefinition where
  name := "Segment"
  kind := .struct
  fields := [⟨"first", .named "Point", .publicAccess⟩, ⟨"last", .named "Point", .publicAccess⟩]

def shape : TypeDefinition where
  name := "Shape"
  kind := .classType
  fields := [⟨"outline", .primitive .i32, .publicAccess⟩, ⟨"axis", .named "Segment", .publicAccess⟩]

/-- A shape whose outline is a segment, which hides the number that other shapes have for it. -/
def drawing : TypeDefinition where
  name := "Drawing"
  kind := .classType
  base := some "Shape"
  fields := [⟨"outline", .named "Segment", .publicAccess⟩]

def spiral : TypeDefinition where
  name := "Spiral"
  kind := .struct
  fields := [⟨"inside", .named "Spiral", .publicAccess⟩]

def drawings : Loaded :=
  ⟨{ types := [point, segment, shape, drawing, spiral], metadata := { name := "" } }, rfl⟩

theorem drawings_acyclic : drawings.AcyclicBases := by
  have short : ∀ t ∈ drawings.artifact.types, ∀ b, drawings.baseOf? t = some b →
      drawings.baseOf? b = none := by decide
  intro t known returns
  obtain ⟨b, base, path⟩ := Relation.TransGen.head'_iff.1 returns
  have baseless := short t known b base
  rcases Relation.ReflTransGen.cases_head path with rfl | ⟨c, above, -⟩
  · cases baseless.symm.trans base
  · cases baseless.symm.trans above

theorem allocate_drawing :
    (drawings.AcyclicBases ∧ drawing ∈ drawings.artifact.types ∧
        spiral ∈ drawings.artifact.types) ∧
      drawings.nesting drawing = 2 ∧
      (∃ ref later, drawings.allocate drawing 254 Heap.empty = (.ok ref, later) ∧
        drawings.Fresh Heap.empty later drawing ref) ∧
      drawings.nesting spiral = ⊤ ∧
      (drawings.allocate spiral 0 Heap.empty).1 = .error (.callDepthExceeded 257) := by
  have knownDrawing : drawing ∈ drawings.artifact.types := by decide
  have knownSpiral : spiral ∈ drawings.artifact.types := by decide
  obtain ⟨failsAt254, succeeds, -⟩ :=
    Loaded.allocate_within_depth drawings drawings_acyclic knownDrawing 254 Heap.empty
  obtain ⟨failsAt255, -, -⟩ :=
    Loaded.allocate_within_depth drawings drawings_acyclic knownDrawing 255 Heap.empty
  obtain ⟨fails, -, endless⟩ :=
    Loaded.allocate_within_depth drawings drawings_acyclic knownSpiral 0 Heap.empty
  have reaches : (254 : ℕ) + drawings.nesting drawing ≤ maxCallDepth := by
    refine le_of_not_gt fun exceeds => ?_
    cases failsAt254.2 exceeds
  have exceeds : maxCallDepth < (255 : ℕ) + drawings.nesting drawing := failsAt255.1 rfl
  have again : drawings.Nested spiral ["inside"] spiral :=
    .field (f := ⟨"inside", .named "Spiral", .publicAccess⟩) (.own rfl) rfl .here
  have nests : drawings.nesting spiral = ⊤ := endless [] ["inside"] spiral .here again nofun
  refine ⟨⟨drawings_acyclic, knownDrawing, knownSpiral⟩, ?_, succeeds reaches, nests, fails.2 ?_⟩
  · generalize drawings.nesting drawing = n at reaches exceeds ⊢
    cases n with
    | top => exact absurd reaches (by simp)
    | coe length =>
      rw [← Nat.cast_add, Nat.cast_le] at reaches
      rw [← Nat.cast_add, Nat.cast_lt] at exceeds
      unfold maxCallDepth at reaches exceeds
      have isTwo : length = 2 := by omega
      rw [isTwo]
      rfl
  · rw [nests, add_top]
    exact ENat.natCast_lt_top maxCallDepth

end FluentWrappers.Machine
