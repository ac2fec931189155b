import FluentWrappers.Proofs.FirstOccurrence
import FluentWrappers.Proofs.Lowering.Definitions
import Mathlib.Data.List.Induction

/-!
# Lowering in a single pass

Code can be written while the table of references still grows: a reference gets its index where it is
first met, and the table is only extended. So an index that is written never changes its meaning, and
the single pass gives the same definitions and the same table as lowering with the whole table.
-/

namespace FluentWrappers.Lowering

open Binary
open Synthesis (Instruction Body MethodSpec SynthesizedType LoweringFault)

/-! ### The single pass -/

/-- A part of the pass, which extends the table that it finds. -/
abbrev Emission := StateT (List MemberReference) (Except LoweringFault)

def extend (table : List MemberReference) (r : MemberReference) : List MemberReference :=
  if r ∈ table then table else table ++ [r]

/-- The index of a reference; a new one is put at the end of the table. -/
def intern (r : MemberReference) : Emission UInt32 := do
  let table ← get
  if r ∈ table then return indexIn table r
  else
    set (table ++ [r])
    return UInt32.ofNat table.length

def emitInstruction : Instruction → Emission (List UInt8)
  | .loadThis => return Wire.loadArg 0
  | .loadArg index => return Wire.loadArg index
  | .loadField f => return Wire.onMember .loadField (← intern (fieldReference f))
  | .storeField f => return Wire.onMember .storeField (← intern (fieldReference f))
  | .call m => return Wire.onMember .call (← intern (methodReference m))
  | .callVirt m => return Wire.onMember .callVirt (← intern (methodReference m))
  | .newObj m => return Wire.onMember .newObj (← intern (methodReference m))
  | .ret => return Wire.opcode .ret

def emitCode : List Instruction → Emission (List UInt8)
  | [] => return []
  | i :: rest => do
    let first ← emitInstruction i
    let others ← emitCode rest
    return first ++ others

/-- The method of a specification with this code. -/
def methodWith (m : MethodSpec) (maxStack : UInt16) (code : List UInt8) : Method where
  name := m.name
  visibility := m.visibility
  flags := methodFlags m
  params := m.params.map fun p => ⟨p.name, p.type.signature⟩
  returns := (m.returns.map TypeRef.signature).getD .void
  binding := m.implements.map fun b => ⟨b.interface.canonical, b.method⟩
  maxStack := maxStack
  code := code

def emitMethod (owner : SynthesizedType) (m : MethodSpec) : Emission Method :=
  match bodyOf? m with
  | none => throw (.bodyMismatch owner.canonical m.name)
  | some none => return methodWith m 0 []
  | some (some body) => return methodWith m body.maxStack (← emitCode body.instructions)

def emitMethods (owner : SynthesizedType) : List MethodSpec → Emission (List Method)
  | [] => return []
  | m :: rest => do
    let first ← emitMethod owner m
    let others ← emitMethods owner rest
    return first :: others

def emitType (t : SynthesizedType) : Emission TypeDefinition := do
  let methods ← emitMethods t t.methods
  return definitionOf t methods

def emitTypes : List String → List SynthesizedType → Emission (List TypeDefinition)
  | _, [] => return []
  | seen, t :: rest =>
    if seen.contains t.canonical then throw (.emittedTwice t.canonical)
    else do
      let first ← emitType t
      let others ← emitTypes (t.canonical :: seen) rest
      return first :: others

/-! ### The growing table -/

theorem prefix_extend (table : List MemberReference) (r : MemberReference) :
    table <+: extend table r := by
  unfold extend
  split
  · exact List.prefix_rfl
  · exact List.prefix_append table [r]

theorem mem_extend (table : List MemberReference) (r : MemberReference) : r ∈ extend table r := by
  unfold extend
  split
  case isTrue isIn => exact isIn
  case isFalse => exact List.mem_append_right _ (List.mem_singleton_self r)

theorem prefix_foldl_extend (uses table : List MemberReference) :
    table <+: uses.foldl extend table := by
  induction uses generalizing table with
  | nil => exact List.prefix_rfl
  | cons r uses ih => exact (prefix_extend table r).trans (ih (extend table r))

/-- A table that has grown from nothing has what was used once each, in the order of first use. -/
theorem foldl_extend_nil (uses : List MemberReference) : uses.foldl extend [] = uses.eraseDups := by
  induction uses using List.reverseRecOn with
  | nil => rfl
  | append_singleton uses r ih =>
    rw [List.foldl_concat, ih, FirstOccurrence.eraseDups_concat]
    unfold extend
    simp only [List.mem_eraseDups]

theorem idxOf_of_prefix {table final : List MemberReference} {r : MemberReference}
    (extended : table <+: final) (isIn : r ∈ table) : final.idxOf r = table.idxOf r := by
  obtain ⟨later, rfl⟩ := extended
  rw [List.idxOf_append, if_pos isIn]

/-! ### What a part of the pass writes -/

/-- The part extends a table by what it uses, and it writes what is written with any later table. -/
def Emits {α : Type} (x : Emission α) (uses : List MemberReference)
    (written : List MemberReference → Except LoweringFault α) : Prop :=
  ∀ table final, uses.foldl extend table <+: final →
    x.run table = (written final).map fun a => (a, uses.foldl extend table)

section

variable {α β : Type} {x : Emission α} {f : α → Emission β} {uses others : List MemberReference}
  {written : List MemberReference → Except LoweringFault α}
  {next : α → List MemberReference → Except LoweringFault β}

theorem emits_pure (a : α) : Emits (pure a) [] fun _ => .ok a := fun _ _ _ => rfl

theorem emits_throw (fault : LoweringFault) (uses : List MemberReference) :
    Emits (throw fault : Emission α) uses fun _ => .error fault := fun _ _ _ => rfl

theorem Emits.bind (emits : Emits x uses written) (rest : ∀ a, Emits (f a) others (next a)) :
    Emits (x >>= f) (uses ++ others) fun table => written table >>= fun a => next a table := by
  intro table final extended
  rw [List.foldl_append] at extended ⊢
  have first := emits table final ((prefix_foldl_extend others _).trans extended)
  rw [StateT.run_bind, first]
  dsimp only
  cases written final with
  | error fault => rfl
  | ok a => exact rest a _ final extended

theorem Emits.map (emits : Emits x uses written) (g : α → β) :
    Emits (x >>= fun a => pure (g a)) uses fun table => written table >>= fun a => .ok (g a) := by
  have whole := emits.bind fun a => emits_pure (g a)
  rwa [List.append_nil] at whole

end

theorem emits_intern (r : MemberReference) :
    Emits (intern r) [r] fun table => .ok (indexIn table r) := by
  intro table final extended
  have sameIndex : final.idxOf r = (extend table r).idxOf r :=
    idxOf_of_prefix extended (mem_extend table r)
  show (intern r).run table = .ok (indexIn final r, extend table r)
  unfold indexIn
  rw [sameIndex]
  have opened : (intern r).run table = (if r ∈ table then pure (indexIn table r) else do
      set (table ++ [r])
      pure (UInt32.ofNat table.length) : Emission UInt32).run table := rfl
  rw [opened]
  unfold extend
  by_cases old : r ∈ table
  · rw [if_pos old, if_pos old]
    rfl
  · rw [if_neg old, if_neg old, List.idxOf_append, if_neg old, List.idxOf_cons_self, Nat.zero_add]
    rfl

theorem emits_onMember (op : Opcode) (r : MemberReference) :
    Emits (intern r >>= fun index => pure (Wire.onMember op index)) [r] fun table =>
      .ok (Wire.onMember op (indexIn table r)) :=
  (emits_intern r).map (Wire.onMember op)

theorem emits_instruction (i : Instruction) :
    Emits (emitInstruction i) (referenceOf? i).toList fun table => .ok (instructionCode table i) := by
  cases i with
  | loadThis | loadArg | ret => exact emits_pure _
  | loadField | storeField | call | callVirt | newObj => exact emits_onMember _ _

theorem emits_code (instructions : List Instruction) :
    Emits (emitCode instructions) (instructions.filterMap referenceOf?) fun table =>
      .ok (instructions.flatMap (instructionCode table)) := by
  induction instructions with
  | nil => exact emits_pure []
  | cons i rest ih =>
    have uses : (i :: rest).filterMap referenceOf? =
        (referenceOf? i).toList ++ rest.filterMap referenceOf? := by
      cases isRef : referenceOf? i with
      | none => exact List.filterMap_cons_none isRef
      | some r => exact List.filterMap_cons_some isRef
    rw [uses]
    exact (emits_instruction i).bind fun first => ih.map (first ++ ·)

theorem lowerMethod_eq (table : List MemberReference) (owner : SynthesizedType) (m : MethodSpec) :
    lowerMethod table owner m = match bodyOf? m with
      | none => .error (.bodyMismatch owner.canonical m.name)
      | some none => .ok (methodWith m 0 [])
      | some (some body) => .ok (methodWith m body.maxStack (bodyCode table body)) := by
  unfold lowerMethod
  rcases bodyOf? m with _ | _ | body <;> rfl

theorem body_of_bodyOf? {m : MethodSpec} {body : Option Body}
    (kept : bodyOf? m = some body) : m.body = body := by
  unfold bodyOf? at kept
  split at kept <;> cases kept <;> assumption

theorem emits_method (owner : SynthesizedType) (m : MethodSpec) :
    Emits (emitMethod owner m) (referencesOfMethod m) fun table => lowerMethod table owner m := by
  unfold emitMethod
  simp only [lowerMethod_eq]
  cases kept : bodyOf? m with
  | none => exact emits_throw _ _
  | some body? =>
    unfold referencesOfMethod
    rw [body_of_bodyOf? kept]
    cases body? with
    | none => exact emits_pure _
    | some body => exact (emits_code body.instructions).map (methodWith m body.maxStack)

theorem emits_methods (owner : SynthesizedType) (methods : List MethodSpec) :
    Emits (emitMethods owner methods) (methods.flatMap referencesOfMethod) fun table =>
      methods.mapM (lowerMethod table owner) := by
  induction methods with
  | nil => exact emits_pure []
  | cons m rest ih =>
    simp only [List.mapM_cons]
    exact (emits_method owner m).bind fun first => ih.map (first :: ·)

theorem emits_type (t : SynthesizedType) :
    Emits (emitType t) (t.methods.flatMap referencesOfMethod) fun table => lowerType table t :=
  (emits_methods t t.methods).map (definitionOf t)

theorem emits_types (seen : List String) (types : List SynthesizedType) :
    Emits (emitTypes seen types) (types.flatMap fun t => t.methods.flatMap referencesOfMethod)
      fun table => lowerTypes table seen types := by
  induction types generalizing seen with
  | nil => exact emits_pure []
  | cons t rest ih =>
    unfold emitTypes lowerTypes
    by_cases again : seen.contains t.canonical = true
    · simp only [if_pos again]
      exact emits_throw _ _
    · simp only [if_neg again]
      rw [List.flatMap_cons]
      exact (emits_type t).bind fun first => (ih (t.canonical :: seen)).map (first :: ·)

/-- A single pass over the types gives their definitions and the table of their references. -/
theorem emitTypes_eq (types : List SynthesizedType) : (emitTypes [] types).run [] =
    (lowerTypes (referenceTable types) [] types).map (·, referenceTable types) := by
  have whole := emits_types [] types [] (referenceTable types)
  rw [foldl_extend_nil] at whole
  exact whole List.prefix_rfl

end FluentWrappers.Lowering
