import FluentWrappers.Proofs.Lowering.Decoding
import FluentWrappers.Proofs.Synthesis.Body

/-!
# Built bodies

The builder of a body and the check of a body keep the same account of the operand stack. So the code of
a body that the builder finished passes the check in a method that has the arguments it reads.
-/

namespace FluentWrappers

open Synthesis (Instruction Body BodyBuilder MethodSpec SynthesizedType)
open Lowering (bodyCode referenceOf? fieldReference methodReference)

/-! ### Single instructions -/

/-- The argument that the instruction reads, if it reads one, is among so many. -/
def Synthesis.Instruction.Fits (slots : Nat) : Instruction → Prop
  | loadThis => 0 < slots
  | loadArg index => index.toNat < slots
  | loadField _ | storeField _ | call _ | callVirt _ | newObj _ | ret => True

namespace CodeInstruction

variable {refs : List MemberReference} {ci : CodeInstruction} {i : Instruction} {slots : Nat}

theorem of_argument {index : Nat} (same : ci.operation? refs = some (.argument index)) :
    ci.opcode = .loadArg0 ∧ index = 0 ∨ ci.opcode = .loadArg1 ∧ index = 1 ∨
      ci.opcode = .loadArg ∧ index = ci.operand.toNat := by
  unfold operation? at same
  cases isOpcode : ci.opcode <;> rw [isOpcode] at same
  case loadArg0 | loadArg1 | loadArg =>
    cases same
    simp
  case ret => cases same
  case loadField | storeField | call | callVirt | newObj =>
    obtain ⟨_, -, impossible⟩ := Option.map_eq_some_iff.1 same
    cases impossible

theorem of_member {op : Opcode} {r : MemberReference}
    (same : ci.operation? refs = some (.member op r)) :
    ci.opcode = op ∧ refs[ci.operand.toNat]? = some r := by
  unfold operation? at same
  cases isOpcode : ci.opcode <;> rw [isOpcode] at same
  case loadArg0 | loadArg1 | loadArg | ret => cases same
  case loadField | storeField | call | callVirt | newObj =>
    obtain ⟨_, found, isMember⟩ := Option.map_eq_some_iff.1 same
    cases isMember
    exact ⟨rfl, found⟩

theorem opcode_of_ret (same : ci.operation? refs = some .ret) : ci.opcode = .ret := by
  unfold operation? at same
  cases isOpcode : ci.opcode <;> rw [isOpcode] at same
  case loadArg0 | loadArg1 | loadArg => cases same
  case loadField | storeField | call | callVirt | newObj =>
    obtain ⟨_, -, impossible⟩ := Option.map_eq_some_iff.1 same
    cases impossible

theorem opcode_ne_ret (same : ci.operation? refs = some i.operation) (plain : i ≠ .ret) :
    ci.opcode ≠ .ret := by
  intro isRet
  unfold operation? at same
  rw [isRet] at same
  cases i with
  | ret => exact plain rfl
  | _ => cases same

theorem memberOf_of_found {r : MemberReference} (found : refs[ci.operand.toNat]? = some r) :
    ci.memberOf refs r.kind = .ok r := by
  unfold memberOf
  rw [found]
  exact if_pos rfl

/-- The check takes for an instruction what the builder took for it. -/
theorem stackEffect_of_operation? (same : ci.operation? refs = some i.operation)
    (fits : i.Fits slots) : ci.stackEffect refs slots = .ok i.stackEffect := by
  have ofArgument {index : Nat} (same : ci.operation? refs = some (.argument index))
      (fits : index < slots) : ci.stackEffect refs slots = .ok (0, 1) := by
    unfold stackEffect
    rcases of_argument same with ⟨isOpcode, rfl⟩ | ⟨isOpcode, rfl⟩ | ⟨isOpcode, rfl⟩ <;>
      rw [isOpcode] <;> exact if_pos fits
  cases i with
  | loadThis => exact ofArgument same fits
  | loadArg index => exact ofArgument same fits
  | loadField f | storeField f =>
    obtain ⟨isOpcode, found⟩ := of_member same
    have member := memberOf_of_found found
    unfold stackEffect
    rw [isOpcode]
    exact congrArg (· >>= _) member
  | call m | callVirt m | newObj m =>
    obtain ⟨isOpcode, found⟩ := of_member same
    have member := memberOf_of_found found
    unfold stackEffect
    rw [isOpcode]
    exact congrArg (· >>= _) member
  | ret =>
    unfold stackEffect
    rw [opcode_of_ret same]
    rfl

end CodeInstruction

/-! ### The builder -/

namespace Synthesis.BodyBuilder

variable {b c : BodyBuilder} {i : Instruction} {instructions : List Instruction}

/-- Nothing is emitted after the return. -/
theorem of_emits_returned (emits : instructions.foldlM emit b = .ok c) (returned : b.returned = true) :
    instructions = [] := by
  cases instructions with
  | nil => rfl
  | cons i rest =>
    rw [List.foldlM_cons] at emits
    obtain ⟨next, emitted, -⟩ := Check.bind_eq_ok_iff.1 emits
    rw [(of_emit emitted).1] at returned
    cases returned

/-- Each instruction makes the stack deeper by one at most, and the deepest is kept. -/
theorem maxDepth_of_emits (emits : instructions.foldlM emit b = .ok c) : b.maxDepth ≤ c.maxDepth ∧
    c.maxDepth ≤ max b.maxDepth (b.depth + instructions.length) := by
  induction instructions generalizing b with
  | nil =>
    cases emits
    exact ⟨Nat.le_refl _, Nat.le_max_left _ _⟩
  | cons i rest ih =>
    rw [List.foldlM_cons] at emits
    obtain ⟨next, emitted, emits⟩ := Check.bind_eq_ok_iff.1 emits
    obtain ⟨-, -, isDepth, isMax, -⟩ := of_emit emitted
    obtain ⟨grows, bounded⟩ := ih emits
    have one := i.stackEffect_le_one
    rw [List.length_cons]
    omega

theorem of_build {returnsValue : Bool} {body : Body}
    (built : build instructions returnsValue = .ok body) : ∃ c, instructions.foldlM emit empty = .ok c ∧
      c.returned = true ∧ c.depth = (if returnsValue then 1 else 0) ∧
        body.maxStack = UInt16.ofNat c.maxDepth := by
  obtain ⟨c, emits, finished⟩ := Check.bind_eq_ok_iff.1 built
  obtain ⟨accurate, -⟩ := accurate_empty.emits emits
  obtain ⟨last, isDepth, rfl⟩ := (accurate.finish_eq_ok_iff _).1 finished
  exact ⟨c, emits, accurate.returned_of_last last, isDepth, rfl⟩

end Synthesis.BodyBuilder

/-! ### Whole bodies -/

namespace Method

variable {refs : List MemberReference} {m : Method} {b c : BodyBuilder}
  {instructions : List Instruction} {code : List CodeInstruction}

theorem endsWithOnlyReturn_of_cons {ci : CodeInstruction} (plain : ci.opcode ≠ .ret)
    (ends : endsWithOnlyReturn code = true) : endsWithOnlyReturn (ci :: code) = true := by
  have goesOn : ci.opcode.isTerminator = false := by
    cases isOpcode : ci.opcode with
    | ret => exact absurd isOpcode plain
    | _ => rfl
  unfold endsWithOnlyReturn at ends ⊢
  rw [beq_iff_eq] at ends ⊢
  rw [List.findIdx?_cons, goesOn, if_neg Bool.false_ne_true, ends]
  cases code with
  | nil => cases ends
  | cons next rest => rfl

theorem endsWithOnlyReturn_of_emits (emits : instructions.foldlM BodyBuilder.emit b = .ok c)
    (isOpen : b.returned = false) (returned : c.returned = true)
    (same : code.map (CodeInstruction.operation? refs) =
      instructions.map fun i => some i.operation) : endsWithOnlyReturn code = true := by
  induction instructions generalizing b code with
  | nil =>
    cases emits
    rw [isOpen] at returned
    cases returned
  | cons i rest ih =>
    cases code with
    | nil => cases same
    | cons ci code =>
      obtain ⟨sameFirst, sameRest⟩ := List.cons.inj same
      rw [List.foldlM_cons] at emits
      obtain ⟨next, emitted, others⟩ := Check.bind_eq_ok_iff.1 emits
      obtain ⟨-, -, -, -, nextReturned⟩ := BodyBuilder.of_emit emitted
      by_cases isRet : i = .ret
      · subst isRet
        obtain rfl := BodyBuilder.of_emits_returned others nextReturned
        obtain rfl := List.map_eq_nil_iff.1 sameRest
        unfold endsWithOnlyReturn
        rw [List.findIdx?_cons, CodeInstruction.opcode_of_ret sameFirst]
        rfl
      · have nextOpen : next.returned = false := nextReturned.trans (beq_false_of_ne isRet)
        exact endsWithOnlyReturn_of_cons (CodeInstruction.opcode_ne_ret sameFirst isRet)
          (ih others nextOpen sameRest)

/-- The walk over the code goes on from a depth as the builder went on from it. If the builder comes to
a depth for which there is no room, the walk stops at the first such one. -/
theorem checkStack_of_emits (emits : instructions.foldlM BodyBuilder.emit b = .ok c)
    (isOpen : b.returned = false) (returned : c.returned = true) (isDepth : c.depth = m.results)
    (low : b.depth ≤ m.maxStack.toNat) (lowest : b.maxDepth ≤ m.maxStack.toNat)
    (fits : ∀ i ∈ instructions, i.Fits m.argSlots)
    (same : code.map (CodeInstruction.operation? refs) =
      instructions.map fun i => some i.operation) :
    m.checkStack refs b.depth code = if c.maxDepth ≤ m.maxStack.toNat then .ok ()
      else .error (.stackOverflow (m.maxStack.toNat + 1) m.maxStack) := by
  -- the induction follows the instructions; the builder stands before each as the walk does
  induction instructions generalizing b code with
  | nil =>
    cases emits
    rw [isOpen] at returned
    cases returned
  | cons i rest ih =>
    cases code with
    | nil => cases same
    | cons ci code =>
      obtain ⟨sameFirst, sameRest⟩ := List.cons.inj same
      rw [List.foldlM_cons] at emits
      obtain ⟨next, emitted, others⟩ := Check.bind_eq_ok_iff.1 emits
      obtain ⟨-, enough, nextDepth, nextMax, nextReturned⟩ := BodyBuilder.of_emit emitted
      have nextLeast := (BodyBuilder.maxDepth_of_emits others).1
      unfold checkStack
      by_cases isRet : i = .ret
      · subst isRet
        obtain rfl := BodyBuilder.of_emits_returned others nextReturned
        cases others
        have depth : b.depth = m.results := nextDepth.symm.trans isDepth
        have room : c.maxDepth ≤ m.maxStack.toNat := by omega
        rw [if_pos (CodeInstruction.opcode_of_ret sameFirst), if_pos room]
        exact if_pos depth
      · have effect := CodeInstruction.stackEffect_of_operation? sameFirst (fits i List.mem_cons_self)
        have nextOpen : next.returned = false := nextReturned.trans (beq_false_of_ne isRet)
        have one := i.stackEffect_le_one
        rw [if_neg (CodeInstruction.opcode_ne_ret sameFirst isRet)]
        by_cases within : next.depth ≤ m.maxStack.toNat
        · have goesOn : ¬ m.maxStack.toNat < b.depth - i.stackEffect.1 + i.stackEffect.2 := by omega
          have depthAfter : m.depthAfter refs b.depth ci = .ok next.depth := by
            unfold depthAfter
            rw [effect]
            simp only [Check.ok_bind, if_neg (Nat.not_lt.2 enough), if_neg goesOn, nextDepth]
            rfl
          rw [depthAfter]
          exact ih others nextOpen within (by omega)
            (fun j isIn => fits j (List.mem_cons_of_mem i isIn)) sameRest
        · -- an instruction pushes one value at most, so the first depth too much is one too much
          have tooMuch : b.depth - i.stackEffect.1 + i.stackEffect.2 = m.maxStack.toNat + 1 := by omega
          have stops : m.depthAfter refs b.depth ci =
              .error (.stackOverflow (m.maxStack.toNat + 1) m.maxStack) := by
            unfold depthAfter
            rw [effect]
            simp only [Check.ok_bind, if_neg (Nat.not_lt.2 enough), tooMuch,
              if_pos (Nat.lt_succ_self _)]
            rfl
          have noRoom : ¬ c.maxDepth ≤ m.maxStack.toNat := by omega
          rw [stops, if_neg noRoom]
          rfl

/-- The check accepts the code of a body that the builder finished if it has room for the deepest stack,
and finds no other fault with it. -/
theorem checkBody_of_emits {body : Body} (emits : body.instructions.foldlM BodyBuilder.emit .empty = .ok c)
    (returned : c.returned = true) (isDepth : c.depth = m.results)
    (resolves : ∀ i ∈ body.instructions, i.ResolvesIn refs)
    (fits : ∀ i ∈ body.instructions, i.Fits m.argSlots) (concrete : m.isAbstract = false)
    (isCode : m.code = bodyCode refs body) :
    m.checkBody refs = if c.maxDepth ≤ m.maxStack.toNat then .ok ()
      else .error (.stackOverflow (m.maxStack.toNat + 1) m.maxStack) := by
  obtain ⟨code, parsed, same⟩ := CodeInstruction.parse_bodyCode resolves
  have ends := endsWithOnlyReturn_of_emits emits rfl returned same
  have walked := checkStack_of_emits emits rfl returned isDepth (Nat.zero_le _) (Nat.zero_le _) fits
    same
  have nonempty : m.code.isEmpty = false := by
    rw [isCode]
    cases isBytes : bodyCode refs body with
    | nil =>
      rw [isBytes] at parsed
      cases parsed
      cases ends
    | cons byte rest => rfl
  rw [← isCode] at parsed
  unfold checkBody
  rw [concrete, nonempty, parsed]
  simp only [ne_eq, not_true_eq_false, if_false, Bool.false_eq_true, Check.ok_bind, ends,
    Bool.not_true]
  exact walked

end Method

/-! ### Methods of synthesized types -/

namespace Synthesis.MethodSpec

/-- The number of arguments with the receiver, if there is one. -/
def slots (m : MethodSpec) : Nat := m.arity + if m.kind = .staticMethod then 0 else 1

/-- An abstract method has no body. The body of any other is what the builder makes of its instructions,
which read no arguments that the method does not have. -/
def IsBuilt (m : MethodSpec) : Prop :=
  match m.body with
  | none => m.kind = .abstractMethod
  | some body => m.kind ≠ .abstractMethod ∧ body.instructions.length < UInt16.size ∧
      BodyBuilder.build body.instructions m.returns.isSome = .ok body ∧
      ∀ i ∈ body.instructions, i.Fits m.slots

end Synthesis.MethodSpec

namespace Lowering

variable {table : List MemberReference} {t : SynthesizedType} {m : MethodSpec} {method : Method}

theorem bodyOf?_of_isBuilt (isBuilt : m.IsBuilt) : bodyOf? m = some m.body := by
  unfold Synthesis.MethodSpec.IsBuilt at isBuilt
  unfold bodyOf?
  cases isBody : m.body with
  | none =>
    rw [isBody] at isBuilt
    rw [isBuilt]
  | some body =>
    rw [isBody] at isBuilt
    cases isKind : m.kind with
    | abstractMethod => exact absurd isKind isBuilt.1
    | instanceMethod | constructor | staticMethod => rfl

theorem argSlots_of_lowerMethod (lowered : lowerMethod table t m = .ok method) :
    method.argSlots = m.slots := by
  obtain ⟨-, sameArity, sameFlags, -⟩ := of_lowerMethod lowered
  unfold Method.argSlots Synthesis.MethodSpec.slots Method.isStatic
  rw [sameFlags, (flags_of_kind m).2.1]
  refine congrArg₂ (· + ·) sameArity ?_
  simp

theorem isAbstract_of_lowerMethod (lowered : lowerMethod table t m = .ok method) :
    method.isAbstract = (m.kind == .abstractMethod) := by
  obtain ⟨-, -, sameFlags, -⟩ := of_lowerMethod lowered
  unfold Method.isAbstract
  rw [sameFlags, (flags_of_kind m).1]

theorem maxStack_of_lowerMethod {body : Body} (isBody : m.body = some body)
    (lowered : lowerMethod table t m = .ok method) : method.maxStack = body.maxStack := by
  rw [lowerMethod_eq] at lowered
  cases kept : bodyOf? m with
  | none =>
    rw [kept] at lowered
    cases lowered
  | some body? =>
    obtain rfl := (body_of_bodyOf? kept).symm
    rw [kept, isBody] at lowered
    cases lowered
    rfl

/-- The check of a lowered method accepts a body that the builder finished if the method has room for the
deepest stack, and finds no other fault with it. -/
theorem checkBody_of_lowerMethod {body : Body} {c : BodyBuilder} (isBody : m.body = some body)
    (isConcrete : m.kind ≠ .abstractMethod) (lowered : lowerMethod table t m = .ok method)
    (emits : body.instructions.foldlM BodyBuilder.emit .empty = .ok c) (returned : c.returned = true)
    (isDepth : c.depth = if m.returns.isSome then 1 else 0)
    (resolves : ∀ i ∈ body.instructions, i.ResolvesIn table)
    (fits : ∀ i ∈ body.instructions, i.Fits m.slots) :
    method.checkBody table = if c.maxDepth ≤ body.maxStack.toNat then .ok ()
      else .error (.stackOverflow (body.maxStack.toNat + 1) body.maxStack) := by
  obtain ⟨-, -, -, -, -, isCode⟩ := of_lowerMethod lowered
  rw [← returnsValue_of_lowerMethod lowered] at isDepth
  rw [← argSlots_of_lowerMethod lowered] at fits
  have concrete : method.isAbstract = false :=
    (isAbstract_of_lowerMethod lowered).trans (beq_false_of_ne isConcrete)
  rw [← maxStack_of_lowerMethod isBody lowered]
  exact Method.checkBody_of_emits emits returned isDepth resolves fits concrete (isCode body isBody)

/-- A method that was built passes the check of its body in every artifact whose table holds what the
body refers to. -/
theorem checkBody_of_isBuilt (isBuilt : m.IsBuilt) (indexable : table.length ≤ UInt32.size)
    (links : ∀ r ∈ referencesOfMethod m, r ∈ table) (lowered : lowerMethod table t m = .ok method) :
    method.checkBody table = .ok () := by
  have abstract := isAbstract_of_lowerMethod lowered
  unfold Synthesis.MethodSpec.IsBuilt at isBuilt
  cases isBody : m.body with
  | none =>
    rw [isBody] at isBuilt
    have noCode := (code_of_lowerMethod lowered).2
    rw [isBody] at noCode
    unfold Method.checkBody
    rw [abstract, isBuilt, noCode]
    rfl
  | some body =>
    rw [isBody] at isBuilt
    obtain ⟨isConcrete, short, built, fits⟩ := isBuilt
    obtain ⟨c, emits, returned, isDepth, isMax⟩ := BodyBuilder.of_build built
    have bounded : c.maxDepth ≤ body.instructions.length := by
      simpa [BodyBuilder.empty] using (BodyBuilder.maxDepth_of_emits emits).2
    have room : c.maxDepth ≤ body.maxStack.toNat := by
      rw [isMax, UInt16.toNat_ofNat_of_lt' (Nat.lt_of_le_of_lt bounded short)]
    have resolves (i : Instruction) (isIn : i ∈ body.instructions) : i.ResolvesIn table := by
      intro r isRef
      refine getElem?_indexIn indexable (links r ?_)
      unfold referencesOfMethod
      rw [isBody]
      exact List.mem_filterMap.2 ⟨i, isIn, isRef⟩
    rw [checkBody_of_lowerMethod isBody isConcrete lowered emits returned isDepth resolves fits,
      if_pos room]

end Lowering

end FluentWrappers
