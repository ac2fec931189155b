import FluentWrappers.Proofs.Lowering.BuiltBodies

/-!
# Declared stacks

A finished body declares the depth of its deepest stack in sixteen bits. The check of its code agrees
with the builder at every instruction, so it accepts the code if the depth fits into the bits. A deeper
stack is declared too low, and the check stops where it first gets deeper than declared.
-/

namespace FluentWrappers.Synthesis.BodyBuilder

open Instruction

variable {b c : BodyBuilder} {body : Body} {m : MethodSpec} {table : List MemberReference}
  {owner : SynthesizedType}

theorem max?_eq_foldl {depths : List Nat} (nonempty : depths ≠ []) :
    depths.max? = some (depths.foldl max 0) := by
  cases depths with
  | nil => exact absurd rfl nonempty
  | cons depth rest => rw [List.max?_cons', List.foldl_cons, Nat.zero_max]

theorem Accurate.max?_depthsAfter (h : b.Accurate) (last : b.instructions.getLast? = some .ret) :
    (depthsAfter b.instructions).max? = some b.maxDepth := by
  rw [h.maxDepth]
  apply max?_eq_foldl
  rcases List.eq_nil_or_concat b.instructions with none | ⟨done, i, same⟩
  · rw [none] at last
    cases last
  · rw [same, List.concat_eq_append, depthsAfter_concat]
    exact List.append_ne_nil_of_right_ne_nil _ (List.cons_ne_nil _ _)

theorem exists_lowerMethod (isBody : m.body = some body) (isConcrete : m.kind ≠ .abstractMethod) :
    ∃ method, Lowering.lowerMethod table owner m = .ok method := by
  have kept : Lowering.bodyOf? m = some (some body) := by
    unfold Lowering.bodyOf?
    rw [isBody]
    cases isKind : m.kind with
    | abstractMethod => exact absurd isKind isConcrete
    | instanceMethod | constructor | staticMethod => rfl
  rw [Lowering.lowerMethod_eq, kept]
  exact ⟨_, rfl⟩

/-- A body that declares the depth of the deepest stack in sixteen bits is accepted exactly if it is not
deeper than they can tell. -/
theorem checkBody_of_declared (isBody : m.body = some body)
    (emits : body.instructions.foldlM emit empty = .ok c)
    (last : body.instructions.getLast? = some .ret)
    (isDepth : c.depth = if m.returns.isSome then 1 else 0)
    (declared : body.maxStack = UInt16.ofNat c.maxDepth)
    (isConcrete : m.kind ≠ .abstractMethod) (fits : ∀ i ∈ body.instructions, i.Fits m.slots)
    (resolves : ∀ i ∈ body.instructions, i.ResolvesIn table) :
    ∃ method, Lowering.lowerMethod table owner m = .ok method ∧ method.checkBody table =
      if c.maxDepth < 2 ^ 16 then .ok ()
      else .error (.stackOverflow (c.maxDepth % 2 ^ 16 + 1) body.maxStack) := by
  obtain ⟨accurate, same⟩ := accurate_empty.emits emits
  rw [instructions_empty, List.nil_append] at same
  have returned := accurate.returned_of_last (same ▸ last)
  obtain ⟨method, lowered⟩ : ∃ method, Lowering.lowerMethod table owner m = .ok method :=
    exists_lowerMethod isBody isConcrete
  have checked := Lowering.checkBody_of_lowerMethod isBody isConcrete lowered emits returned isDepth
    resolves fits
  have room : body.maxStack.toNat = c.maxDepth % 2 ^ 16 := by
    rw [declared]
    exact UInt16.toNat_ofNat'
  have fitsIn : c.maxDepth ≤ c.maxDepth % 2 ^ 16 ↔ c.maxDepth < 2 ^ 16 := by omega
  rw [room] at checked
  refine ⟨method, lowered, checked.trans ?_⟩
  simp only [fitsIn]

/-- A finished body declares the depth of its deepest stack in sixteen bits. The code of a method that
has the body, the arguments it reads and a table that resolves its references is accepted exactly if the
deepest stack is below two to the sixteenth; otherwise the check finds only that the stack gets deeper
than declared. -/
theorem finished_checkBody (tries : List Instruction) (returnsValue : Bool) (body : Body)
    (finished : (empty.attempts tries).2.finish returnsValue = .ok body) :
    ∃ deepest, (depthsAfter body.instructions).max? = some deepest ∧
      WellStacked body.instructions ∧ body.maxStack.toNat = deepest % 2 ^ 16 ∧
      ∀ (table : List MemberReference) (owner : SynthesizedType) (m : MethodSpec),
        m.body = some body → m.kind ≠ .abstractMethod → m.returns.isSome = returnsValue →
        (∀ i ∈ body.instructions, i.Fits m.slots) → (∀ i ∈ body.instructions, i.ResolvesIn table) →
        ∃ method, Lowering.lowerMethod table owner m = .ok method ∧ method.checkBody table =
          if deepest < 2 ^ 16 then .ok ()
          else .error (.stackOverflow (deepest % 2 ^ 16 + 1) body.maxStack) := by
  have emits := emits_accepted empty tries
  obtain ⟨accurate, same⟩ := accurate_empty.emits emits
  obtain ⟨last, isDepth, rfl⟩ := (accurate.finish_eq_ok_iff _).1 finished
  rw [instructions_empty, List.nil_append] at same
  rw [← same] at emits
  refine ⟨_, accurate.max?_depthsAfter last, accurate.stacked, UInt16.toNat_ofNat', ?_⟩
  rintro table owner m isBody isConcrete rfl fits resolves
  exact checkBody_of_declared isBody emits last isDepth rfl isConcrete fits resolves

/-- The method that sets a coordinate of a point. -/
def coordinateSetter : MethodSpec where
  name := "set_X"
  visibility := .publicAccess
  kind := .instanceMethod
  params := [⟨"value", .primitive .i32⟩]
  returns := none
  implements := none
  specialName := true
  body := some ⟨[.loadThis, .loadArg 1, .storeField ⟨⟨"Acme", "PointProxy"⟩, "_x"⟩, .ret], 2⟩

def coordinateOwner : SynthesizedType where
  name := ⟨"Acme", "PointProxy"⟩
  kind := .proxy
  source := ⟨"Acme", "Point"⟩

/-- The setter's body is finished though a store before its operands and a load after its return were
tried, and its code is accepted. -/
theorem finished_checkBody_setter :
    let field : FieldTarget := ⟨⟨"Acme", "PointProxy"⟩, "_x"⟩
    let tries : List Instruction :=
      [.storeField field, .loadThis, .loadArg 1, .storeField field, .ret, .loadThis]
    let body : Body := ⟨[.loadThis, .loadArg 1, .storeField field, .ret], 2⟩
    let table := [Lowering.fieldReference field]
    (empty.attempts tries).2.finish false = .ok body ∧ coordinateSetter.body = some body ∧
      coordinateSetter.kind ≠ .abstractMethod ∧ coordinateSetter.returns.isSome = false ∧
      (∀ i ∈ body.instructions, i.Fits coordinateSetter.slots) ∧
      (∀ i ∈ body.instructions, i.ResolvesIn table) ∧
      (depthsAfter body.instructions).max? = some 2 ∧
      ∃ method, Lowering.lowerMethod table coordinateOwner coordinateSetter = .ok method ∧
        method.checkBody table = .ok () := by
  intro field tries body table
  have finished : (empty.attempts tries).2.finish false = .ok body := rfl
  have fits : ∀ i ∈ body.instructions, i.Fits coordinateSetter.slots := by
    simp [body, Instruction.Fits, MethodSpec.slots, MethodSpec.arity, coordinateSetter]
  have resolves : ∀ i ∈ body.instructions, i.ResolvesIn table := by
    have known : table[(Lowering.indexIn table (Lowering.fieldReference field)).toNat]? =
        some (Lowering.fieldReference field) :=
      Lowering.getElem?_indexIn (by decide) List.mem_cons_self
    simp [body, Instruction.ResolvesIn, Lowering.referenceOf?, known]
  obtain ⟨deepest, isDeepest, -, -, checked⟩ := finished_checkBody tries false body finished
  obtain rfl : 2 = deepest := Option.some.inj isDeepest
  obtain ⟨method, lowered, accepted⟩ :=
    checked table coordinateOwner coordinateSetter rfl nofun rfl fits resolves
  exact ⟨finished, rfl, nofun, rfl, fits, resolves, isDeepest, method, lowered, accepted⟩

/-! ### A stack too deep to declare -/

theorem emits_loads (count : Nat) : (List.replicate count Instruction.loadThis).foldlM emit empty =
    .ok ⟨List.replicate count .loadThis, count, count, false⟩ := by
  induction count with
  | zero => rfl
  | succ count ih =>
    rw [List.replicate_succ', List.foldlM_append, ih, Check.ok_bind, List.foldlM_cons]
    simp only [List.foldlM_nil, bind_pure]
    rw [← List.replicate_succ', List.replicate_succ]
    simp [emit, stackEffect]

/-- A call that takes a receiver and as many arguments as sixteen bits can count. -/
def wideCall : MethodTarget := ⟨⟨"Acme", "Sink"⟩, "Take", 65535, false, false⟩

/-- Loads for a wide call, the call and the return. -/
def wideInstructions : List Instruction :=
  List.replicate 65536 .loadThis ++ [.call wideCall, .ret]

theorem of_mem_wideInstructions {i : Instruction} (isIn : i ∈ wideInstructions) :
    i = .loadThis ∨ i = .call wideCall ∨ i = .ret := by
  rcases List.mem_append.1 isIn with load | rest
  · exact Or.inl (List.eq_of_mem_replicate load)
  · exact Or.inr (by simpa using rest)

theorem emits_wideInstructions : wideInstructions.foldlM emit empty =
    .ok ⟨.ret :: .call wideCall :: List.replicate 65536 .loadThis, 0, 65536, true⟩ := by
  unfold wideInstructions
  rw [List.foldlM_append, emits_loads]
  rfl

/-- The method with the wide call, finished with a declared depth of zero. -/
def wideMethod : MethodSpec where
  name := "Feed"
  visibility := .publicAccess
  kind := .instanceMethod
  params := []
  returns := none
  implements := none
  specialName := false
  body := some ⟨wideInstructions, 0⟩

/-- The instructions of a wide call are finished with a declared depth of zero though 65536 values come
to lie on the stack, and the check refuses the code at the first of them. -/
theorem wideInstructions_declare_zero :
    build wideInstructions false = .ok ⟨wideInstructions, 0⟩ ∧
      (depthsAfter wideInstructions).max? = some 65536 ∧
      ∃ method, Lowering.lowerMethod [Lowering.methodReference wideCall] coordinateOwner wideMethod =
          .ok method ∧
        method.checkBody [Lowering.methodReference wideCall] = .error (.stackOverflow 1 0) := by
  obtain ⟨accurate, same⟩ := accurate_empty.emits emits_wideInstructions
  rw [instructions_empty, List.nil_append] at same
  have last : wideInstructions.getLast? = some .ret :=
    List.getLast?_append_of_ne_nil _ (List.cons_ne_nil _ _)
  have isBody : wideMethod.body = some ⟨wideInstructions, 0⟩ := rfl
  have finished := (accurate.finish_eq_ok_iff false).2 ⟨same ▸ last, rfl, rfl⟩
  have fits : ∀ i ∈ wideInstructions, i.Fits wideMethod.slots := by
    intro i isIn
    rcases of_mem_wideInstructions isIn with rfl | rfl | rfl
    · exact Nat.one_pos
    · trivial
    · trivial
  have resolves : ∀ i ∈ wideInstructions, i.ResolvesIn [Lowering.methodReference wideCall] := by
    intro i isIn r isRef
    rcases of_mem_wideInstructions isIn with rfl | rfl | rfl <;> cases isRef
    exact Lowering.getElem?_indexIn (by decide) List.mem_cons_self
  have deepest := accurate.max?_depthsAfter (same ▸ last)
  rw [same] at finished deepest
  refine ⟨?_, deepest, ?_⟩
  · unfold build
    rw [emits_wideInstructions]
    exact finished
  · exact checkBody_of_declared isBody emits_wideInstructions last rfl rfl nofun fits resolves

end FluentWrappers.Synthesis.BodyBuilder
