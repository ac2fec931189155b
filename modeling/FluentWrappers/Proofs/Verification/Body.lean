import FluentWrappers.Proofs.Binary.Reads
import FluentWrappers.Proofs.Verification.Acceptance

/-!
# Accepted bodies

A body is read instruction by instruction, and the walk over it gives the depth of the operand stack
before each of them. `WalkedTo` describes the walk in progress: what it has passed, what is left, and
where a reader of the same bytes stands. One step of the walk moves on by one instruction.
-/

namespace FluentWrappers

open Binary Fallible

/-! ### Instructions in front of a reader -/

namespace CodeInstruction

/-- The bytes from the reader on are read as these instructions. -/
def ParsesTo (r : Reader) (instructions : List CodeInstruction) : Prop :=
  ∃ fuel, r.remaining ≤ fuel ∧ parseFrom fuel r = .ok instructions

theorem parse_parsesTo {code : List UInt8} {instructions : List CodeInstruction}
    (h : parse code = .ok instructions) : ParsesTo (Reader.ofBytes code) instructions :=
  ⟨code.length, Nat.sub_le _ _, h⟩

/-- The reader stands in front of one instruction, which it reads as the machine does. -/
structure ReadsFrom (i : CodeInstruction) (r next : Reader) : Prop where
  offset : i.offset = r.position
  within : r.position < r.size
  byte : ∃ b, Read.u8 r = (.ok b, r.advance 1) ∧ Opcode.ofByte? b = some i.opcode
  operand : readOperand i.opcode.operandSize (r.advance 1) = (.ok i.operand, next)
  length : next = r.advance (1 + i.opcode.operandSize)
  bound : next.position ≤ next.size

theorem moves_readOperand (op : Opcode) : Moves (readOperand op.operandSize) op.operandSize := by
  have none : Moves (readOperand 0) 0 := by
    intro r r' value within h
    cases h
    exact ⟨within, (Reader.advance_zero r).symm⟩
  have short : Moves (readOperand 2) 2 := moves_u16.map _
  cases op <;> first | exact none | exact short | exact moves_u32

theorem parseFrom_succ {fuel : Nat} {r : Reader} {instructions : List CodeInstruction}
    (h : parseFrom (fuel + 1) r = .ok instructions) :
    (r.size ≤ r.position ∧ instructions = []) ∨
      ∃ i rest next, instructions = i :: rest ∧ i.ReadsFrom r next ∧
        parseFrom fuel next = .ok rest := by
  unfold parseFrom at h
  split at h
  case isFalse done =>
    cases h
    exact Or.inl ⟨Nat.not_lt.1 fun more => done (decide_eq_true more), rfl⟩
  case isTrue more =>
    have within : r.position < r.size := of_decide_eq_true more
    split at h
    · cases h
    rename_i byte afterCode code
    split at h
    · cases h
    rename_i op known
    split at h
    · cases h
    rename_i operand afterOperand read
    obtain ⟨rest, others, joined⟩ := Check.bind_eq_ok_iff.1 h
    cases joined
    obtain ⟨codeBound, rfl⟩ := moves_u8 r afterCode byte (Nat.le_of_lt within) code
    obtain ⟨operandBound, rfl⟩ := moves_readOperand op _ _ operand codeBound read
    rw [Reader.advance_advance] at read others
    have bound : r.position + (1 + op.operandSize) ≤ r.size := by
      rw [← Nat.add_assoc]
      exact operandBound
    exact Or.inr ⟨_, rest, _, rfl, ⟨rfl, within, ⟨byte, code, known⟩, read, rfl, bound⟩, others⟩

theorem ReadsFrom.parseFrom_eq {i : CodeInstruction} {r next : Reader} (reads : i.ReadsFrom r next)
    (fuel : Nat) :
    parseFrom (fuel + 1) r = (do let rest ← parseFrom fuel next; return i :: rest) := by
  obtain ⟨byte, code, known⟩ := reads.byte
  have more : r.hasMore = true := decide_eq_true reads.within
  rw [parseFrom, if_pos more, code]
  dsimp only
  rw [known]
  dsimp only
  rw [reads.operand, ← reads.offset]

theorem parseFrom_of_end {fuel : Nat} {r : Reader} (atEnd : r.size ≤ r.position) :
    parseFrom fuel r = .ok [] := by
  have none : ¬ r.hasMore = true := fun more => Nat.not_lt.2 atEnd (of_decide_eq_true more)
  cases fuel with
  | zero => rfl
  | succ fuel =>
    unfold parseFrom
    rw [if_neg none]

theorem ParsesTo.nil {r : Reader} (h : ParsesTo r []) : r.size ≤ r.position := by
  obtain ⟨fuel, enough, h⟩ := h
  unfold Reader.remaining at enough
  cases fuel with
  | zero => omega
  | succ fuel =>
    obtain ⟨done, _⟩ | ⟨i, rest, next, shape, _⟩ := parseFrom_succ h
    · exact done
    · cases shape

theorem ParsesTo.cons {r : Reader} {i : CodeInstruction} {rest : List CodeInstruction}
    (h : ParsesTo r (i :: rest)) : ∃ next, i.ReadsFrom r next ∧ ParsesTo next rest := by
  obtain ⟨fuel, enough, h⟩ := h
  unfold Reader.remaining at enough
  cases fuel with
  | zero => cases h
  | succ fuel =>
    obtain ⟨_, shape⟩ | ⟨j, others, next, shape, reads, parsed⟩ := parseFrom_succ h
    · cases shape
    · cases shape
      have within := reads.within
      have length := congrArg Reader.position reads.length
      have size := congrArg Reader.size reads.length
      simp only [Reader.advance] at length size
      refine ⟨next, reads, fuel, ?_, parsed⟩
      unfold Reader.remaining
      omega

end CodeInstruction

/-! ### The walk over a body -/

namespace Method

/-- The instructions of a body, none if it cannot be read. -/
def instructions (m : Method) : List CodeInstruction :=
  match CodeInstruction.parse m.code with
  | .ok instructions => instructions
  | .error _ => []

/-- The instructions of a body in front of an offset. -/
def before (m : Method) (offset : Nat) : List CodeInstruction :=
  m.instructions.takeWhile (·.offset < offset)

/-- The depth of the operand stack that the check of a body computes at an offset. -/
def depthAt (refs : List MemberReference) (m : Method) (offset : Nat) : Except BodyFault Nat :=
  (m.before offset).foldlM (m.depthAfter refs) 0

def results (m : Method) : Nat := if m.returnsValue then 1 else 0

/-- The walk over a body has passed some instructions and comes to the rest with a depth, and a
reader of the body stands in front of the rest. -/
structure WalkedTo (refs : List MemberReference) (m : Method) (r : Reader)
    (done rest : List CodeInstruction) (depth : Nat) : Prop where
  buffer : r.buffer = m.code
  split : m.instructions = done ++ rest
  passed : ∀ i ∈ done, i.offset < r.position
  parsed : CodeInstruction.ParsesTo r rest
  folded : done.foldlM (m.depthAfter refs) 0 = .ok depth
  walked : m.checkStack refs depth rest = .ok ()
  ends : endsWithOnlyReturn rest = true
  bounded : depth ≤ m.maxStack.toNat

variable {refs : List MemberReference} {m : Method}

theorem endsWithOnlyReturn_cons {i : CodeInstruction} {rest : List CodeInstruction}
    (h : endsWithOnlyReturn (i :: rest) = true) :
    (i.opcode = .ret ∧ rest = []) ∨ (i.opcode ≠ .ret ∧ endsWithOnlyReturn rest = true) := by
  unfold endsWithOnlyReturn at h ⊢
  rw [beq_iff_eq, List.findIdx?_cons, List.length_cons, Nat.add_sub_cancel] at h
  cases terminates : i.opcode.isTerminator with
  | true =>
    rw [terminates, if_pos rfl] at h
    have ret : i.opcode = .ret := by
      cases op : i.opcode with
      | ret => rfl
      | _ => rw [op] at terminates; cases terminates
    have none := Option.some.inj h
    exact Or.inl ⟨ret, List.eq_nil_of_length_eq_zero none.symm⟩
  | false =>
    rw [terminates, if_neg Bool.false_ne_true] at h
    obtain ⟨index, found, last⟩ := Option.map_eq_some_iff.1 h
    have ret : i.opcode ≠ .ret := by
      intro op
      rw [op] at terminates
      cases terminates
    refine Or.inr ⟨ret, ?_⟩
    rw [beq_iff_eq, found, ← last, Nat.add_sub_cancel]

theorem depthAfter_eq_ok {depth next : Nat} {i : CodeInstruction}
    (h : m.depthAfter refs depth i = .ok next) :
    ∃ pops pushes, i.stackEffect refs m.argSlots = .ok (pops, pushes) ∧ pops ≤ depth ∧
      next = depth - pops + pushes ∧ next ≤ m.maxStack.toNat := by
  obtain ⟨⟨pops, pushes⟩, effect, h⟩ := Check.bind_eq_ok_iff.1 h
  by_cases short : depth < pops
  · simp [short] at h
  by_cases high : m.maxStack.toNat < depth - pops + pushes
  · simp only [if_neg short, if_pos high] at h
    cases h
  · simp only [if_neg short, if_neg high] at h
    cases h
    exact ⟨pops, pushes, effect, Nat.not_lt.1 short, rfl, Nat.not_lt.1 high⟩

theorem walkedTo_start (h : m.checkBody refs = .ok ()) (concrete : m.isAbstract = false) :
    m.WalkedTo refs (Reader.ofBytes m.code) [] m.instructions 0 := by
  unfold checkBody at h
  rw [concrete] at h
  by_cases mismatch : false ≠ m.code.isEmpty
  · simp only [if_pos mismatch] at h
    cases h
  simp only [if_neg mismatch, Bool.false_eq_true, if_false] at h
  obtain ⟨parsed, parse, h⟩ := Check.bind_eq_ok_iff.1 h
  have same : m.instructions = parsed := by
    unfold instructions
    rw [parse]
  rw [← same] at parse h
  cases ends : endsWithOnlyReturn m.instructions with
  | false =>
    simp only [ends, Bool.not_false, if_true] at h
    cases h
  | true =>
    simp only [ends, Bool.not_true, Bool.false_eq_true, if_false] at h
    have passed : ∀ i ∈ ([] : List CodeInstruction), i.offset < 0 := by simp
    exact ⟨rfl, rfl, passed, CodeInstruction.parse_parsesTo parse, rfl, h, ends, Nat.zero_le _⟩

namespace WalkedTo

variable {r : Reader} {done rest : List CodeInstruction} {i : CodeInstruction} {depth : Nat}

theorem rest_ne_nil (h : m.WalkedTo refs r done rest depth) : rest ≠ [] := by
  intro none
  have ends := h.ends
  rw [none] at ends
  cases ends

/-- The last instruction is the return, which the walk finds with what the method returns. -/
theorem at_return (h : m.WalkedTo refs r done (i :: rest) depth) (ret : i.opcode = .ret) :
    rest = [] ∧ depth = m.results := by
  have walked := h.walked
  simp only [checkStack, if_pos ret] at walked
  have right : depth = m.results := by
    by_cases right : depth = m.results
    · exact right
    · unfold results at right
      rw [if_neg right] at walked
      cases walked
  obtain ⟨_, last⟩ | ⟨plain, _⟩ := endsWithOnlyReturn_cons h.ends
  · exact ⟨last, right⟩
  · exact absurd ret plain

/-- At the return nothing is left of the code but the return. -/
theorem code_at_return (h : m.WalkedTo refs r done (i :: rest) depth) (ret : i.opcode = .ret) :
    m.code.drop r.position = [Opcode.ret.byte] := by
  obtain ⟨next, reads, parsed⟩ := h.parsed.cons
  rw [(h.at_return ret).1] at parsed
  have ended := parsed.nil
  have length := r.length_rest
  have within := reads.within
  rw [reads.length, ret] at ended
  simp only [Reader.advance, Opcode.operandSize] at ended
  have one : r.rest.length = 1 := by omega
  obtain ⟨b, byte, known⟩ := reads.byte
  obtain ⟨b', only⟩ := List.length_eq_one_iff.1 one
  have same := u8_value byte
  rw [only, List.headD_cons] at same
  rw [← h.buffer, ← r.rest_eq, only, ← same, ← Opcode.byte_of_ofByte? known, ret]

theorem step (h : m.WalkedTo refs r done (i :: rest) depth) (plain : i.opcode ≠ .ret) {next : Reader}
    (reads : i.ReadsFrom r next) (parsed : CodeInstruction.ParsesTo next rest) :
    ∃ depth', m.depthAfter refs depth i = .ok depth' ∧
      m.WalkedTo refs next (done ++ [i]) rest depth' := by
  have walked := h.walked
  simp only [checkStack, if_neg plain] at walked
  obtain ⟨depth', after, walked⟩ := Check.bind_eq_ok_iff.1 walked
  obtain ⟨_, _, _, _, _, bounded⟩ := depthAfter_eq_ok after
  have forward : r.position < next.position := by
    rw [reads.length]
    exact Nat.lt_add_of_pos_right (Nat.add_pos_left Nat.one_pos _)
  have buffer : next.buffer = m.code := by
    rw [reads.length]
    exact h.buffer
  have split : m.instructions = (done ++ [i]) ++ rest := by
    rw [List.append_assoc]
    exact h.split
  have folded : (done ++ [i]).foldlM (m.depthAfter refs) 0 = .ok depth' := by
    rw [List.foldlM_append, h.folded]
    exact Check.bind_eq_ok_iff.2 ⟨depth, rfl, Check.bind_eq_ok_iff.2 ⟨depth', after, rfl⟩⟩
  have passed : ∀ j ∈ done ++ [i], j.offset < next.position := by
    intro j hj
    rcases List.mem_append.1 hj with old | new
    · exact Nat.lt_trans (h.passed j old) forward
    · rw [List.mem_singleton.1 new, reads.offset]
      exact forward
  obtain ⟨ret, _⟩ | ⟨_, ends⟩ := endsWithOnlyReturn_cons h.ends
  · exact absurd ret plain
  · exact ⟨depth', after, buffer, split, passed, parsed, folded, walked, ends, bounded⟩

theorem accepted (h : m.WalkedTo refs r done (i :: rest) depth) :
    ∃ effect, i.stackEffect refs m.argSlots = .ok effect := by
  by_cases ret : i.opcode = .ret
  · refine ⟨(0, 0), ?_⟩
    unfold CodeInstruction.stackEffect
    rw [ret]
  · obtain ⟨next, reads, parsed⟩ := h.parsed.cons
    obtain ⟨depth', after, _⟩ := h.step ret reads parsed
    obtain ⟨pops, pushes, effect, _⟩ := depthAfter_eq_ok after
    exact ⟨_, effect⟩

theorem before_eq (h : m.WalkedTo refs r done rest depth) : m.before r.position = done := by
  have ahead : rest.takeWhile (·.offset < r.position) = [] := by
    cases shape : rest with
    | nil => rfl
    | cons i others =>
      have parsed := h.parsed
      rw [shape] at parsed
      obtain ⟨next, reads, _⟩ := parsed.cons
      rw [List.takeWhile_cons_of_neg]
      simp [reads.offset]
  have passed : ∀ i ∈ done, decide (i.offset < r.position) = true := by
    intro i hi
    exact decide_eq_true (h.passed i hi)
  unfold before
  rw [h.split, List.takeWhile_append_of_pos passed, ahead, List.append_nil]

theorem depthAt_eq (h : m.WalkedTo refs r done rest depth) :
    m.depthAt refs r.position = .ok depth := by
  unfold depthAt
  rw [h.before_eq, h.folded]

/-- The walk comes to every instruction that is left. -/
theorem reaches {passing : List CodeInstruction} (h : m.WalkedTo refs r done (passing ++ i :: rest) depth) :
    ∃ r' depth', m.WalkedTo refs r' (done ++ passing) (i :: rest) depth' := by
  induction passing generalizing r done depth with
  | nil =>
    rw [List.append_nil]
    exact ⟨r, depth, h⟩
  | cons j passing ih =>
    obtain ⟨next, reads, parsed⟩ := h.parsed.cons
    have plain : j.opcode ≠ .ret := by
      intro ret
      have last := (h.at_return ret).1
      simp at last
    obtain ⟨depth', _, walked⟩ := h.step plain reads parsed
    obtain ⟨r', depth'', reached⟩ := ih walked
    rw [List.append_assoc, List.singleton_append] at reached
    exact ⟨r', depth'', reached⟩

theorem offset_eq (h : m.WalkedTo refs r done (i :: rest) depth) : i.offset = r.position := by
  obtain ⟨next, reads, _⟩ := h.parsed.cons
  exact reads.offset

end WalkedTo

theorem walkedTo_of_mem (h : m.checkBody refs = .ok ()) (concrete : m.isAbstract = false)
    {i : CodeInstruction} (hi : i ∈ m.instructions) :
    ∃ r done rest depth, m.WalkedTo refs r done (i :: rest) depth := by
  obtain ⟨done, rest, split⟩ := List.append_of_mem hi
  have start := walkedTo_start h concrete
  rw [split] at start
  obtain ⟨r, depth, walked⟩ := start.reaches
  exact ⟨r, _, rest, depth, walked⟩

theorem walkedTo_return (h : m.checkBody refs = .ok ()) (concrete : m.isAbstract = false) :
    ∃ r done i, m.WalkedTo refs r done [i] m.results ∧ i.opcode = .ret := by
  have start := walkedTo_start h concrete
  rw [← List.dropLast_concat_getLast start.rest_ne_nil] at start
  obtain ⟨r, depth, walked⟩ := start.reaches
  obtain ⟨ret, _⟩ | ⟨_, none⟩ := endsWithOnlyReturn_cons walked.ends
  · rw [(walked.at_return ret).2] at walked
    exact ⟨r, _, _, walked, ret⟩
  · cases none

theorem code_of_abstract (h : m.checkBody refs = .ok ()) (abstract : m.isAbstract = true) :
    m.code = [] := by
  cases code : m.code with
  | nil => rfl
  | cons b rest =>
    unfold checkBody at h
    rw [abstract, code] at h
    cases h

theorem instructions_of_abstract (h : m.checkBody refs = .ok ()) (abstract : m.isAbstract = true) :
    m.instructions = [] := by
  unfold instructions
  rw [code_of_abstract h abstract]
  rfl

/-- An accepted body can be read. -/
theorem parse_of_checkBody (h : m.checkBody refs = .ok ()) :
    CodeInstruction.parse m.code = .ok m.instructions := by
  cases abstract : m.isAbstract with
  | true =>
    rw [instructions_of_abstract h abstract, code_of_abstract h abstract]
    rfl
  | false =>
    have some := (walkedTo_start h abstract).rest_ne_nil
    unfold instructions at some ⊢
    cases parsed : CodeInstruction.parse m.code with
    | ok instructions => rfl
    | error fault =>
      rw [parsed] at some
      exact absurd rfl some

theorem WalkedTo.unique {r r' : Reader} {done done' rest rest' : List CodeInstruction}
    {i i' : CodeInstruction} {depth depth' : Nat} (h : m.WalkedTo refs r done (i :: rest) depth)
    (h' : m.WalkedTo refs r' done' (i' :: rest') depth') (same : r.position = r'.position) :
    i = i' ∧ done = done' ∧ depth = depth' := by
  have passed : done = done' := by rw [← h.before_eq, ← h'.before_eq, same]
  have split := h.split
  rw [h'.split, passed] at split
  have folded := h.folded
  rw [passed, h'.folded] at folded
  exact ⟨(List.cons.inj (List.append_cancel_left split)).1.symm, passed, (Except.ok.inj folded).symm⟩

end Method

end FluentWrappers
