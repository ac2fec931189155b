import FluentWrappers.Artifact.Disassembly
import FluentWrappers.Proofs.Binary.Spans
import FluentWrappers.Proofs.Verification.Body

/-!
# The listing of a body and the check

The check reads a body instruction by instruction, and the listing has a line for each. Both go the same
way over the bytes: from an offset either both read the same instruction and go on behind it, or the
check fails there and the listing ends with the marker of this fault.
-/

namespace FluentWrappers

open Binary Fallible

/-! ### Lines -/

namespace CodeLine

def offset : CodeLine → Nat
  | plain offset _ | withOperand offset _ _ | invalid offset _ | truncated offset _ => offset

/-- A marker and a fault that say the same of a code of some size: at an offset stands a byte that is no
operation, or an operation whose operand is cut off. Sizes in memory are far below `2 ^ 63`. -/
inductive Tells (size : Nat) : CodeLine → BodyFault → Prop
  | invalid (offset : Nat) (byte : UInt8) :
    Tells size (.invalid offset byte) (.invalidOpcode byte offset)
  | truncated {offset : Nat} {op : Opcode} {cause : DecodeError}
    (operand : size < 2 ^ 63 → cause = .unexpectedEnd (offset + 1)) :
    Tells size (.truncated offset op) (.undecodable cause)

theorem Tells.isFault {size : Nat} {marker : CodeLine} {fault : BodyFault}
    (h : marker.Tells size fault) : marker.isFault = true := by
  cases h <;> rfl

end CodeLine

namespace CodeInstruction

/-- The line of an instruction. -/
def line (i : CodeInstruction) : CodeLine :=
  if i.opcode.operandSize = 0 then .plain i.offset i.opcode
  else .withOperand i.offset i.opcode i.operand

theorem isFault_line (i : CodeInstruction) : i.line.isFault = false := by
  unfold line
  split <;> rfl

/-! ### Operands -/

/-- The operand that some bytes hold. -/
def operandOf (bytes : List UInt8) : UInt32 := UInt32.ofNat (ofLittleEndian bytes)

theorem reads_operand (op : Opcode) {bytes : List UInt8} (length : bytes.length = op.operandSize) :
    Reads (readOperand op.operandSize) bytes (operandOf bytes) := by
  have none (empty : bytes.length = 0) : Reads (readOperand 0) bytes (operandOf bytes) := by
    rw [List.length_eq_zero_iff.1 empty]
    exact reads_pure 0
  have short (two : bytes.length = 2) : Reads (readOperand 2) bytes (operandOf bytes) := by
    have fits : ofLittleEndian bytes < UInt16.size := by
      have bound := ofLittleEndian_lt bytes
      rwa [two] at bound
    have read := ((reads_bytes two).map fun bs => UInt16.ofNat (ofLittleEndian bs)).map
      fun w => UInt32.ofNat w.toNat
    rwa [UInt16.toNat_ofNat_of_lt' fits] at read
  have long (four : bytes.length = 4) : Reads (readOperand 4) bytes (operandOf bytes) :=
    (reads_bytes four).map fun bs => UInt32.ofNat (ofLittleEndian bs)
  cases op with
  | loadArg0 | loadArg1 | ret => exact none length
  | loadArg => exact short length
  | call | callVirt | newObj | loadField | storeField => exact long length

theorem readOperand_short {op : Opcode} {r : Reader} (within : r.position ≤ r.size)
    (short : r.size < r.position + op.operandSize) :
    ∃ fault, readOperand op.operandSize r = (.error fault, r) ∧
      (r.Placed → fault = .refused (.unexpectedEnd r.position)) := by
  have failed (count : Nat) (small : count < UInt32.size) (beyond : r.size < r.position + count) :
      ∃ fault, Read.bytes count r = (.error fault, r) ∧
        (r.Placed → fault = .refused (.unexpectedEnd r.position)) := by
    obtain ⟨fault, run⟩ := bytes_short within (Nat.lt_trans small (by decide)) beyond
    refine ⟨fault, run, fun placed => ?_⟩
    rw [bytes_of_placed placed small, if_pos beyond] at run
    exact (Except.error.inj (congrArg Prod.fst run)).symm
  cases op with
  | loadArg0 | loadArg1 | ret => exact absurd short (Nat.not_lt.2 within)
  | loadArg =>
    obtain ⟨fault, run, exact⟩ := failed 2 (by decide) short
    exact ⟨fault, bind_error (bind_error run), exact⟩
  | call | callVirt | newObj | loadField | storeField =>
    obtain ⟨fault, run, exact⟩ := failed 4 (by decide) short
    exact ⟨fault, bind_error run, exact⟩

/-! ### One instruction -/

/-- The reader stands in front of a byte, and some bytes follow. -/
structure Fronts (r : Reader) (byte : UInt8) (tail : List UInt8) : Prop where
  more : r.position < r.size
  bytes : r.rest = byte :: tail

theorem exists_fronts {r : Reader} (more : r.position < r.size) :
    ∃ byte tail, Fronts r byte tail := by
  have length := r.length_rest
  obtain ⟨byte, tail, bytes⟩ := List.exists_cons_of_length_pos (l := r.rest) (by omega)
  exact ⟨byte, tail, more, bytes⟩

namespace Fronts

variable {r : Reader} {byte : UInt8} {tail : List UInt8} {op : Opcode}

theorem length (h : Fronts r byte tail) : r.position + 1 + tail.length = r.size := by
  have more := h.more
  have length := r.length_rest
  rw [h.bytes, List.length_cons] at length
  omega

theorem hasMore (h : Fronts r byte tail) : r.hasMore = true := decide_eq_true h.more

theorem code (h : Fronts r byte tail) : Read.u8 r = (.ok byte, r.advance 1) := by
  have first : [byte] <+: r.rest := h.bytes ▸ List.prefix_append [byte] tail
  exact reads_u8 byte r ⟨Nat.le_of_lt h.more, first⟩

theorem behind (h : Fronts r byte tail) : (r.advance 1).rest = tail := by
  show r.rest.drop 1 = tail
  rw [h.bytes]
  rfl

theorem invalid (h : Fronts r byte tail) (unknown : Opcode.ofByte? byte = none) :
    CodeLine.ofCodeAt r.position r.rest = [.invalid r.position byte] ∧
      ∀ fuel, parseFrom (fuel + 1) r = .error (.invalidOpcode byte r.position) := by
  constructor
  · rw [h.bytes, CodeLine.ofCodeAt, unknown]
  · intro fuel
    rw [parseFrom, if_pos h.hasMore, h.code]
    dsimp only
    rw [unknown]

theorem truncated (h : Fronts r byte tail) (known : Opcode.ofByte? byte = some op)
    (short : tail.length < op.operandSize) :
    CodeLine.ofCodeAt r.position r.rest = [.truncated r.position op] ∧
      ∃ cause, (r.size < 2 ^ 63 → cause = .unexpectedEnd (r.position + 1)) ∧
        ∀ fuel, parseFrom (fuel + 1) r = .error (.undecodable cause) := by
  constructor
  · have cut : (tail.take op.operandSize).length < op.operandSize := by
      rw [List.length_take]
      omega
    rw [h.bytes, CodeLine.ofCodeAt, known]
    dsimp only
    rw [if_pos cut]
  · have length := h.length
    have beyond : (r.advance 1).size < (r.advance 1).position + op.operandSize := by
      show r.size < r.position + 1 + op.operandSize
      omega
    obtain ⟨fault, run, atEnd⟩ := readOperand_short (r := r.advance 1) h.more beyond
    refine ⟨fault.cause, fun small => ?_, fun fuel => ?_⟩
    · rw [atEnd ⟨h.more, small⟩]
      rfl
    · rw [parseFrom, if_pos h.hasMore, h.code]
      dsimp only
      rw [known]
      dsimp only
      rw [run]

theorem whole (h : Fronts r byte tail) (known : Opcode.ofByte? byte = some op)
    (long : op.operandSize ≤ tail.length) :
    ∃ i next, ReadsFrom i r next ∧
      CodeLine.ofCodeAt r.position r.rest = i.line :: CodeLine.ofCodeAt next.position next.rest := by
  have whole : (tail.take op.operandSize).length = op.operandSize := List.length_take_of_le long
  have operands : (r.advance 1).Faces (tail.take op.operandSize) :=
    ⟨h.more, h.behind ▸ List.take_prefix _ _⟩
  have run := reads_operand op whole _ operands
  rw [whole, Reader.advance_advance] at run
  have length := h.length
  have bound : (r.advance (1 + op.operandSize)).position ≤ r.size := by
    show r.position + (1 + op.operandSize) ≤ r.size
    omega
  refine ⟨⟨r.position, op, operandOf (tail.take op.operandSize)⟩, _,
    ⟨rfl, h.more, ⟨byte, h.code, known⟩, run, rfl, bound⟩, ?_⟩
  show _ = _ :: CodeLine.ofCodeAt (r.position + (1 + op.operandSize))
    (r.rest.drop (1 + op.operandSize))
  rw [h.bytes, CodeLine.ofCodeAt, known]
  dsimp only
  rw [if_neg (Nat.not_lt.2 (Nat.le_of_eq whole.symm)), Nat.add_comm 1 op.operandSize,
    List.drop_succ_cons, ← Nat.add_assoc, Nat.add_right_comm]
  rfl

end Fronts

/-- In front of a byte either both read an instruction there or both find the same fault. -/
theorem step_cases {r : Reader} (more : r.position < r.size) :
    (∃ i next, ReadsFrom i r next ∧ CodeLine.ofCodeAt r.position r.rest =
      i.line :: CodeLine.ofCodeAt next.position next.rest) ∨
    ∃ marker fault, CodeLine.Tells r.size marker fault ∧ marker.offset = r.position ∧
      CodeLine.ofCodeAt r.position r.rest = [marker] ∧
      ∀ fuel, parseFrom (fuel + 1) r = .error fault := by
  obtain ⟨byte, tail, fronts⟩ := exists_fronts more
  cases known : Opcode.ofByte? byte with
  | none =>
    obtain ⟨listed, failed⟩ := fronts.invalid known
    exact Or.inr ⟨_, _, .invalid r.position byte, rfl, listed, failed⟩
  | some op =>
    rcases Nat.lt_or_ge tail.length op.operandSize with short | long
    · obtain ⟨listed, cause, exactly, failed⟩ := fronts.truncated known short
      exact Or.inr ⟨_, _, .truncated exactly, rfl, listed, failed⟩
    · exact Or.inl (fronts.whole known long)

/-! ### Whole bodies -/

/-- How the check reads what is left of a body, and what the listing makes of it: the same instructions,
and if the check fails after some of them a marker of the fault instead of all that would follow. -/
inductive Sweeps (fuel : Nat) (r : Reader) : Prop
  | whole (instructions : List CodeInstruction) : parseFrom fuel r = .ok instructions →
    CodeLine.ofCodeAt r.position r.rest = instructions.map line → Sweeps fuel r
  | cut (instructions : List CodeInstruction) (marker : CodeLine) (fault : BodyFault) :
    parseFrom fuel r = .error fault →
    parseFrom instructions.length r = .ok instructions →
    parseFrom (instructions.length + 1) r = .error fault →
    CodeLine.ofCodeAt r.position r.rest = instructions.map line ++ [marker] →
    marker.Tells r.size fault → (∀ i ∈ instructions, i.offset < marker.offset) →
    r.position ≤ marker.offset → marker.offset < r.size → Sweeps fuel r

theorem ReadsFrom.advances {i : CodeInstruction} {r next : Reader} (reads : i.ReadsFrom r next) :
    next.size = r.size ∧ r.position < next.position ∧ next.remaining < r.remaining := by
  have within := reads.within
  rw [reads.length]
  refine ⟨rfl, ?_, ?_⟩
  · show r.position < r.position + (1 + i.opcode.operandSize)
    omega
  · show r.size - (r.position + (1 + i.opcode.operandSize)) < r.size - r.position
    omega

theorem ReadsFrom.sweeps {i : CodeInstruction} {r next : Reader} {fuel : Nat}
    (reads : i.ReadsFrom r next) (listed : CodeLine.ofCodeAt r.position r.rest =
      i.line :: CodeLine.ofCodeAt next.position next.rest)
    (rest : Sweeps fuel next) : Sweeps (fuel + 1) r := by
  obtain ⟨size, forward, _⟩ := reads.advances
  cases rest with
  | whole instructions parsed same =>
    refine .whole (i :: instructions) ?_ (by rw [listed, same, List.map_cons])
    rw [reads.parseFrom_eq, parsed]
    rfl
  | cut instructions marker fault failed before after same tells earlier behind within =>
    refine .cut (i :: instructions) marker fault ?_ ?_ ?_ ?_ (size ▸ tells)
      (List.forall_mem_cons.2 ⟨?_, earlier⟩) (by omega) (by omega)
    · rw [reads.parseFrom_eq, failed]
      rfl
    · rw [List.length_cons, reads.parseFrom_eq, before]
      rfl
    · rw [List.length_cons, reads.parseFrom_eq, after]
      rfl
    · rw [listed, same, List.map_cons, List.cons_append]
    · rw [reads.offset]
      omega

theorem sweeps_end {fuel : Nat} {r : Reader} (atEnd : r.size ≤ r.position) : Sweeps fuel r := by
  refine .whole [] (parseFrom_of_end atEnd) ?_
  have none : r.rest = [] := List.eq_nil_of_length_eq_zero (by rw [r.length_rest]; omega)
  rw [none, CodeLine.ofCodeAt]
  rfl

/-- Fuel for each byte that is left is enough. -/
theorem sweeps {fuel : Nat} {r : Reader} (enough : r.remaining ≤ fuel) : Sweeps fuel r := by
  induction fuel generalizing r with
  | zero =>
    have atEnd : r.size ≤ r.position := Nat.le_of_sub_eq_zero (Nat.le_zero.1 enough)
    exact sweeps_end atEnd
  | succ fuel ih =>
    by_cases more : r.position < r.size
    · rcases step_cases more with ⟨i, next, reads, listed⟩ | ⟨marker, fault, tells, here, listed, failed⟩
      · have left : next.remaining ≤ fuel := by
          have shorter := reads.advances.2.2
          omega
        exact reads.sweeps listed (ih left)
      · refine .cut [] marker fault (failed fuel) rfl (failed 0) listed tells (fun _ => nofun) ?_ ?_
        · exact Nat.le_of_eq here.symm
        · rw [here]
          exact more
    · exact sweeps_end (Nat.le_of_not_lt more)

end CodeInstruction

/-- The check and the listing read a code alike. -/
structure ListedAsRead (code : List UInt8) : Prop where
  /-- The check reads the code exactly if no line of the listing is a marker. -/
  succeeds : (∃ instructions, CodeInstruction.parse code = .ok instructions) ↔
    ∀ line ∈ CodeLine.ofCode code, line.isFault = false
  /-- Then the lines are those of the instructions that the check reads. -/
  same : ∀ instructions, CodeInstruction.parse code = .ok instructions →
    CodeLine.ofCode code = instructions.map CodeInstruction.line
  /-- If the check fails, the listing has the instructions that the check has read before and ends with
  one marker, of the same fault at the same offset. -/
  stops : ∀ fault, CodeInstruction.parse code = .error fault → ∃ instructions marker,
    CodeInstruction.parseFrom instructions.length (Reader.ofBytes code) = .ok instructions ∧
      CodeInstruction.parseFrom (instructions.length + 1) (Reader.ofBytes code) = .error fault ∧
      CodeLine.ofCode code = instructions.map CodeInstruction.line ++ [marker] ∧
      marker.isFault = true ∧ marker.Tells code.length fault ∧
      (∀ i ∈ instructions, i.offset < marker.offset) ∧ marker.offset < code.length

theorem listedAsRead (code : List UInt8) : ListedAsRead code := by
  have sweeps : CodeInstruction.Sweeps code.length (Reader.ofBytes code) :=
    CodeInstruction.sweeps (Nat.sub_le _ _)
  cases sweeps with
  | whole instructions parsed listed =>
    have plain : ∀ line ∈ CodeLine.ofCode code, line.isFault = false := by
      intro line isLine
      change CodeLine.ofCode code = _ at listed
      rw [listed] at isLine
      obtain ⟨i, -, rfl⟩ := List.mem_map.1 isLine
      exact i.isFault_line
    refine ⟨⟨fun _ => plain, fun _ => ⟨instructions, parsed⟩⟩, fun others parsed' => ?_,
      fun fault failed => ?_⟩
    · rw [CodeInstruction.parse, parsed] at parsed'
      cases parsed'
      exact listed
    · rw [CodeInstruction.parse, parsed] at failed
      cases failed
  | cut instructions marker fault failed before after listed tells earlier _ within =>
    refine ⟨⟨fun ⟨others, parsed⟩ => ?_, fun plain => ?_⟩, fun others parsed => ?_,
      fun fault' failed' => ?_⟩
    · rw [CodeInstruction.parse, failed] at parsed
      cases parsed
    · have isLine : marker ∈ CodeLine.ofCode code := by
        change CodeLine.ofCode code = _ at listed
        rw [listed]
        exact List.mem_append_right _ (List.mem_singleton_self _)
      have notFault := plain marker isLine
      rw [tells.isFault] at notFault
      cases notFault
    · rw [CodeInstruction.parse, failed] at parsed
      cases parsed
    · rw [CodeInstruction.parse, failed] at failed'
      cases failed'
      exact ⟨instructions, marker, before, after, listed, tells.isFault, tells, earlier, within⟩

end FluentWrappers
