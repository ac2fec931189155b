import FluentWrappers.Binary.Request
import FluentWrappers.Proofs.Binary.Spans

/-!
# Reads near the end of the address space

Before a read takes bytes it adds their number to its offset, as machine words, and compares the sum
with the size of the buffer. A sum that wraps around to an offset within the buffer passes this check,
and the program stops at the bytes that the read then asks for. Only the first sum of a read can wrap
around, and only if the reader was sent far beyond the buffer or is asked for a huge number of bytes.
Commands to a reader are therefore answered up to the first read of this kind, and not beyond.
-/

namespace FluentWrappers.Binary

open Fallible

namespace Reader

/-- The buffer lies in memory and the offset is a machine word. -/
def Addressable (r : Reader) : Prop := r.size < 2 ^ 63 ∧ r.position < addressSpace

/-- The offset after the next `count` bytes wraps around to an offset of the buffer or its end. -/
def WrapsInto (r : Reader) (count : Nat) : Prop :=
  addressSpace ≤ r.position + count ∧ r.position + count - addressSpace ≤ r.size

instance (r : Reader) (count : Nat) : Decidable (r.WrapsInto count) :=
  inferInstanceAs (Decidable (_ ∧ _))

/-- How a read of bytes that are not there fails. -/
def refusal (r : Reader) (count : Nat) : ReadFault :=
  if r.WrapsInto count then .overflow r.position else .refused (.unexpectedEnd r.position)

variable {r : Reader} {count : Nat}

theorem stop_eq (addressable : r.Addressable) (word : count < addressSpace) :
    r.stop count = if r.position + count < addressSpace then r.position + count
      else r.position + count - addressSpace := by
  obtain ⟨short, here⟩ := addressable
  have half : 2 ^ 63 < addressSpace := by decide
  have words : r.offsetCount = addressSpace := Nat.max_eq_left (by omega)
  unfold stop
  rw [words]
  split
  case isTrue below => exact Nat.mod_eq_of_lt below
  case isFalse wraps =>
    rw [Nat.mod_eq_sub_mod (by omega), Nat.mod_eq_of_lt (by omega)]

theorem refusal_of_wraps (wraps : r.WrapsInto count) : r.refusal count = .overflow r.position :=
  if_pos wraps

theorem refusal_of_straight (straight : ¬ r.WrapsInto count) :
    r.refusal count = .refused (.unexpectedEnd r.position) :=
  if_neg straight

theorem refusal_overflows_iff : (∃ offset, r.refusal count = .overflow offset) ↔ r.WrapsInto count := by
  by_cases wraps : r.WrapsInto count
  · exact iff_of_true ⟨_, refusal_of_wraps wraps⟩ wraps
  · refine iff_of_false (fun ⟨offset, same⟩ => ?_) wraps
    rw [refusal_of_straight wraps] at same
    cases same

end Reader

section

variable {α β : Type} {item : Read α} {r : Reader} {count : Nat}

theorem bytes_of_missing (addressable : r.Addressable) (word : count < addressSpace)
    (missing : r.size < r.position + count) :
    Read.bytes count r = (.error (r.refusal count), r) := by
  have half : 2 ^ 63 < addressSpace := by decide
  have short := addressable.1
  unfold Read.bytes
  rw [bind_ok (reader_apply r), Reader.stop_eq addressable word]
  by_cases wraps : r.WrapsInto count
  · obtain ⟨beyond, into⟩ := wraps
    rw [if_neg (by omega : ¬ r.position + count < addressSpace), if_neg (by omega), if_pos (by omega),
      Reader.refusal_of_wraps ⟨beyond, into⟩]
    rfl
  · -- the sum stays below the address space, or it wraps around to an offset beyond the buffer
    have outside : r.size < if r.position + count < addressSpace then r.position + count
        else r.position + count - addressSpace := by
      split
      case isTrue => exact missing
      case isFalse beyond => exact Nat.lt_of_not_le fun into => wraps ⟨by omega, into⟩
    rw [if_pos outside, Reader.refusal_of_straight wraps]
    rfl

/-- The read takes the given number of bytes if they are there. Else it fails and leaves the reader where
it is. -/
structure PlainAt (item : Read α) (count : Nat) (r : Reader) : Prop where
  there : r.position + count ≤ r.size → ∃ value, item r = (.ok value, r.advance count)
  missing : r.size < r.position + count → item r = (.error (r.refusal count), r)

theorem plainAt_bytes (addressable : r.Addressable) (word : count < addressSpace) :
    PlainAt (Read.bytes count) count r where
  there := fun there => ⟨_, bytes_of_there there⟩
  missing := bytes_of_missing addressable word

theorem PlainAt.map (h : PlainAt item count r) (f : α → β) :
    PlainAt (do let x ← item; pure (f x)) count r where
  there := by
    intro there
    obtain ⟨value, run⟩ := h.there there
    exact ⟨f value, bind_ok run⟩
  missing := fun missing => bind_error (h.missing missing)

end

theorem confined_opcode {limit : Nat} : Confined id limit Read.opcode := by
  intro r placed left
  refine (confined_u8 r placed left).bind placed fun byte t _ placed' _ => ?_
  cases Opcode.ofByte? byte with
  | some op => exact confinedAt_pure op placed'
  | none => exact confinedAt_reader (confinedAt_refuse not_false placed')

/-- No sum of the read wraps around, and it leaves the reader within the buffer. -/
def Addressed {α : Type} (item : Read α) (r : Reader) : Prop :=
  ∃ spans outcome t, Performs item r spans outcome t ∧ t.Placed ∧
    (∀ span ∈ spans, span.offset + span.count < addressSpace) ∧
    ∀ offset, outcome ≠ .error (.overflow offset)

/-- A read that keeps to the buffer adds no numbers whose sum wraps around. -/
theorem Confined.addressed {α : Type} {item : Read α} {r : Reader}
    (h : Confined id (r.remaining + 1) item) (placed : r.Placed) : Addressed item r := by
  obtain ⟨spans, outcome, t, performs, contained⟩ := h r placed (Nat.lt_succ_self _)
  have below : ∀ span ∈ spans, span.offset + span.count < addressSpace :=
    fun span => contained.addressable placed.2
  cases contained with
  | granted leads _ inRange =>
    exact ⟨spans, outcome, t, performs, leads.placed placed, below,
      fun offset same => inRange (.overflow offset) same trivial⟩
  | refused leads => exact ⟨_, _, t, performs, leads.placed placed, below, nofun⟩

/-! ### The reads that there are -/

namespace ReadRequest

/-- The number of bytes that the read asks for first. -/
def width : ReadRequest → Nat
  | .u8 | .bool | .optionalString | .opcode => 1
  | .u16 => 2
  | .u32 | .string => 4
  | .i64 => 8
  | .bytes count => count

/-- All bytes of these reads are asked for at once, and any such bytes are a value. -/
def IsPlain : ReadRequest → Prop
  | .string | .optionalString | .opcode => False
  | _ => True

/-- How a read goes: it asks for spans, has an outcome and leaves a reader. It overflows exactly if the end
of the bytes that it asks for first wraps around to an offset of the buffer. -/
structure Goes (request : ReadRequest) (r : Reader) (spans : List Span)
    (outcome : Except ReadFault request.Value) (t : Reader) : Prop where
  run : request.read r = (outcome, t)
  asks : Performs request.read r spans outcome t
  /-- No later sum of the read wraps around. -/
  straight : ∀ span ∈ spans, addressSpace ≤ span.offset + span.count →
    span = ⟨r.position, request.width⟩
  overflows : (∃ offset, outcome = .error (.overflow offset)) ↔ r.WrapsInto request.width
  /-- A read of fixed width, or of a given number of bytes, gives a value exactly if the bytes are there. -/
  gives : request.IsPlain → ((∃ value, outcome = .ok value) ↔ r.position + request.width ≤ r.size)
  /-- Such a read leaves the reader where it is if it fails. -/
  stays : request.IsPlain → ∀ fault, outcome = .error fault → t = r
  addressable : t.Addressable
  buffer : t.buffer = r.buffer

variable {request : ReadRequest} {r : Reader}

theorem plainAt (plain : request.IsPlain) (addressable : r.Addressable)
    (word : request.width < addressSpace) : PlainAt request.read request.width r := by
  cases request with
  | u8 => exact (plainAt_bytes addressable word).map _
  | bool => exact ((plainAt_bytes addressable word).map _).map _
  | u16 => exact (plainAt_bytes addressable word).map _
  | u32 => exact (plainAt_bytes addressable word).map _
  | i64 => exact (plainAt_bytes addressable word).map _
  | bytes count => exact plainAt_bytes addressable word
  | string | optionalString | opcode => exact plain.elim

/-- A read that fails at the bytes that it asks for first asks for nothing else. -/
theorem performs_first {fault : ReadFault}
    (failed : Read.bytes request.width r = (.error fault, r)) :
    Performs request.read r [⟨r.position, request.width⟩] (.error fault) r := by
  have first := Performs.bytes request.width r
  rw [failed] at first
  cases request with
  | u8 | u16 | u32 | i64 => exact first.stop
  | bool | string | opcode => exact first.stop.stop
  | optionalString => exact first.stop.stop.stop
  | bytes count => exact first

/-- Once the bytes that a read asks for first are there, all that it asks for is addressed. -/
theorem addressed (placed : r.Placed) (there : r.position + request.width ≤ r.size) :
    Addressed request.read r := by
  cases request with
  | u8 => exact Confined.addressed confined_u8 placed
  | bool => exact Confined.addressed confined_bool placed
  | u16 => exact Confined.addressed confined_u16 placed
  | u32 => exact Confined.addressed confined_u32 placed
  | i64 => exact Confined.addressed confined_i64 placed
  | string => exact Confined.addressed confined_string placed
  | optionalString => exact Confined.addressed (confined_optional confined_string) placed
  | opcode => exact Confined.addressed confined_opcode placed
  | bytes count =>
    change r.position + count ≤ r.size at there
    have half : 2 ^ 63 < addressSpace := by decide
    have short := placed.2
    have performs := Performs.bytes count r
    rw [bytes_of_there there] at performs
    refine ⟨_, _, _, performs, ⟨there, short⟩, fun span asked => ?_, nofun⟩
    obtain rfl := List.mem_singleton.1 asked
    show r.position + count < addressSpace
    omega

/-- Every read of an addressable reader goes as said. -/
theorem goes (request : ReadRequest) (addressable : r.Addressable)
    (word : request.width < addressSpace) : ∃ spans outcome t, request.Goes r spans outcome t := by
  have half : 2 ^ 63 < addressSpace := by decide
  obtain ⟨short, here⟩ := addressable
  by_cases there : r.position + request.width ≤ r.size
  · have placed : r.Placed := ⟨Nat.le_of_add_right_le there, short⟩
    obtain ⟨spans, outcome, t, performs, placed', below, straight⟩ := addressed placed there
    refine ⟨spans, outcome, t, performs.run, performs, fun span asked beyond => ?_, ?_, fun plain => ?_,
      fun plain fault failed => ?_, ⟨placed'.2, ?_⟩, performs.buffer_eq⟩
    · exact absurd beyond (Nat.not_le_of_lt (below span asked))
    · refine iff_of_false (fun ⟨offset, overflowed⟩ => straight offset overflowed) fun wraps => ?_
      have beyond : addressSpace ≤ r.position + request.width := wraps.1
      omega
    · obtain ⟨value, run⟩ := (plainAt plain ⟨short, here⟩ word).there there
      obtain ⟨rfl, -⟩ := Prod.mk.inj (performs.run.symm.trans run)
      exact iff_of_true ⟨value, rfl⟩ there
    · obtain ⟨value, run⟩ := (plainAt plain ⟨short, here⟩ word).there there
      obtain ⟨same, -⟩ := Prod.mk.inj (performs.run.symm.trans run)
      rw [failed] at same
      cases same
    · have within : t.position ≤ t.size := placed'.1
      have short' : t.size < 2 ^ 63 := placed'.2
      omega
  · have missing : r.size < r.position + request.width := Nat.lt_of_not_le there
    have performs := performs_first (bytes_of_missing ⟨short, here⟩ word missing)
    refine ⟨_, _, r, performs.run, performs, fun span asked _ => List.mem_singleton.1 asked, ?_,
      fun _ => iff_of_false nofun there, fun _ _ _ => rfl, ⟨short, here⟩, rfl⟩
    simp only [Except.error.injEq]
    exact Reader.refusal_overflows_iff

end ReadRequest

/-! ### Commands -/

/-- The offsets and counts of commands are machine words. -/
def ReaderCommand.IsWord : ReaderCommand → Prop
  | .seek position => position < addressSpace
  | .read request => request.width < addressSpace

instance : DecidablePred ReaderCommand.IsWord
  | .seek position => inferInstanceAs (Decidable (position < addressSpace))
  | .read request => inferInstanceAs (Decidable (request.width < addressSpace))

namespace Reader

variable {r s : Reader} {command : ReaderCommand} {request : ReadRequest}

theorem Addressable.seek {position : Nat} (h : r.Addressable) (word : position < addressSpace) :
    (r.seek position).Addressable :=
  ⟨h.1, word⟩

/-- One command: it is not answered exactly if it is a read that overflows, and what is answered leaves
an addressable reader of the same buffer. -/
theorem answer?_cases (addressable : r.Addressable) (word : command.IsWord) :
    (r.answer? command = none ∧ ∃ request, command = .read request ∧ r.WrapsInto request.width) ∨
      (∃ answer, r.answer? command = some answer ∧ answer.reader.Addressable ∧
        answer.reader.buffer = r.buffer) ∧
      ∀ request, command = .read request → ¬ r.WrapsInto request.width := by
  cases command with
  | seek position => exact Or.inr ⟨⟨_, rfl, addressable.seek word, rfl⟩, nofun⟩
  | read request =>
    obtain ⟨spans, outcome, t, goes⟩ := request.goes addressable word
    have answered : r.answer? (.read request) = request.answer? (outcome, t) :=
      congrArg request.answer? goes.run
    rw [answered]
    match outcome, goes.overflows with
    | .error (.overflow offset), overflows =>
      exact Or.inl ⟨rfl, request, rfl, overflows.1 ⟨offset, rfl⟩⟩
    | .ok value, overflows =>
      refine Or.inr ⟨⟨_, rfl, goes.addressable, goes.buffer⟩, ?_⟩
      rintro _ ⟨⟩ wraps
      exact nomatch overflows.2 wraps
    | .error (.refused cause), overflows =>
      refine Or.inr ⟨⟨_, rfl, goes.addressable, goes.buffer⟩, ?_⟩
      rintro _ ⟨⟩ wraps
      exact nomatch overflows.2 wraps

theorem serve?_cons_of_none {later : List ReaderCommand} (stopped : r.answer? command = none) :
    r.serve? (command :: later) = none := by
  rw [serve?, stopped]
  rfl

theorem serve?_cons_of_some {later : List ReaderCommand} {answer : ReaderAnswer}
    (answered : r.answer? command = some answer) :
    r.serve? (command :: later) =
      (answer.reader.serve? later).map fun run => (answer :: run.1, run.2) := by
  rw [serve?, answered]
  dsimp only [Option.bind_eq_bind, Option.bind_some]
  cases answer.reader.serve? later <;> rfl

/-- Answered commands leave an addressable reader of the same buffer. -/
theorem serve?_kept {commands : List ReaderCommand} {answers : List ReaderAnswer}
    (addressable : r.Addressable) (words : ∀ command ∈ commands, command.IsWord)
    (served : r.serve? commands = some (answers, s)) : s.Addressable ∧ s.buffer = r.buffer := by
  induction commands generalizing r answers with
  | nil =>
    cases served
    exact ⟨addressable, rfl⟩
  | cons command later ih =>
    obtain ⟨word, words⟩ := List.forall_mem_cons.1 words
    rcases answer?_cases addressable word with ⟨stopped, -⟩ | ⟨⟨answer, answered, kept, same⟩, -⟩
    · rw [serve?_cons_of_none stopped] at served
      cases served
    · rw [serve?_cons_of_some answered, Option.map_eq_some_iff] at served
      obtain ⟨⟨others, last⟩, rest, joined⟩ := served
      obtain ⟨-, rfl⟩ := Prod.mk.inj joined
      obtain ⟨placed, still⟩ := ih kept words rest
      exact ⟨placed, still.trans same⟩

/-- Commands are not answered exactly if the ones before some read are answered, and this one
overflows. -/
theorem serve?_eq_none_iff {commands : List ReaderCommand} (addressable : r.Addressable)
    (words : ∀ command ∈ commands, command.IsWord) :
    r.serve? commands = none ↔ ∃ before request after answers s,
      commands = before ++ .read request :: after ∧ r.serve? before = some (answers, s) ∧
        s.WrapsInto request.width := by
  induction commands generalizing r with
  | nil => exact iff_of_false nofun fun ⟨before, _, _, _, _, split, _⟩ => by cases before <;> cases split
  | cons command later ih =>
    obtain ⟨word, words⟩ := List.forall_mem_cons.1 words
    rcases answer?_cases addressable word with
      ⟨stopped, request, rfl, wraps⟩ | ⟨⟨answer, answered, kept, -⟩, straight⟩
    · exact iff_of_true (serve?_cons_of_none stopped) ⟨[], request, later, [], r, rfl, rfl, wraps⟩
    · rw [serve?_cons_of_some answered, Option.map_eq_none_iff, ih kept words]
      constructor
      · rintro ⟨before, request, after, answers, s, rfl, served, wraps⟩
        refine ⟨command :: before, request, after, answer :: answers, s, rfl, ?_, wraps⟩
        rw [serve?_cons_of_some answered, served]
        rfl
      · rintro ⟨before, request, after, answers, s, split, served, wraps⟩
        cases before with
        | nil =>
          obtain ⟨rfl, -⟩ := List.cons.inj split
          cases served
          exact absurd wraps (straight request rfl)
        | cons first before =>
          obtain ⟨rfl, rfl⟩ := List.cons.inj split
          rw [serve?_cons_of_some answered, Option.map_eq_some_iff] at served
          obtain ⟨⟨others, last⟩, rest, joined⟩ := served
          obtain ⟨-, rfl⟩ := Prod.mk.inj joined
          exact ⟨before, request, after, others, _, rfl, rest, wraps⟩

/-- Commands to a reader, among them any offsets and counts that are machine words, stop the program
exactly at the first read for which the end of the bytes that it asks for first wraps around to an offset
of the buffer. Every read up to there goes as said: it tells a value or a cause, no later sum wraps
around, and one of fixed width, or of a given number of bytes, gives a value exactly if the bytes are
there and leaves the reader where it is if they are not. -/
theorem stops_iff (bytes : List UInt8) (commands : List ReaderCommand)
    (inMemory : bytes.length < 2 ^ 63) (words : ∀ command ∈ commands, command.IsWord) :
    let start := Reader.ofBytes bytes
    (start.serve? commands = none ↔ ∃ before request after answers r,
      commands = before ++ .read request :: after ∧ start.serve? before = some (answers, r) ∧
        addressSpace ≤ r.position + request.width ∧
        r.position + request.width - addressSpace ≤ bytes.length) ∧
    ∀ before request after answers r, commands = before ++ .read request :: after →
      start.serve? before = some (answers, r) →
        r.buffer = bytes ∧ ∃ spans outcome t, request.Goes r spans outcome t := by
  intro start
  have first : 0 < addressSpace := by decide
  have addressable : start.Addressable := ⟨inMemory, first⟩
  have kept {before : List ReaderCommand} {request : ReadRequest} {after : List ReaderCommand}
      {answers : List ReaderAnswer} {r : Reader} (split : commands = before ++ .read request :: after)
      (served : start.serve? before = some (answers, r)) : r.Addressable ∧ r.buffer = bytes := by
    refine serve?_kept addressable (fun command asked => words command ?_) served
    rw [split]
    exact List.mem_append_left _ asked
  constructor
  · rw [serve?_eq_none_iff addressable words]
    refine exists_congr fun before => exists_congr fun request => exists_congr fun after =>
      exists_congr fun answers => exists_congr fun r => and_congr_right fun split =>
      and_congr_right fun served => ?_
    have size : r.size = bytes.length := r.size_eq.trans (congrArg List.length (kept split served).2)
    unfold WrapsInto
    rw [size]
  · intro before request after answers r split served
    obtain ⟨placed, same⟩ := kept split served
    have word : (ReaderCommand.read request).IsWord := by
      refine words _ ?_
      rw [split]
      exact List.mem_append_right _ List.mem_cons_self
    exact ⟨same, request.goes placed word⟩

/-- A word of two bytes that begins at the last offset of the address space. -/
theorem stops_iff_last :
    let bytes : List UInt8 := [1, 2, 3, 4]
    let commands : List ReaderCommand := [.seek (addressSpace - 1), .read .u16]
    bytes.length < 2 ^ 63 ∧ (∀ command ∈ commands, command.IsWord) ∧
      (Reader.ofBytes bytes).serve? commands = none := by
  intro bytes commands
  have inMemory : bytes.length < 2 ^ 63 := by decide
  have words : ∀ command ∈ commands, command.IsWord := by decide
  refine ⟨inMemory, words, (stops_iff bytes commands inMemory words).1.2 ?_⟩
  have wraps : addressSpace ≤ addressSpace - 1 + 2 ∧ addressSpace - 1 + 2 - addressSpace ≤ 4 := by
    decide
  exact ⟨[.seek (addressSpace - 1)], .u16, [], _, _, rfl, rfl, wraps⟩

/-- The check of the bounds does not hold a read back that begins at the last offset, nor one of as many
bytes as there are offsets. -/
theorem huge_reads_overflow :
    let start := Reader.ofBytes [1, 2, 3, 4]
    start.serve? [.seek (addressSpace - 1), .read .u8] = none ∧
      start.serve? [.seek 1, .read (.bytes (addressSpace - 1))] = none := by
  simp only [← Option.isNone_iff_eq_none]
  decide +kernel

end Reader

end FluentWrappers.Binary
