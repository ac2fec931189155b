import FluentWrappers.Proofs.Text.Numeral
import FluentWrappers.Proofs.Verification.Listing

/-!
# The printed lines of a body

A line of the listing is printed as its offset, a word without blanks, and what stands behind this word.
All three are found again in the text, so that the printed lines of a body tell what the check reads of
it, and a marker is never mistaken for an instruction.
-/

namespace FluentWrappers

open Binary

namespace CodeLine

/-- A line reads as a marker: behind the column of an offset stands that a byte is invalid, or one word
and that what follows it is cut off. -/
inductive IsMarker : String → Prop
  | invalid (offset : Nat) (digits : String) : IsMarker (column offset ++ "<invalid 0x" ++ digits ++ ">")
  | truncated (offset : Nat) {mnemonic : String} (word : ' ' ∉ mnemonic.toList) :
    IsMarker (column offset ++ mnemonic ++ " <truncated>")

/-! ### Parts of a line -/

/-- The first word behind the offset. -/
def word : CodeLine → List Char
  | plain _ op | withOperand _ op _ | truncated _ op => op.name.toList
  | invalid _ _ => "<invalid".toList

/-- How an operand is shown. -/
def shown (refs : List MemberReference) (op : Opcode) (operand : UInt32) : List Char :=
  if op.referencesMember then
    '#' :: (Nat.toDigits 10 operand.toNat ++
      ' ' :: (match refs[operand.toNat]? with | some m => m.text | none => "<invalid ref>").toList)
  else Nat.toDigits 10 operand.toNat

def behind (refs : List MemberReference) : CodeLine → List Char
  | plain _ _ => []
  | withOperand _ op operand => ' ' :: shown refs op operand
  | invalid _ byte => ' ' :: ("0x".toList ++ (Text.paddedHex 2 byte.toNat).toList ++ ['>'])
  | truncated _ _ => ' ' :: "<truncated>".toList

theorem toList_column (offset : Nat) : (column offset).toList =
    List.replicate 8 ' ' ++ ((Text.paddedDecimal 4 offset).toList ++ [' ', ' ']) := by
  simp only [column, String.toList_append, List.append_assoc]
  rfl

theorem toList_toString (operand : UInt32) :
    (toString operand).toList = Nat.toDigits 10 operand.toNat := by
  show (toString operand.toNat).toList = _
  rw [Nat.toString_eq_repr, Nat.toList_repr]

/-- A line shows its offset, a word and what stands behind it. -/
theorem toList_text (refs : List MemberReference) (line : CodeLine) :
    (line.text refs).toList = (column line.offset).toList ++ (line.word ++ line.behind refs) := by
  cases line with
  | plain at' op =>
    show (column at' ++ op.name).toList = _
    rw [String.toList_append, behind, List.append_nil]
    rfl
  | withOperand at' op operand =>
    simp only [text, behind, shown]
    split
    case isTrue =>
      show (column at' ++ (op.name ++ " #" ++ toString operand ++ " " ++ _)).toList = _
      simp only [String.toList_append, toList_toString, List.append_assoc]
      rfl
    case isFalse =>
      show (column at' ++ (op.name ++ " " ++ toString operand)).toList = _
      simp only [String.toList_append, toList_toString, List.append_assoc]
      rfl
  | invalid at' byte =>
    show (column at' ++ ("<invalid 0x" ++ Text.paddedHex 2 byte.toNat ++ ">")).toList = _
    simp only [String.toList_append, List.append_assoc]
    rfl
  | truncated at' op =>
    show (column at' ++ (op.name ++ " <truncated>")).toList = _
    simp only [String.toList_append]
    rfl

/-! ### Reading a line back -/

/-- Nothing, or a blank and more. -/
def StartsBlank : List Char → Prop
  | [] => True
  | c :: _ => c = ' '

theorem startsBlank_cons (tail : List Char) : StartsBlank (' ' :: tail) := rfl

theorem takeWhile_word {word tail : List Char} (noBlank : ' ' ∉ word) (blank : StartsBlank tail) :
    (word ++ tail).takeWhile (· != ' ') = word := by
  have inside : ∀ c ∈ word, (c != ' ') = true := fun c mem =>
    bne_iff_ne.2 fun same => noBlank (same ▸ mem)
  have outside : tail.takeWhile (· != ' ') = [] := by
    cases tail with
    | nil => rfl
    | cons c rest =>
      obtain rfl : c = ' ' := blank
      rfl
  rw [List.takeWhile_append_of_pos inside, outside, List.append_nil]

/-- A text that starts with a word tells this word and what follows it. -/
theorem word_unique {word word' tail tail' : List Char} (noBlank : ' ' ∉ word)
    (noBlank' : ' ' ∉ word') (blank : StartsBlank tail) (blank' : StartsBlank tail')
    (same : word ++ tail = word' ++ tail') : word = word' ∧ tail = tail' := by
  have words : word = word' := by
    rw [← takeWhile_word noBlank blank, same, takeWhile_word noBlank' blank']
  subst words
  exact ⟨rfl, List.append_cancel_left same⟩

theorem column_unique {a b : Nat} {x y : List Char}
    (same : (column a).toList ++ x = (column b).toList ++ y) : a = b ∧ x = y := by
  have noBlank (offset : Nat) : ' ' ∉ (Text.paddedDecimal 4 offset).toList :=
    fun mem => absurd (Text.isDigit_of_mem_paddedDecimal mem) (by decide)
  rw [toList_column, toList_column, List.append_assoc, List.append_assoc, List.append_assoc,
    List.append_assoc] at same
  obtain ⟨digits, rest⟩ := word_unique (noBlank a) (noBlank b) (startsBlank_cons _)
    (startsBlank_cons _) (List.append_cancel_left same)
  exact ⟨Text.paddedDecimal_injective 4 digits, (List.cons.inj (List.cons.inj rest).2).2⟩

theorem blank_notMem_name (op : Opcode) : ' ' ∉ op.name.toList := by
  cases op <;> decide

theorem blank_notMem_word (line : CodeLine) : ' ' ∉ line.word := by
  cases line with
  | plain | withOperand | truncated => exact blank_notMem_name _
  | invalid =>
    show ' ' ∉ "<invalid".toList
    decide

theorem startsBlank_behind (refs : List MemberReference) (line : CodeLine) :
    StartsBlank (line.behind refs) := by
  cases line with
  | plain => exact trivial
  | withOperand | invalid | truncated => rfl

/-- A text that is laid out as a line tells its parts. -/
theorem parts_of_text {refs : List MemberReference} {line : CodeLine} {offset : Nat}
    {word tail : List Char} (noBlank : ' ' ∉ word) (blank : StartsBlank tail)
    (laid : (line.text refs).toList = (column offset).toList ++ (word ++ tail)) :
    line.offset = offset ∧ line.word = word ∧ line.behind refs = tail := by
  rw [toList_text] at laid
  obtain ⟨offsets, rest⟩ := column_unique laid
  exact ⟨offsets, word_unique line.blank_notMem_word noBlank (line.startsBlank_behind refs) blank rest⟩

theorem name_injective {op op' : Opcode} (same : op.name.toList = op'.name.toList) : op = op' := by
  revert same
  cases op <;> cases op' <;> decide

theorem name_ne_invalid (op : Opcode) : op.name.toList ≠ "<invalid".toList := by
  cases op <;> decide

theorem toDigits_injective {a b : Nat} (same : Nat.toDigits 10 a = Nat.toDigits 10 b) : a = b := by
  rw [← Nat.ofDigitChars_ten_toDigits (n := a), same, Nat.ofDigitChars_ten_toDigits]

/-- The shown operand tells the operand, whatever the table says of it. -/
theorem shown_injective {refs refs' : List MemberReference} {op : Opcode} {a b : UInt32}
    (same : shown refs op a = shown refs' op b) : a = b := by
  have noBlank (operand : UInt32) : ' ' ∉ Nat.toDigits 10 operand.toNat := fun mem =>
    absurd (Nat.isDigit_of_mem_toDigits (by decide) (by decide) mem) (by decide)
  unfold shown at same
  split at same
  case isTrue =>
    obtain ⟨digits, -⟩ := word_unique (noBlank a) (noBlank b) (startsBlank_cons _)
      (startsBlank_cons _) (List.cons.inj same).2
    exact UInt32.toNat_inj.1 (toDigits_injective digits)
  case isFalse => exact UInt32.toNat_inj.1 (toDigits_injective same)

theorem shown_ne_mark (refs : List MemberReference) (op : Opcode) (operand : UInt32)
    (rest : List Char) : shown refs op operand ≠ '<' :: rest := by
  unfold shown
  split
  case isTrue => exact fun same => absurd (List.cons.inj same).1 (by decide)
  case isFalse =>
    intro same
    have digit : '<' ∈ Nat.toDigits 10 operand.toNat := same ▸ List.mem_cons_self
    exact absurd (Nat.isDigit_of_mem_toDigits (by decide) (by decide) digit) (by decide)

/-- The printed line tells the line. -/
theorem text_injective {refs refs' : List MemberReference} {line line' : CodeLine}
    (same : line.text refs = line'.text refs') : line = line' := by
  have laid := congrArg String.toList same
  rw [toList_text refs' line'] at laid
  obtain ⟨offsets, words, behinds⟩ :=
    parts_of_text line'.blank_notMem_word (line'.startsBlank_behind refs') laid
  cases line with
  | plain at' op =>
    cases line' with
    | plain at'' op' =>
      obtain rfl : at' = at'' := offsets
      rw [name_injective words]
    | withOperand | truncated => cases behinds
    | invalid => exact absurd words (name_ne_invalid op)
  | withOperand at' op operand =>
    cases line' with
    | withOperand at'' op' operand' =>
      obtain rfl : at' = at'' := offsets
      obtain rfl := name_injective words
      rw [shown_injective (List.cons.inj behinds).2]
    | plain => cases behinds
    | invalid => exact absurd words (name_ne_invalid op)
    | truncated => exact absurd (List.cons.inj behinds).2 (shown_ne_mark refs op operand _)
  | invalid at' byte =>
    cases line' with
    | invalid at'' byte' =>
      obtain rfl : at' = at'' := offsets
      have digits := List.append_cancel_left (List.append_cancel_right (List.cons.inj behinds).2)
      rw [UInt8.toNat_inj.1 (Text.paddedHex_injective 2 digits)]
    | plain | withOperand | truncated => exact absurd words.symm (name_ne_invalid _)
  | truncated at' op =>
    cases line' with
    | truncated at'' op' =>
      obtain rfl : at' = at'' := offsets
      rw [name_injective words]
    | plain => cases behinds
    | invalid => exact absurd words (name_ne_invalid op)
    | withOperand => exact absurd (List.cons.inj behinds).2.symm (shown_ne_mark refs' _ _ _)

/-! ### Markers -/

theorem not_isMarker_text {refs : List MemberReference} {line : CodeLine}
    (instruction : line.isFault = false) : ¬ IsMarker (line.text refs) := by
  generalize printed : line.text refs = text
  rintro (⟨offset, digits⟩ | @⟨offset, mnemonic, word⟩)
  · have laid : (line.text refs).toList = (column offset).toList ++
        ("<invalid".toList ++ ' ' :: ("0x".toList ++ digits.toList ++ ['>'])) := by
      rw [printed]
      simp only [String.toList_append, List.append_assoc]
      rfl
    obtain ⟨-, words, -⟩ := parts_of_text (by decide) (startsBlank_cons _) laid
    cases line with
    | plain | withOperand => exact name_ne_invalid _ words
    | invalid | truncated => cases instruction
  · have laid : (line.text refs).toList = (column offset).toList ++
        (mnemonic.toList ++ ' ' :: "<truncated>".toList) := by
      rw [printed]
      simp only [String.toList_append, List.append_assoc]
      rfl
    obtain ⟨-, -, behinds⟩ := parts_of_text word (startsBlank_cons _) laid
    cases line with
    | plain => cases behinds
    | withOperand => exact shown_ne_mark _ _ _ _ (List.cons.inj behinds).2
    | invalid | truncated => cases instruction

/-- A line of a body reads as a marker exactly if it is one. -/
theorem isMarker_text_iff {refs : List MemberReference} {line : CodeLine} :
    IsMarker (line.text refs) ↔ line.isFault = true := by
  cases fault : line.isFault with
  | false => exact iff_of_false (not_isMarker_text fault) Bool.false_ne_true
  | true =>
    refine iff_of_true ?_ rfl
    cases line with
    | plain | withOperand => cases fault
    | invalid at' byte =>
      have printed : (invalid at' byte).text refs =
          column at' ++ "<invalid 0x" ++ Text.paddedHex 2 byte.toNat ++ ">" := by
        show column at' ++ ("<invalid 0x" ++ Text.paddedHex 2 byte.toNat ++ ">") = _
        simp only [String.append_assoc]
      rw [printed]
      exact .invalid at' _
    | truncated at' op =>
      have printed : (truncated at' op).text refs = column at' ++ op.name ++ " <truncated>" := by
        show column at' ++ (op.name ++ " <truncated>") = _
        rw [String.append_assoc]
      rw [printed]
      exact .truncated at' (blank_notMem_name op)

/-- A marker begins with eight blanks and a digit. -/
theorem IsMarker.eighth {text : String} (h : IsMarker text) :
    ∃ c, text.toList[8]? = some c ∧ c.isDigit = true := by
  have column (offset : Nat) (rest : List Char) :
      ∃ c, ((column offset).toList ++ rest)[8]? = some c ∧ c.isDigit = true := by
    obtain ⟨c, others, digits⟩ : ∃ c others, (Text.paddedDecimal 4 offset).toList = c :: others :=
      List.exists_cons_of_length_pos (Text.paddedDecimal_pos (by decide) offset)
    refine ⟨c, ?_, Text.isDigit_of_mem_paddedDecimal (digits ▸ List.mem_cons_self)⟩
    rw [toList_column, digits]
    rfl
  cases h with
  | invalid offset digits =>
    rw [String.append_assoc, String.append_assoc, String.toList_append]
    exact column offset _
  | truncated offset =>
    rw [String.append_assoc, String.toList_append]
    exact column offset _

end CodeLine

/-! ### Printed methods -/

namespace Method

/-- The lines of a printed method between its head and its end. -/
def bodyLines (refs : List MemberReference) (m : Method) : List String :=
  ((m.listing refs).drop 2).dropLast

variable {refs : List MemberReference} {m : Method}

/-- A text whose ninth character is no digit is no marker. -/
theorem not_isMarker_of_eighth {text : String} {c : Char} (eighth : text.toList[8]? = some c)
    (other : c.isDigit = false) : ¬ CodeLine.IsMarker text := by
  intro marker
  obtain ⟨d, same, digit⟩ := marker.eighth
  obtain rfl : c = d := Option.some.inj (eighth.symm.trans same)
  rw [other] at digit
  cases digit

/-- A method that has a body is printed as two lines, the lines of its body and one line more. -/
theorem listing_eq (refs : List MemberReference) (concrete : m.isAbstract = false) : ∃ opening depth,
    m.listing refs = opening :: depth :: (m.bodyLines refs ++ ["    \x7d"]) ∧
      m.bodyLines refs = (CodeLine.ofCode m.code).map (CodeLine.text refs) ∧
      ¬ CodeLine.IsMarker opening ∧ ¬ CodeLine.IsMarker depth := by
  obtain ⟨opening, depth, printed, first, second⟩ : ∃ opening depth,
      m.listing refs = opening :: depth ::
        ((CodeLine.ofCode m.code).map (CodeLine.text refs) ++ ["    \x7d"]) ∧
      ¬ CodeLine.IsMarker opening ∧ ¬ CodeLine.IsMarker depth := by
    unfold listing
    rw [if_neg (by rw [concrete]; exact Bool.false_ne_true)]
    refine ⟨_, _, rfl, ?_, ?_⟩
    · cases m.visibility with
      | publicAccess =>
        refine not_isMarker_of_eighth (c := 'i') ?_ rfl
        simp only [String.toList_append]
        rfl
      | internalAccess =>
        refine not_isMarker_of_eighth (c := 'r') ?_ rfl
        simp only [String.toList_append]
        rfl
      | privateAccess =>
        refine not_isMarker_of_eighth (c := 'a') ?_ rfl
        simp only [String.toList_append]
        rfl
    · refine not_isMarker_of_eighth (c := ';') ?_ rfl
      simp only [String.toList_append]
      rfl
  have lines : m.bodyLines refs = (CodeLine.ofCode m.code).map (CodeLine.text refs) := by
    unfold bodyLines
    rw [printed]
    exact List.dropLast_concat
  exact ⟨opening, depth, lines ▸ printed, lines, first, second⟩

end Method

/-! ### What printed lines tell -/

namespace CodeInstruction

/-- The printed line of an instruction. -/
def text (refs : List MemberReference) (i : CodeInstruction) : String := i.line.text refs

/-- The instruction that a line stands for. -/
def ofLine : CodeLine → CodeInstruction
  | .plain offset op => ⟨offset, op, 0⟩
  | .withOperand offset op operand => ⟨offset, op, operand⟩
  | .invalid offset _ => ⟨offset, .ret, 0⟩
  | .truncated offset op => ⟨offset, op, 0⟩

/-- An instruction shows its offset, its name and its operand if it has one. -/
theorem toList_text (refs : List MemberReference) (i : CodeInstruction) :
    (i.text refs).toList = (CodeLine.column i.offset).toList ++ (i.opcode.name.toList ++
      if i.opcode.operandSize = 0 then [] else ' ' :: CodeLine.shown refs i.opcode i.operand) := by
  unfold text
  rw [CodeLine.toList_text]
  unfold line
  split <;> rfl

theorem ReadsFrom.ofLine_line {i : CodeInstruction} {r next : Reader} (reads : i.ReadsFrom r next) :
    ofLine i.line = i := by
  obtain ⟨offset, op, operand⟩ := i
  unfold line
  split
  case isTrue none =>
    have read := reads.operand
    dsimp only at read none
    rw [none] at read
    obtain rfl : 0 = operand := Except.ok.inj (congrArg Prod.fst read)
    rfl
  case isFalse => rfl

theorem ParsesTo.map_ofLine {r : Reader} {instructions : List CodeInstruction}
    (h : ParsesTo r instructions) : (instructions.map line).map ofLine = instructions := by
  induction instructions generalizing r with
  | nil => rfl
  | cons i rest ih =>
    obtain ⟨next, reads, parsed⟩ := h.cons
    rw [List.map_cons, List.map_cons, reads.ofLine_line, ih parsed]

/-- The listing of a code tells its instructions. -/
theorem eq_of_parse {code : List UInt8} {instructions : List CodeInstruction}
    (parsed : parse code = .ok instructions) : instructions = (CodeLine.ofCode code).map ofLine := by
  rw [(listedAsRead code).same instructions parsed, (parse_parsesTo parsed).map_ofLine]

theorem parse_of_same_lines {code code' : List UInt8} {instructions : List CodeInstruction}
    (same : CodeLine.ofCode code = CodeLine.ofCode code') (parsed : parse code = .ok instructions) :
    parse code' = .ok instructions := by
  have noFault := (listedAsRead code).succeeds.1 ⟨instructions, parsed⟩
  rw [same] at noFault
  obtain ⟨others, parsed'⟩ := (listedAsRead code').succeeds.2 noFault
  rw [parsed', eq_of_parse parsed', eq_of_parse parsed, same]

end CodeInstruction

/-- Lines are told by their texts, one by one. -/
theorem CodeLine.map_text_injective {refs refs' : List MemberReference} {lines lines' : List CodeLine}
    (same : lines.map (text refs) = lines'.map (text refs')) : lines = lines' := by
  induction lines generalizing lines' with
  | nil => exact (List.map_eq_nil_iff.1 same.symm).symm
  | cons line rest ih =>
    obtain ⟨line', rest', rfl, first, others⟩ := List.map_eq_cons_iff.1 same.symm
    rw [text_injective first, ih others.symm]

/-- The check reads a body as the method is printed. -/
structure Method.PrintedAsRead (refs : List MemberReference) (m : Method) : Prop where
  /-- The check reads the body exactly if no printed line of the method is a marker. -/
  succeeds : (∃ instructions, CodeInstruction.parse m.code = .ok instructions) ↔
    ∀ text ∈ m.listing refs, ¬ CodeLine.IsMarker text
  /-- Then the lines between head and end are those of the instructions that the check reads. -/
  same : ∀ instructions, CodeInstruction.parse m.code = .ok instructions →
    m.bodyLines refs = instructions.map (CodeInstruction.text refs)
  /-- If the check fails, the instructions that it has read before are printed, then one marker of this
  fault, and no more. -/
  stops : ∀ fault, CodeInstruction.parse m.code = .error fault →
    ∃ (instructions : List CodeInstruction) (marker : CodeLine),
      CodeInstruction.parseFrom instructions.length (Reader.ofBytes m.code) = .ok instructions ∧
      CodeInstruction.parseFrom (instructions.length + 1) (Reader.ofBytes m.code) = .error fault ∧
      m.bodyLines refs = instructions.map (CodeInstruction.text refs) ++ [marker.text refs] ∧
      marker.Tells m.code.length fault ∧ CodeLine.IsMarker (marker.text refs)
  /-- The line of an instruction shows its offset, its name and its operand, and is no marker. -/
  shows : ∀ i : CodeInstruction, ¬ CodeLine.IsMarker (i.text refs) ∧
    (i.text refs).toList = (CodeLine.column i.offset).toList ++ (i.opcode.name.toList ++
      if i.opcode.operandSize = 0 then [] else ' ' :: CodeLine.shown refs i.opcode i.operand)
  /-- Bodies that are printed alike are read alike. -/
  determines : ∀ (refs' : List MemberReference) (m' : Method), m'.isAbstract = false →
    m'.bodyLines refs' = m.bodyLines refs → ∀ instructions,
      CodeInstruction.parse m'.code = .ok instructions ↔ CodeInstruction.parse m.code = .ok instructions

theorem Method.printedAsRead (refs : List MemberReference) {m : Method}
    (concrete : m.isAbstract = false) : m.PrintedAsRead refs := by
  obtain ⟨opening, depth, printed, lines, first, second⟩ := listing_eq refs concrete
  have listed := listedAsRead m.code
  have texts (instructions : List CodeInstruction) :
      (instructions.map CodeInstruction.line).map (CodeLine.text refs) =
        instructions.map (CodeInstruction.text refs) := List.map_map
  have closing : ¬ CodeLine.IsMarker "    \x7d" := by
    intro marker
    obtain ⟨c, none, -⟩ := marker.eighth
    cases none
  refine ⟨?_, fun instructions parsed => ?_, fun fault failed => ?_, fun i => ?_,
    fun refs' m' concrete' alike instructions => ?_⟩
  · rw [listed.succeeds, printed, lines]
    constructor
    · intro plain text isText
      rcases List.mem_cons.1 isText with rfl | isText
      · exact first
      rcases List.mem_cons.1 isText with rfl | isText
      · exact second
      rcases List.mem_append.1 isText with isText | isText
      · obtain ⟨line, isLine, rfl⟩ := List.mem_map.1 isText
        exact CodeLine.not_isMarker_text (plain line isLine)
      · obtain rfl := List.mem_singleton.1 isText
        exact closing
    · intro plain line isLine
      have isText : line.text refs ∈ (CodeLine.ofCode m.code).map (CodeLine.text refs) :=
        List.mem_map_of_mem isLine
      have noMarker := plain (line.text refs)
        (List.mem_cons_of_mem _ (List.mem_cons_of_mem _ (List.mem_append_left _ isText)))
      rw [CodeLine.isMarker_text_iff, Bool.not_eq_true] at noMarker
      exact noMarker
  · rw [lines, listed.same instructions parsed, texts]
  · obtain ⟨instructions, marker, before, after, shown, isFault, tells, -⟩ := listed.stops fault failed
    refine ⟨instructions, marker, before, after, ?_, tells, CodeLine.isMarker_text_iff.2 isFault⟩
    rw [lines, shown, List.map_append, texts]
    rfl
  · exact ⟨CodeLine.not_isMarker_text i.isFault_line, i.toList_text refs⟩
  · obtain ⟨_, _, -, lines', -⟩ := listing_eq refs' concrete'
    rw [lines, lines'] at alike
    have same := CodeLine.map_text_injective alike
    exact ⟨CodeInstruction.parse_of_same_lines same, CodeInstruction.parse_of_same_lines same.symm⟩

end FluentWrappers
