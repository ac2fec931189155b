import FluentWrappers.Proofs.Binary.Accepted
import Mathlib.Algebra.Ring.Nat

/-!
# The bytes that a read asks for

A read asks for one stretch of bytes after the other. As long as they are there, each begins where the
one before ended; the first that reaches past the end of the buffer is the last, and the read ends with
this fault. A repeated read therefore stops where a turn of it fails, however often it was to be
repeated, and it takes no more turns than there are bytes left.
-/

namespace FluentWrappers.Binary

open Fallible

/-! ### Runs and the spans they ask for -/

/-- A stretch of bytes that is asked for. -/
structure Span where
  offset : Nat
  count : Nat
  deriving DecidableEq, Repr

/-- From a reader on, a computation asks for the given spans, one after the other, and ends with an
outcome and a reader. -/
inductive Performs : {ε α : Type} → ExceptT ε (StateM Reader) α → Reader → List Span →
    Except ε α → Reader → Prop
  | pure {ε α : Type} (a : α) (r : Reader) :
    Performs (pure a : ExceptT ε (StateM Reader) α) r [] (.ok a) r
  | throw {ε α : Type} (e : ε) (r : Reader) :
    Performs (throw e : ExceptT ε (StateM Reader) α) r [] (.error e) r
  | reader {ε : Type} (r : Reader) :
    Performs (get : ExceptT ε (StateM Reader) Reader) r [] (.ok r) r
  | bytes (count : Nat) (r : Reader) :
    Performs (Read.bytes count) r [⟨r.position, count⟩] (Read.bytes count r).1 (Read.bytes count r).2
  | next {ε α β : Type} {item : ExceptT ε (StateM Reader) α} {f : α → ExceptT ε (StateM Reader) β}
    {r s t : Reader} {spans more : List Span} {a : α} {outcome : Except ε β} :
    Performs item r spans (.ok a) s → Performs (f a) s more outcome t →
    Performs (item >>= f) r (spans ++ more) outcome t
  | stop {ε α β : Type} {item : ExceptT ε (StateM Reader) α} {f : α → ExceptT ε (StateM Reader) β}
    {r s : Reader} {spans : List Span} {e : ε} :
    Performs item r spans (.error e) s → Performs (item >>= f) r spans (.error e) s
  /-- The same run with its faults named otherwise. -/
  | relabel {ε ε' α : Type} {item : ExceptT ε (StateM Reader) α} {r s : Reader} {spans : List Span}
    {outcome : Except ε α} (fault : ε → ε') : Performs item r spans outcome s →
    Performs (fun r => ((item r).1.mapError fault, (item r).2) : ExceptT ε' (StateM Reader) α) r
      spans (outcome.mapError fault) s

variable {ε α β : Type}

theorem Performs.run {item : ExceptT ε (StateM Reader) α} {r t : Reader} {spans : List Span}
    {outcome : Except ε α} (h : Performs item r spans outcome t) : item r = (outcome, t) := by
  induction h with
  | pure | throw | reader | bytes => rfl
  | next _ _ ih ih' => rw [bind_ok ih, ih']
  | stop _ ih => exact bind_error ih
  | relabel fault _ ih =>
    show ((_, _) : Except _ _ × Reader) = _
    rw [ih]

/-- Reads leave the buffer as it is. -/
theorem Performs.buffer_eq {item : ExceptT ε (StateM Reader) α} {r t : Reader} {spans : List Span}
    {outcome : Except ε α} (h : Performs item r spans outcome t) : t.buffer = r.buffer := by
  induction h with
  | pure | throw | reader => rfl
  | bytes count r =>
    unfold Read.bytes
    rw [bind_ok (reader_apply r)]
    split
    · rfl
    · split <;> rfl
  | next _ _ ih ih' => rw [ih', ih]
  | stop _ ih | relabel _ _ ih => exact ih

/-! ### Spans within the buffer -/

/-- The spans lie within the buffer, and each begins where the one before ended: together they lead from
one reader to another. -/
inductive Granted : Reader → List Span → Reader → Prop
  | nil {r : Reader} : r.position ≤ r.size → Granted r [] r
  | cons {r t : Reader} {count : Nat} {spans : List Span} : r.position + count ≤ r.size →
    Granted (r.advance count) spans t → Granted r (⟨r.position, count⟩ :: spans) t

namespace Granted

variable {r s t : Reader} {spans more : List Span}

theorem append (first : Granted r spans s) (second : Granted s more t) :
    Granted r (spans ++ more) t := by
  induction first with
  | nil => exact second
  | cons within _ ih => exact cons within (ih second)

theorem size_eq (h : Granted r spans t) : t.size = r.size := by
  induction h with
  | nil => rfl
  | cons _ _ ih => exact ih

theorem within (h : Granted r spans t) : t.position ≤ t.size := by
  induction h with
  | nil within => exact within
  | cons _ _ ih => exact ih

theorem forward (h : Granted r spans t) : r.position ≤ t.position := by
  induction h with
  | nil => exact Nat.le_refl _
  | cons _ _ ih => exact Nat.le_trans (Nat.le_add_right _ _) ih

theorem remaining_le (h : Granted r spans t) : t.remaining ≤ r.remaining := by
  have sizes := h.size_eq
  have forward := h.forward
  unfold Reader.remaining
  omega

/-- Every one of the spans ends within the buffer. -/
theorem bound (h : Granted r spans t) {span : Span} (asked : span ∈ spans) :
    span.offset + span.count ≤ r.size := by
  induction h with
  | nil => exact nomatch asked
  | cons within _ ih =>
    rcases List.mem_cons.1 asked with rfl | asked
    · exact within
    · exact ih asked

end Granted

/-- The fault of a read past the end, or of one that wraps around the address space. -/
def ReadFault.OutOfRange (fault : ReadFault) : Prop :=
  match fault.cause with
  | .unexpectedEnd _ => True
  | _ => False

/-- How a run asks for bytes. Either all that it asks for is there, and it does not end with a fault of
range; or it asks for one span more, which reaches past the end, and it ends with the fault of this span
where the span begins. In both cases the spans that are there are at most `slack` more than the bytes. -/
inductive Contained (fault : ReadFault → ε) (slack : Nat) (r : Reader) :
    List Span → Except ε α → Reader → Prop
  | granted {spans : List Span} {outcome : Except ε α} {t : Reader} (leads : Granted r spans t)
    (few : r.position + spans.length ≤ t.position + slack)
    (inRange : ∀ e, outcome = .error (fault e) → ¬ e.OutOfRange) :
    Contained fault slack r spans outcome t
  | refused {spans : List Span} {t : Reader} {count : Nat} (leads : Granted r spans t)
    (few : r.position + spans.length ≤ t.position + slack) (word : count < UInt32.size)
    (beyond : t.size < t.position + count) :
    Contained fault slack r (spans ++ [⟨t.position, count⟩])
      (.error (fault (.refused (.unexpectedEnd t.position)))) t

namespace Contained

variable {fault : ReadFault → ε} {slack : Nat} {r t : Reader} {spans : List Span}
  {outcome : Except ε α}

/-- The very first span reaches past the end. -/
theorem refused_first {count : Nat} (inside : r.position ≤ r.size) (word : count < UInt32.size)
    (beyond : r.size < r.position + count) : Contained fault slack r [⟨r.position, count⟩]
      (.error (fault (.refused (.unexpectedEnd r.position))) : Except ε α) r := by
  have few : r.position + ([] : List Span).length ≤ r.position + slack := Nat.le_add_right _ _
  exact .refused (.nil inside) few word beyond

theorem length_le (h : Contained fault 0 r spans outcome t) : spans.length ≤ r.remaining + 1 := by
  cases h with
  | granted leads few =>
    have inside := leads.within
    have sizes := leads.size_eq
    unfold Reader.remaining
    omega
  | refused leads few =>
    have inside := leads.within
    have sizes := leads.size_eq
    rw [List.length_append, List.length_singleton]
    unfold Reader.remaining
    omega

/-- No span ends beyond the offsets that there are. -/
theorem addressable (h : Contained fault slack r spans outcome t) (short : r.size < 2 ^ 63)
    {span : Span} (asked : span ∈ spans) : span.offset + span.count < addressSpace := by
  have words : 2 ^ 63 + UInt32.size ≤ addressSpace := by decide
  cases h with
  | granted leads =>
    have bound := leads.bound asked
    omega
  | @refused _ _ count leads _ word =>
    have inside := leads.within
    have sizes := leads.size_eq
    rcases List.mem_append.1 asked with asked | asked
    · have bound := leads.bound asked
      omega
    · obtain rfl := List.mem_singleton.1 asked
      show t.position + count < addressSpace
      omega

end Contained

/-! ### Reads that keep to the buffer -/

/-- The reader stands within its buffer, which holds fewer than `2 ^ 63` bytes. -/
def Reader.Placed (r : Reader) : Prop := r.position ≤ r.size ∧ r.size < 2 ^ 63

theorem Granted.placed {r t : Reader} {spans : List Span} (h : Granted r spans t) (placed : r.Placed) :
    t.Placed :=
  ⟨h.within, h.size_eq ▸ placed.2⟩

def ConfinedAt (fault : ReadFault → ε) (slack : Nat) (item : ExceptT ε (StateM Reader) α)
    (r : Reader) : Prop :=
  ∃ spans outcome t, Performs item r spans outcome t ∧ Contained fault slack r spans outcome t

/-- The read keeps to the buffer from every reader with fewer bytes left than the limit. -/
def Confined (fault : ReadFault → ε) (limit : Nat) (item : ExceptT ε (StateM Reader) α) : Prop :=
  ∀ r : Reader, r.Placed → r.remaining < limit → ConfinedAt fault 0 item r

section

variable {fault : ReadFault → ε} {limit slack : Nat} {item : ExceptT ε (StateM Reader) α}
  {f : α → ExceptT ε (StateM Reader) β} {r : Reader}

theorem confinedAt_pure (a : α) (placed : r.Placed) :
    ConfinedAt fault slack (pure a : ExceptT ε (StateM Reader) α) r :=
  ⟨[], .ok a, r, .pure a r, .granted (.nil placed.1) (Nat.le_add_right _ _) nofun⟩

theorem confinedAt_throw {e : ε} (inRange : ∀ cause, e = fault cause → ¬ cause.OutOfRange)
    (placed : r.Placed) : ConfinedAt fault slack (throw e : ExceptT ε (StateM Reader) α) r :=
  ⟨[], .error e, r, .throw e r, .granted (.nil placed.1) (Nat.le_add_right _ _)
    fun cause same => inRange cause (Except.error.inj same)⟩

theorem ConfinedAt.bind (first : ConfinedAt fault slack item r) (placed : r.Placed)
    (next : ∀ a t, item r = (.ok a, t) → t.Placed → t.remaining ≤ r.remaining →
      ConfinedAt fault 0 (f a) t) : ConfinedAt fault slack (item >>= f) r := by
  obtain ⟨spans, outcome, s, performs, contained⟩ := first
  cases contained with
  | refused leads few word beyond =>
    exact ⟨_, _, s, performs.stop, .refused leads (by omega) word beyond⟩
  | granted leads few inRange =>
    cases outcome with
    | error e =>
      refine ⟨spans, .error e, s, performs.stop, .granted leads (by omega) fun cause same => ?_⟩
      exact inRange cause (congrArg Except.error (Except.error.inj same))
    | ok a =>
      obtain ⟨others, outcome, t, performs', contained'⟩ :=
        next a s performs.run (leads.placed placed) leads.remaining_le
      refine ⟨spans ++ others, outcome, t, performs.next performs', ?_⟩
      cases contained' with
      | granted leads' few' inRange =>
        refine .granted (leads.append leads') ?_ inRange
        rw [List.length_append]
        omega
      | refused leads' few' word beyond =>
        rw [← List.append_assoc]
        refine .refused (leads.append leads') ?_ word beyond
        rw [List.length_append]
        omega

theorem confined_pure (a : α) : Confined fault limit (pure a : ExceptT ε (StateM Reader) α) :=
  fun _ placed _ => confinedAt_pure a placed

theorem Confined.bind (first : Confined fault limit item) (next : ∀ a, Confined fault limit (f a)) :
    Confined fault limit (item >>= f) :=
  fun r placed left => (first r placed left).bind placed fun a t _ placed' shorter =>
    next a t placed' (Nat.lt_of_le_of_lt shorter left)

theorem Confined.map {g : α → β} (h : Confined fault limit item) :
    Confined fault limit (do let a ← item; pure (g a)) :=
  h.bind fun a => confined_pure (g a)

/-- A reader that is looked at asks for nothing. -/
theorem confinedAt_reader {f : Reader → ExceptT ε (StateM Reader) β}
    (next : ConfinedAt fault slack (f r) r) : ConfinedAt fault slack (get >>= f) r := by
  obtain ⟨spans, outcome, t, performs, contained⟩ := next
  exact ⟨spans, outcome, t, (Performs.reader r).next performs, contained⟩

end

/-! ### Basic reads -/

section

variable {limit : Nat} {r : Reader}

theorem bytes_of_placed (placed : r.Placed) {count : Nat} (word : count < UInt32.size) :
    Read.bytes count r =
      if r.size < r.position + count then (.error (.refused (.unexpectedEnd r.position)), r)
      else (.ok (r.rest.take count), r.advance count) := by
  split
  case isTrue beyond =>
    obtain ⟨within, short⟩ := placed
    have words : 2 ^ 63 + UInt32.size ≤ r.offsetCount :=
      Nat.le_trans (by decide) (Nat.le_max_left addressSpace (r.size + 1))
    have reached : r.stop count = r.position + count := Nat.mod_eq_of_lt (by omega)
    unfold Read.bytes
    rw [bind_ok (reader_apply r), reached, if_pos beyond]
    rfl
  case isFalse enough => exact bytes_of_there (Nat.le_of_not_lt enough)

/-- A span of no bytes takes none, so that the slack has to allow for it. -/
theorem confinedAt_bytes (placed : r.Placed) {count slack : Nat} (word : count < UInt32.size)
    (allowed : 1 ≤ count + slack) : ConfinedAt id slack (Read.bytes count) r := by
  have performs := Performs.bytes count r
  rw [bytes_of_placed placed word] at performs
  split at performs
  case isTrue beyond =>
    exact ⟨_, _, _, performs, .refused_first placed.1 word beyond⟩
  case isFalse enough =>
    have within : r.position + count ≤ r.size := Nat.le_of_not_lt enough
    refine ⟨_, _, _, performs, .granted (.cons within (.nil within)) ?_ nofun⟩
    show r.position + 1 ≤ r.position + count + slack
    omega

theorem confined_bytes {count : Nat} (positive : 0 < count) (word : count < UInt32.size) :
    Confined id limit (Read.bytes count) :=
  fun _ placed _ => confinedAt_bytes placed word positive

theorem confined_u8 : Confined id limit Read.u8 :=
  (confined_bytes (by decide) (by decide)).map

theorem confined_u16 : Confined id limit Read.u16 :=
  (confined_bytes (by decide) (by decide)).map

theorem confined_u32 : Confined id limit Read.u32 :=
  (confined_bytes (by decide) (by decide)).map

theorem confined_i64 : Confined id limit Read.i64 :=
  (confined_bytes (by decide) (by decide)).map

theorem confined_bool : Confined id limit Read.bool :=
  confined_u8.map

/-- The bytes of a length leave room for an empty span after it. -/
theorem confined_length {α : Type} {f : UInt32 → Read α}
    (next : ∀ length s, s.Placed → ConfinedAt id 1 (f length) s) :
    Confined id limit (Read.u32 >>= f) := by
  intro r placed _
  have four : 4 < UInt32.size := by decide
  have performs := Performs.bytes 4 r
  rw [bytes_of_placed placed four] at performs
  split at performs
  case isTrue beyond =>
    have word : Performs Read.u32 r _ _ _ := performs.stop
    exact ⟨_, _, _, word.stop, .refused_first placed.1 four beyond⟩
  case isFalse enough =>
    have within : r.position + 4 ≤ r.size := Nat.le_of_not_lt enough
    have word : Performs Read.u32 r _ _ _ := performs.next (.pure _ _)
    obtain ⟨spans, outcome, t, performs', contained⟩ := next _ (r.advance 4) ⟨within, placed.2⟩
    refine ⟨⟨r.position, 4⟩ :: spans, outcome, t, word.next performs', ?_⟩
    cases contained with
    | granted leads few inRange =>
      refine .granted (.cons within leads) ?_ inRange
      change r.position + 4 + spans.length ≤ _ at few
      rw [List.length_cons]
      omega
    | refused leads few short beyond =>
      refine .refused (.cons within leads) ?_ short beyond
      change r.position + 4 + List.length _ ≤ _ at few
      rw [List.length_cons]
      omega

theorem confinedAt_refuse {α : Type} {slack : Nat} {cause : DecodeError}
    (inRange : ¬ (ReadFault.refused cause).OutOfRange) (placed : r.Placed) :
    ConfinedAt id slack (Read.refuse cause : Read α) r := by
  refine confinedAt_throw ?_ placed
  rintro _ rfl
  exact inRange

theorem confined_string : Confined id limit Read.string := by
  refine confined_length fun length s placed => confinedAt_reader ?_
  refine (confinedAt_bytes placed length.toNat_lt_size (Nat.le_add_left _ _)).bind placed
    fun bytes t _ placed' _ => ?_
  cases Text.ofUtf8? bytes with
  | some text => exact confinedAt_pure text placed'
  | none => exact confinedAt_refuse not_false placed'

variable {α : Type} {item : Read α}

theorem confined_optional (h : Confined id limit item) : Confined id limit (Read.optional item) := by
  refine confined_bool.bind fun present => ?_
  cases present with
  | true => exact h.map
  | false => exact confined_pure none

theorem confined_tag {role : TagRole} {meaning : UInt8 → Option α} :
    Confined id limit (Read.tag role meaning) := by
  intro r placed left
  refine confinedAt_reader ((confined_u8 r placed left).bind placed fun byte t _ placed' _ => ?_)
  cases meaning byte with
  | some value => exact confinedAt_pure value placed'
  | none => exact confinedAt_refuse not_false placed'

theorem confined_times (h : Confined id limit item) (count : Nat) :
    Confined id limit (Read.times item count) := by
  induction count with
  | zero => exact confined_pure []
  | succ count ih => exact h.bind fun _ => ih.map

theorem confined_list (h : Confined id limit item) : Confined id limit (Read.list item) :=
  confined_u32.bind fun count => confined_times h count.toNat

end

/-! ### Repeated reads -/

section

variable {α : Type} {item : Read α} {r s t : Reader}

/-- A number of reads, one after the other, that all succeed. -/
inductive Turns (item : Read α) : Nat → Reader → Reader → Prop
  | none {r : Reader} : Turns item 0 r r
  | one {k : Nat} {r s t : Reader} {a : α} : item r = (.ok a, s) → Turns item k s t →
    Turns item (k + 1) r t

/-- Whenever the read succeeds, it has taken bytes of the buffer. -/
def Shortens (item : Read α) : Prop :=
  ∀ (r t : Reader) (a : α), r.position ≤ r.size → item r = (.ok a, t) →
    t.position ≤ t.size ∧ t.remaining < r.remaining

theorem Accepted.length_written {value : α} {found written : List UInt8} {truths : List Bool}
    (h : Accepted item value found written truths) : written.length = found.length := by
  rw [h.normal, normalise, List.length_zipWith, h.size, Nat.min_self]

theorem Takes.shortens {post : α → List UInt8 → List Bool → Prop} (h : Takes item post)
    (some : ∀ value written truths, post value written truths → 0 < written.length) :
    Shortens item := by
  intro r t value within run
  obtain ⟨found, written, truths, faces, rfl, accepted, holds⟩ := h r t value within run
  have taken := some value written truths holds
  have bound := faces.bound
  rw [accepted.length_written] at taken
  refine ⟨bound, ?_⟩
  show r.size - (r.position + found.length) < r.size - r.position
  omega

theorem Keeps.shortens {write : α → List UInt8} {truths : α → List Bool} (h : Keeps item write truths)
    (some : ∀ a, 0 < (write a).length) : Shortens item := by
  refine Takes.shortens h ?_
  rintro value _ _ ⟨rfl, rfl⟩
  exact some value

end

end FluentWrappers.Binary
