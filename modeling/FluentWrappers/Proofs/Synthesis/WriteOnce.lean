import FluentWrappers.Proofs.Synthesis.Interleaving

/-!
# Each key is written once

Whatever the order in which the threads take their steps, a complete entry stays, all answers for its
key agree with it, and a failed attempt never comes to a type.
-/

namespace FluentWrappers.Synthesis

open World

variable {s s' later : World} {t u : Nat}

/-! ### The types in the list -/

section

variable {productions : List Attempt} {attempt : Attempt} {result : Option Completed}
  {done : Completed}

/-- What is listed is one more type or none. -/
theorem Turn.listing (step : Turn t s s') :
    s'.listed = s.listed ∧ s'.cache.types = s.cache.types ∨
      ∃ productions attempt type, s.threads t = ⟨attempt :: productions, .running⟩ ∧
        s'.threads t = ⟨productions, .completing attempt (some ⟨s.cache.types.length, type⟩)⟩ ∧
        s'.listed = s.listed ++ [(attempt, type)] ∧ s'.cache.types = s.cache.types ++ [type] := by
  cases step with
  | join key place old =>
    obtain ⟨-, rfl⟩ := Cache.claim_old old
    exact Or.inl ⟨rfl, rfl⟩
  | claim key place new =>
    obtain ⟨free, rfl, rfl⟩ := Cache.claim_new new
    rw [Cache.claim_free free]
    exact Or.inl ⟨rfl, rfl⟩
  | @record attempt productions type place =>
    cases type with
    | none => exact Or.inl ⟨List.append_nil _, List.append_nil _⟩
    | some type => exact Or.inr ⟨productions, attempt, type, place, self_goTo .., rfl, rfl⟩
  | _ => exact Or.inl ⟨rfl, rfl⟩

/-- Whoever has a type to complete has listed it with its latest step or before. -/
theorem Turn.completing (step : Turn t s s')
    (place : s'.threads u = ⟨productions, .completing attempt (some done)⟩) :
    s.threads u = ⟨productions, .completing attempt (some done)⟩ ∨
      s'.listed = s.listed ++ [(attempt, done.type)] ∧ done.serial = s.cache.types.length := by
  cases step with
  | record type before =>
    rcases threads_goTo place with ⟨-, same⟩ | ⟨-, earlier⟩
    · cases type with
      | none => cases same
      | some type =>
        cases same
        exact Or.inr ⟨rfl, rfl⟩
    · exact Or.inl earlier
  | cancel => exact Or.inl place
  | _ =>
    rcases threads_goTo place with ⟨-, same⟩ | ⟨-, earlier⟩
    · cases same
    · exact Or.inl earlier

/-- Its next step completes the slot. -/
theorem Turn.completed (step : Turn t s s') (consistent : s.Consistent)
    (place : s.threads u = ⟨productions, .completing attempt result⟩) :
    s'.threads u = ⟨productions, .completing attempt result⟩ ∨
      s'.cache.slots[attempt.slot]? = some (.complete result) := by
  by_cases other : u = t
  · subst other
    cases step with
    | complete before =>
      cases place.symm.trans before
      have bound := (consistent.at place).bound attempt List.mem_cons_self
      exact Or.inr (List.getElem?_set_self (consistent.tidy.within _ _ bound))
    | cancel => exact Or.inl place
    | claim _ before _ | join _ before _ | record _ before | unbind _ before | fail before
    | look before _ | timeout before _ => cases place.symm.trans before
  · exact Or.inl ((step.others other).trans place)

end

/-- The attempt has listed its type, and completes its slot with it next or has done so. -/
def World.Made (s : World) (attempt : Attempt) (done : Completed) : Prop :=
  s.cache.slots[attempt.slot]? = some (.complete (some done)) ∨
    ∃ t productions, s.threads t = ⟨productions, .completing attempt (some done)⟩

structure World.Listed (s : World) : Prop where
  types : s.cache.types = s.listed.map Prod.snd
  made : ∀ (serial : Nat) attempt type, s.listed[serial]? = some (attempt, type) →
    s.claims[attempt.slot]? = some attempt.key ∧ s.Made attempt ⟨serial, type⟩
  completing : ∀ t productions attempt done,
    s.threads t = ⟨productions, .completing attempt (some done)⟩ →
    s.listed[done.serial]? = some (attempt, done.type)
  complete : ∀ (slot : Nat) (done : Completed), s.cache.slots[slot]? = some (.complete (some done)) →
    ∃ key, s.listed[done.serial]? = some (⟨key, slot⟩, done.type)

section

variable {attempt : Attempt} {done : Completed}

theorem World.Made.bound (consistent : s.Consistent) (genuine : s.Genuine)
    (claimed : s.claims[attempt.slot]? = some attempt.key) (made : s.Made attempt done) :
    s.cache.slotOf? attempt.key = some attempt.slot := by
  rcases made with complete | ⟨t, productions, place⟩
  · exact genuine.complete _ _ _ claimed complete
  · exact (consistent.at place).bound attempt List.mem_cons_self

theorem Turn.made (step : Turn t s s') (consistent : s.Consistent) (made : s.Made attempt done) :
    s'.Made attempt done := by
  rcases made with complete | ⟨u, productions, place⟩
  · exact Or.inl ((step.spares consistent).state _ _ complete nofun)
  · rcases step.completed consistent place with place' | complete
    · exact Or.inr ⟨u, productions, place'⟩
    · exact Or.inl complete

/-- No other entry of the list is from the same slot. -/
theorem World.Made.unique {other : Attempt} {done' : Completed} (consistent : s.Consistent)
    (made : s.Made attempt done) (made' : s.Made other done') (same : attempt.slot = other.slot) :
    done = done' := by
  -- a thread that completes an attempt holds the slot in progress
  have progress {t : Nat} {productions : List Attempt} {attempt : Attempt} {done : Completed}
      (place : s.threads t = ⟨productions, .completing attempt (some done)⟩) :
      s.cache.slots[attempt.slot]? = some (.inProgress t) :=
    (consistent.at place).progress attempt List.mem_cons_self
  rcases made with complete | ⟨t, productions, place⟩ <;>
    rcases made' with complete' | ⟨u, productions', place'⟩
  · cases (same ▸ complete).symm.trans complete'
    rfl
  · cases (same ▸ complete).symm.trans (progress place')
  · cases (same ▸ progress place).symm.trans complete'
  · cases (same ▸ progress place).symm.trans (progress place')
    cases place.symm.trans place'
    rfl

end

theorem Turn.still_listed (step : Turn t s s') {serial : Nat} {entry : Attempt × SynthesizedType}
    (isThere : s.listed[serial]? = some entry) : s'.listed[serial]? = some entry := by
  rcases step.listing with ⟨same, -⟩ | ⟨_, _, _, -, -, grown, -⟩
  · rw [same]
    exact isThere
  · rw [grown]
    exact (List.getElem?_append_left (List.getElem?_eq_some_iff.1 isThere).1).trans isThere

theorem Turn.made_of_listed (step : Turn t s s') (consistent : s.Consistent) (genuine : s.Genuine)
    (listed : s.Listed) {serial : Nat} {attempt : Attempt} {type : SynthesizedType}
    (isThere : s'.listed[serial]? = some (attempt, type)) :
    s'.claims[attempt.slot]? = some attempt.key ∧ s'.Made attempt ⟨serial, type⟩ := by
  have old (before : s.listed[serial]? = some (attempt, type)) :
      s'.claims[attempt.slot]? = some attempt.key ∧ s'.Made attempt ⟨serial, type⟩ := by
    obtain ⟨claimed, made⟩ := listed.made serial attempt type before
    exact ⟨step.claimed claimed, step.made consistent made⟩
  rcases step.listing with ⟨same, -⟩ | ⟨productions, _, _, place, place', grown, -⟩
  · exact old (same ▸ isThere)
  · rw [grown, List.getElem?_append] at isThere
    split at isThere
    case isTrue => exact old isThere
    case isFalse =>
      obtain ⟨within, entry⟩ := List.getElem?_eq_some_iff.1 isThere
      cases (List.getElem_singleton within).symm.trans entry
      obtain rfl : serial = s.cache.types.length := by
        rw [List.length_singleton] at within
        rw [listed.types, List.length_map]
        omega
      have bound := (consistent.at place).bound attempt List.mem_cons_self
      exact ⟨step.claimed (genuine.bound _ _ bound), Or.inr ⟨t, productions, place'⟩⟩

theorem Turn.listed (step : Turn t s s') (consistent : s.Consistent) (genuine : s.Genuine)
    (listed : s.Listed) : s'.Listed := by
  refine ⟨?_, ?_, ?_, ?_⟩
  · rcases step.listing with ⟨same, same'⟩ | ⟨-, _, _, -, -, grown, grown'⟩
    · rw [same, same', listed.types]
    · rw [grown, grown', listed.types, List.map_append]
      rfl
  · intro serial attempt type isThere
    exact step.made_of_listed consistent genuine listed isThere
  · intro u productions attempt done place
    rcases step.completing place with before | ⟨grown, last⟩
    · exact step.still_listed (listed.completing u productions attempt done before)
    · rw [grown, last, listed.types, List.length_map]
      exact List.getElem?_concat_length
  · intro slot done complete
    rcases step.completion consistent complete with before | ⟨productions, attempt, place, rfl, -⟩
    · obtain ⟨key, isThere⟩ := listed.complete slot done before
      exact ⟨key, step.still_listed isThere⟩
    · exact ⟨attempt.key, step.still_listed (listed.completing t productions attempt done place)⟩

/-! ### The answers given -/

/-- What a thread is told that requests a key of its own. -/
def Cache.reentered (key : CacheKey) : Answer := .failed (.dependencyFailed key.text reentryReason)

/-- Who was given an outcome finds it at the slot. -/
def World.Answered (s : World) : Prop :=
  ∀ attempt result, (attempt, Answer.found result) ∈ s.answers →
    s.claims[attempt.slot]? = some attempt.key ∧
      s.cache.slots[attempt.slot]? = some (.complete result)

theorem Turn.answered (step : Turn t s s') (consistent : s.Consistent) (genuine : s.Genuine)
    (answered : s.Answered) : s'.Answered := by
  intro attempt result given
  have old (given : (attempt, Answer.found result) ∈ s.answers) :
      s'.claims[attempt.slot]? = some attempt.key ∧
        s'.cache.slots[attempt.slot]? = some (.complete result) := by
    obtain ⟨claimed, complete⟩ := answered attempt result given
    exact ⟨step.claimed claimed, (step.spares consistent).state _ _ complete nofun⟩
  cases step with
  | complete place =>
    rcases List.mem_append.1 given with before | new
    · exact old before
    · cases List.mem_singleton.1 new
      have bound := (consistent.at place).bound attempt List.mem_cons_self
      exact ⟨genuine.bound _ _ bound, List.getElem?_set_self (consistent.tidy.within _ _ bound)⟩
  | look place seen =>
    rcases List.mem_append.1 given with before | new
    · exact old before
    · cases List.mem_singleton.1 new
      exact ⟨genuine.waiting _ _ _ place, Cache.look_found seen⟩
  | @fail _ _ failure place =>
    rcases List.mem_append.1 given with before | new
    · exact old before
    · cases failure <;> cases List.mem_singleton.1 new
  | timeout place seen =>
    rcases List.mem_append.1 given with before | new
    · exact old before
    · cases List.mem_singleton.1 new
  | _ => exact old given

/-! ### Every order of the steps -/

structure World.Invariant (s : World) : Prop where
  consistent : s.Consistent
  genuine : s.Genuine
  listed : s.Listed
  answered : s.Answered

theorem invariant_start (timeout : UInt64) : (World.start timeout).Invariant := by
  refine ⟨⟨Cache.tidy_empty timeout, fun t => ?holds⟩, ?genuine, ?listed, fun _ _ => nofun⟩
  case holds => exact ⟨nofun, List.nodup_nil, nofun, nofun⟩
  case genuine =>
    refine ⟨rfl, ?_, ?_, ?_, nofun⟩
    · intro key slot bound
      cases bound
    · intro key slot result claimed
      cases claimed
    · intro t productions attempt place
      cases place
  case listed =>
    refine ⟨rfl, ?_, ?_, ?_⟩
    · intro serial attempt type isThere
      cases isThere
    · intro t productions attempt done place
      cases place
    · intro slot done complete
      cases complete

theorem Turn.invariant (step : Turn t s s') (invariant : s.Invariant) : s'.Invariant := by
  obtain ⟨consistent, genuine, listed, answered⟩ := invariant
  exact ⟨step.consistent consistent, step.genuine consistent genuine,
    step.listed consistent genuine listed, step.answered consistent genuine answered⟩

theorem Reaches.invariant (reached : Reaches s later) (invariant : s.Invariant) :
    later.Invariant := by
  induction reached with
  | refl => exact invariant
  | tail _ step ih =>
    obtain ⟨t, step⟩ := step
    exact step.invariant ih

/-- A complete entry stays where it is and what it is. -/
theorem Reaches.complete (reached : Reaches s later) (invariant : s.Invariant) {key : CacheKey}
    {slot : Nat} {result : Option Completed} (bound : s.cache.slotOf? key = some slot)
    (complete : s.cache.slots[slot]? = some (.complete result)) :
    later.cache.slotOf? key = some slot ∧
      later.cache.slots[slot]? = some (.complete result) := by
  induction reached with
  | refl => exact ⟨bound, complete⟩
  | tail reached step ih =>
    obtain ⟨t, step⟩ := step
    have spares := step.spares (Reaches.invariant reached invariant).consistent
    exact ⟨spares.binding _ _ _ ih.1 ih.2 nofun, spares.state _ _ ih.2 nofun⟩

theorem Reaches.released (reached : Reaches s later) : s.released ⊆ later.released := by
  induction reached with
  | refl => exact List.Subset.refl _
  | tail _ step ih =>
    obtain ⟨t, step⟩ := step
    refine List.Subset.trans ih ?_
    cases step with
    | unbind failure place => exact List.subset_append_left ..
    | _ => exact List.Subset.refl _

namespace World.Invariant

/-- A key has one producer at most, on whichever thread and however deep in its productions. -/
theorem producer (invariant : s.Invariant) {i j : Nat} {a b : Attempt}
    (runs : (s.threads t).productions[i]? = some a)
    (runs' : (s.threads u).productions[j]? = some b) (same : a.key = b.key) : t = u ∧ i = j := by
  have holds := invariant.consistent.holds
  have claimed := Thread.productions_subset _ (List.mem_of_getElem? runs)
  have claimed' := Thread.productions_subset _ (List.mem_of_getElem? runs')
  have slots : a.slot = b.slot := by
    have bound := (holds t).bound a claimed
    have bound' := (holds u).bound b claimed'
    exact Option.some.inj ((same ▸ bound).symm.trans bound')
  have owner : t = u := by
    have progress := (holds t).progress a (Thread.claimed_subset _ claimed)
    have progress' := (holds u).progress b (Thread.claimed_subset _ claimed')
    cases (slots ▸ progress).symm.trans progress'
    rfl
  subst owner
  refine ⟨rfl, ?_⟩
  have apart := (holds t).apart.sublist ((Thread.productions_sublist _).map Attempt.slot)
  have within := (List.getElem?_eq_some_iff.1 runs).1
  refine (List.getElem?_inj (List.length_map Attempt.slot ▸ within) apart).1 ?_
  rw [List.getElem?_map, List.getElem?_map, runs, runs']
  exact congrArg some slots

theorem answer (invariant : s.Invariant) {a : Attempt} {result : Option Completed}
    (given : (a, .found result) ∈ s.answers) :
    s.cache.slotOf? a.key = some a.slot ∧ s.cache.slots[a.slot]? = some (.complete result) := by
  obtain ⟨claimed, complete⟩ := invariant.answered a result given
  exact ⟨invariant.genuine.complete _ _ _ claimed complete, complete⟩

theorem returned (invariant : s.Invariant) {a : Attempt} {done : Completed}
    (given : (a, .found (some done)) ∈ s.answers) :
    s.listed[done.serial]? = some (a, done.type) := by
  obtain ⟨claimed, complete⟩ := invariant.answered a _ given
  obtain ⟨key, isThere⟩ := invariant.listed.complete _ done complete
  obtain ⟨claimed', -⟩ := invariant.listed.made _ _ _ isThere
  cases claimed.symm.trans claimed'
  exact isThere

theorem bound_of_listed (invariant : s.Invariant) {serial : Nat} {a : Attempt}
    {type : SynthesizedType} (isThere : s.listed[serial]? = some (a, type)) :
    s.cache.slotOf? a.key = some a.slot := by
  obtain ⟨claimed, made⟩ := invariant.listed.made _ _ _ isThere
  exact made.bound invariant.consistent invariant.genuine claimed

theorem keys (invariant : s.Invariant) : (s.listed.map fun entry => entry.1.key).Nodup := by
  rw [List.Nodup, List.pairwise_map, List.pairwise_iff_getElem]
  intro i j within within' earlier same
  have isThere := List.getElem?_eq_getElem within
  have isThere' := List.getElem?_eq_getElem within'
  have bound := invariant.bound_of_listed isThere
  have bound' := invariant.bound_of_listed isThere'
  have slots := Option.some.inj ((same ▸ bound).symm.trans bound')
  have made := (invariant.listed.made _ _ _ isThere).2
  have made' := (invariant.listed.made _ _ _ isThere').2
  have serials := congrArg Completed.serial (made.unique invariant.consistent made' slots)
  exact Nat.ne_of_lt earlier serials

theorem unreleased (invariant : s.Invariant) {a : Attempt} {type : SynthesizedType}
    (isIn : (a, type) ∈ s.listed) : a ∉ s.released := by
  intro released
  obtain ⟨serial, isThere⟩ := List.getElem?_of_mem isIn
  have later := (invariant.genuine.released a released).2
  exact Nat.lt_irrefl _ (later a.slot (invariant.bound_of_listed isThere))

theorem released (invariant : s.Invariant) {a : Attempt} (released : a ∈ s.released) :
    (s.cache.slotOf? a.key = none ∨ ∃ slot, s.cache.slotOf? a.key = some slot ∧ a.slot < slot) ∧
      ∀ result, (a, .found result) ∉ s.answers := by
  have later := (invariant.genuine.released a released).2
  refine ⟨?_, ?_⟩
  · cases bound : s.cache.slotOf? a.key with
    | none => exact Or.inl rfl
    | some slot => exact Or.inr ⟨slot, rfl, later slot bound⟩
  · intro result given
    exact Nat.lt_irrefl _ (later a.slot (invariant.answer given).1)

/-- A running thread that requests a key of its own finds its own slot. -/
theorem own (invariant : s.Invariant) {productions : List Attempt} {a : Attempt}
    (place : s.threads t = ⟨productions, .running⟩) (runs : a ∈ productions) :
    s.cache.claim t a.key = (s.cache, a.slot, false) :=
  Cache.claim_bound ((invariant.consistent.at place).bound a runs)

theorem look_own (invariant : s.Invariant) {productions : List Attempt} {waits a : Attempt}
    (place : s.threads t = ⟨productions, .waiting waits⟩) (runs : a ∈ productions)
    (same : a.key = waits.key) :
    s.cache.look t waits.key waits.slot = .answer (Cache.reentered waits.key) := by
  have holds := invariant.consistent.at place
  have progress := holds.progress a runs
  rw [holds.own waits rfl a runs same] at progress
  unfold Cache.look
  rw [progress]
  exact if_pos rfl

/-- So it does not wait: it is told at its next step, whether others are waited for or not. -/
theorem reentry (invariant : s.Invariant) {productions : List Attempt} {waits a : Attempt}
    (place : s.threads t = ⟨productions, .waiting waits⟩) (runs : a ∈ productions)
    (same : a.key = waits.key) (step : Turn t s s') :
    s'.threads t = s.threads t ∨ s' = s.give t productions waits (Cache.reentered waits.key) := by
  have seen := invariant.look_own place runs same
  cases step with
  | look before seen' =>
    cases place.symm.trans before
    cases seen.symm.trans seen'
    exact Or.inr rfl
  | timeout before seen' =>
    cases place.symm.trans before
    cases seen.symm.trans seen'
  | cancel => exact Or.inl rfl
  | claim _ before _ | join _ before _ | record _ before | complete before | unbind _ before
  | fail before => cases place.symm.trans before

end World.Invariant

/-- What writing each key once means for a world and its history. -/
structure World.WriteOnce (s : World) : Prop where
  /-- One producer at most runs for a key, on whichever thread and however deep. -/
  producer : ∀ t u (i j : Nat) a b, (s.threads t).productions[i]? = some a →
    (s.threads u).productions[j]? = some b → a.key = b.key → t = u ∧ i = j
  /-- Who was given an outcome, producer or waiter, was given that of the complete entry. -/
  answer : ∀ a result, (a, .found result) ∈ s.answers →
    s.cache.slotOf? a.key = some a.slot ∧ s.cache.slots[a.slot]? = some (.complete result)
  /-- The list holds the types of the attempts that made them, -/
  types : s.cache.types = s.listed.map Prod.snd
  /-- one for a key, -/
  keys : (s.listed.map fun entry => entry.1.key).Nodup
  /-- none of an attempt that failed, -/
  unreleased : ∀ a type, (a, type) ∈ s.listed → a ∉ s.released
  /-- and every type that was given as an answer, under the attempt that it answers. -/
  returned : ∀ a done, (a, .found (some done)) ∈ s.answers →
    s.listed[done.serial]? = some (a, done.type)
  /-- The key of a failed attempt is free or was claimed anew, and nobody has an outcome of it. -/
  released : ∀ a ∈ s.released,
    (s.cache.slotOf? a.key = none ∨ ∃ slot, s.cache.slotOf? a.key = some slot ∧ a.slot < slot) ∧
      ∀ result, (a, .found result) ∉ s.answers
  /-- A thread that requests a key it makes finds its own slot, -/
  own : ∀ t productions a, s.threads t = ⟨productions, .running⟩ → a ∈ productions →
    s.cache.claim t a.key = (s.cache, a.slot, false)
  /-- where it is told so and does not wait. -/
  reentry : ∀ t productions waits a, s.threads t = ⟨productions, .waiting waits⟩ →
    a ∈ productions → a.key = waits.key →
    s.cache.look t waits.key waits.slot = .answer (Cache.reentered waits.key) ∧
      ∀ s', Turn t s s' →
        s'.threads t = s.threads t ∨ s' = s.give t productions waits (Cache.reentered waits.key)

theorem World.Invariant.writeOnce (invariant : s.Invariant) : s.WriteOnce where
  producer _ _ _ _ _ _ runs runs' same := invariant.producer runs runs' same
  answer _ _ given := invariant.answer given
  types := invariant.listed.types
  keys := invariant.keys
  unreleased _ _ isIn := invariant.unreleased isIn
  returned _ _ given := invariant.returned given
  released _ isIn := invariant.released isIn
  own _ _ _ place runs := invariant.own place runs
  reentry _ _ _ _ place runs same :=
    ⟨invariant.look_own place runs same, fun _ step => invariant.reentry place runs same step⟩

/-- Whatever the threads do and in whichever order, each key is written once: what is complete at some
time is so at all later times, in its slot and with its value, and who waited for an attempt that has
failed never has an outcome of it. The steps are those of requests: each request that a thread makes
without others, with requests of its producer to any depth, is a run of them. -/
theorem writeOnce_of_reaches {timeout : UInt64} (before : Reaches (World.start timeout) s)
    (after : Reaches s later) :
    later.WriteOnce ∧
      (∀ key (slot : Nat) (result : Option Completed), s.cache.slotOf? key = some slot →
        s.cache.slots[slot]? = some (.complete result) →
        later.cache.slotOf? key = some slot ∧
          later.cache.slots[slot]? = some (.complete result)) ∧
      (∀ a ∈ s.released, ∀ result, (a, .found result) ∉ later.answers) ∧
      later.Serves := by
  have invariant := Reaches.invariant before (invariant_start timeout)
  have writeOnce := (Reaches.invariant after invariant).writeOnce
  refine ⟨writeOnce, ?_, ?_, serves later⟩
  · intro key slot result bound complete
    exact Reaches.complete after invariant bound complete
  · intro a isReleased
    exact (writeOnce.released a (Reaches.released after isReleased)).2

/-- A third thread makes the type anew while the first is still at failing, and the second, which
waited for the first, learns of the failure before it is given the type. Then the third requests another
key, whose producer requests the type once more. -/
theorem writeOnce_of_reaches_retry :
    ∃ key other s later last, Reaches (World.start 30) s ∧ Reaches s later ∧ Reaches later last ∧
      s.released = [⟨key, 0⟩] ∧
      later.answers.map Prod.fst = [⟨key, 0⟩, ⟨key, 0⟩, ⟨key, 1⟩, ⟨key, 1⟩] ∧
      later.WriteOnce ∧ later.cache.slotOf? key = some 1 ∧
      ∃ slot, (⟨other, slot⟩, .found none) ∈ last.answers := by
  let key : CacheKey := ⟨.interface, "Acme.IPoint"⟩
  let other : CacheKey := ⟨.proxy, "Acme.PointProxy"⟩
  let type : SynthesizedType :=
    { name := ⟨"Acme", "IPoint"⟩
      kind := .interface
      source := ⟨"Acme", "Point"⟩ }
  have claimed : Reaches (World.start 30) _ := .single ⟨0, .claim key rfl rfl⟩
  have joined := claimed.tail ⟨1, .join key rfl rfl⟩
  have freed := joined.tail ⟨0, .unbind .unwound rfl⟩
  have claimedAnew := freed.tail ⟨2, .claim key rfl rfl⟩
  have failed := claimedAnew.tail ⟨0, .fail rfl⟩
  have told := failed.tail ⟨1, .look rfl rfl⟩
  have listed := told.tail ⟨2, .record (some type) rfl⟩
  have joinedAnew := listed.tail ⟨1, .join key rfl rfl⟩
  have completed := joinedAnew.tail ⟨2, .complete rfl⟩
  have found := writeOnce_of_reaches completed (.single ⟨1, .look rfl rfl⟩)
  have nested (attempt : Attempt) : RunsBySteps 2 [attempt]
      (Cache.getOrCreate 2 key (pure .unwound) >>= fun _ => pure (Outcome.produced none)) :=
    .bind (.request key fun inner => .pure 2 [inner, attempt] _) fun _ => .pure 2 [attempt] _
  obtain ⟨last, slot, ran, -, -, given⟩ := found.2.2.2 2 [] other _ rfl nested
  refine ⟨key, other, _, _, last, completed, .single ⟨1, .look rfl rfl⟩, ran, rfl, rfl, found.1, ?_, ?_⟩
  · exact (found.2.1 key 1 _ rfl rfl).1
  · exact ⟨slot, given⟩

end FluentWrappers.Synthesis
