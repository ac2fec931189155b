import FluentWrappers.Proofs.Synthesis.Success

/-!
# Requests to a session

A session serves requests one after the other. What a request makes is known beforehand, and so is
whether it succeeds, as long as nothing was left behind by failures. So the order of requests that
all succeed does not matter.
-/

namespace FluentWrappers.Synthesis

open Fallible

/-! ### Between requests -/

section

variable {s : Synthesizer} {old : CacheKey → Prop} {p : Progress} {u v : SourceType}
  {key : CacheKey} {kind : ProductKind}

theorem Lawful.has_of_bound (lawful : Lawful s old p) (apart : s.Apart) (idle : p.scope = [])
    (known : s.catalog.Known u) {type : SynthesizedType} (made : s.product u kind = some type)
    (bound : p.Bound (s.keyOf kind u)) : p.Has (s.keyOf kind u) type := by
  obtain ⟨result, complete, product⟩ := lawful.complete apart known bound (idle ▸ List.not_mem_nil)
  have isType := product.eq_product.trans made
  cases result with
  | none => cases isType
  | some c =>
    obtain rfl := Option.some.inj isType
    exact ⟨c.serial, complete⟩

/-- The source type is known and, if foreign, has members; all keys for it are bound. -/
structure Served (s : Synthesizer) (p : Progress) (u : SourceType) : Prop where
  known : s.catalog.Known u
  members : u.Foreign → s.hasMembers u = true
  bound : ∀ key ∈ s.mentionKeys u, p.Bound key

theorem Supplied.served (supplied : Supplied s p u) (needs : s.Needs u v) : Served s p v :=
  ⟨needs.known, needs.hasMembers, supplied.2 v needs⟩

theorem Lawful.made_of_served (lawful : Lawful s old p) (apart : s.Apart) (idle : p.scope = [])
    (served : Served s p u) (isKey : key ∈ s.mentionKeys u) : p.Made key := by
  have bound := served.bound key isKey
  rcases Synthesizer.of_mem_mentionKeys isKey with ⟨rfl, underlying, literals, isEnum⟩ | ⟨foreign, isKey⟩
  · have made := s.product_enumClone isEnum
    exact ⟨_, lawful.has_of_bound apart idle served.known made bound⟩
  · obtain ⟨kind, isKind, rfl⟩ := mem_memberKeys_iff.1 isKey
    obtain ⟨type, made⟩ := Synthesizer.product_eq_some (served.members foreign)
      isKind.ne_enumClone fun same => absurd same isKind.ne_fluent
    exact ⟨type, lawful.has_of_bound apart idle served.known made bound⟩

theorem Lawful.interface_of_served (lawful : Lawful s old p) (apart : s.Apart)
    (idle : p.scope = []) (served : Served s p u) (foreign : u.Foreign) :
    p.Made (s.interfaceKey u) :=
  lawful.made_of_served apart idle served (s.interfaceKey_mem_mentionKeys foreign)

theorem Served.of_looks {good : SourceType → Prop}
    (supplied : ∀ v, good v → v.Foreign → Served s p v → Supplied s p v)
    (heir : ∀ u v, good u → s.Needs u v → v.Foreign → good v) (served : Served s p u)
    (isGood : u.Foreign → good u) (path : Relation.ReflTransGen s.Looks u v) :
    Served s p v ∧ (v.Foreign → good v) := by
  induction path with
  | refl => exact ⟨served, isGood⟩
  | tail _ looks ih =>
    obtain ⟨foreign, needs⟩ := looks
    have isGood := ih.2 foreign
    exact ⟨(supplied _ isGood foreign ih.1).served needs, heir _ _ isGood needs⟩

theorem Whole.supplied (whole : Whole s noKey p) (lawful : Lawful s noKey p) (apart : s.Apart)
    (idle : p.scope = []) (served : Served s p u) (foreign : u.Foreign) : Supplied s p u :=
  whole u _ served.known List.mem_cons_self (lawful.interface_of_served apart idle served foreign) id

theorem Whole.served_of_looks (whole : Whole s noKey p) (lawful : Lawful s noKey p)
    (apart : s.Apart) (idle : p.scope = []) (served : Served s p u)
    (path : Relation.ReflTransGen s.Looks u v) : Served s p v :=
  (served.of_looks (fun _ _ foreign served => whole.supplied lawful apart idle served foreign)
    (fun _ _ _ _ _ => trivial) (fun _ => trivial) path).1

theorem Whole.made_of_asks (whole : Whole s noKey p) (lawful : Lawful s noKey p) (apart : s.Apart)
    (idle : p.scope = []) (served : Served s p u) (asks : s.Asks u key) : p.Made key := by
  obtain ⟨v, path, isKey⟩ := asks
  have reached := whole.served_of_looks lawful apart idle served path
  exact lawful.made_of_served apart idle reached isKey

/-- Where something stands for all members, all that they mention is looked into. -/
theorem needs_of_mention (dereferences : s.options.dereference = true)
    (images : ∀ m, s.catalog.EligibleMember u m → s.image? m.type ≠ none) {m : Member}
    (eligible : s.catalog.EligibleMember u m) {name : TypeName} (isMention : name ∈ m.type.mentions)
    (isName : s.catalog.get? name = some v) : s.Needs u v := by
  obtain ⟨members, found, isIn⟩ := eligible
  refine ⟨name, ?_, isName⟩
  rw [Synthesizer.memberNeeds_eq found dereferences, List.mem_flatMap]
  refine ⟨m, isIn, ?_⟩
  rw [Synthesizer.needs_eq_mentions m.type (images m ⟨members, found, isIn⟩)]
  exact isMention

theorem needs_of_refers (dereferences : s.options.dereference = true)
    (images : ∀ m, s.catalog.EligibleMember u m → s.image? m.type ≠ none)
    (refers : s.catalog.Refers u v) : s.Needs u v := by
  obtain ⟨-, m, eligible, name, isMention, isName⟩ := refers
  exact needs_of_mention dereferences images eligible isMention isName

/-- Where failures end everything, all types that a supplied one reaches in whole progress are
supplied too. -/
theorem Whole.supplied_of_path (whole : Whole s old p) (lawful : Lawful s old p) (apart : s.Apart)
    (idle : p.scope = []) (strict : s.Strict) (start : Supplied s p u)
    (path : Relation.ReflTransGen (s.RefersAnew old) u v) : Supplied s p v := by
  induction path with
  | refl => exact start
  | tail _ refers ih =>
    -- the key that is not old was bound for a mention in a supplied type, so it is made and whole
    obtain ⟨refers, key, isKey, fresh⟩ := refers
    have served := ih.served (needs_of_refers strict.1 (ih.1 strict) refers)
    have made := lawful.made_of_served apart idle served isKey
    rcases Synthesizer.of_mem_mentionKeys isKey with ⟨-, underlying, literals, isEnum⟩ | ⟨-, isKey⟩
    · exact absurd isEnum (refers.1.2 underlying literals)
    · exact whole _ key served.known isKey made fresh

theorem Whole.clean (whole : Whole s old p) (lawful : Lawful s old p) (apart : s.Apart)
    (idle : p.scope = []) (strict : s.Strict) (start : Supplied s p u) : s.Clean old u := by
  intro t m path bad
  have ofType := whole.supplied_of_path lawful apart idle strict start path
  exact ofType.1 strict m bad.1 ((s.image?_eq_none_iff m.type).2 bad.2)

theorem refersAnew_noKey {t u : SourceType} : s.RefersAnew noKey t u ↔ s.catalog.Refers t u :=
  and_iff_left_of_imp fun refers => ⟨_, s.interfaceKey_mem_mentionKeys refers.1, id⟩

theorem clean_noKey : s.Clean noKey u ↔ ∀ t m, s.catalog.Reaches u t → ¬ s.catalog.BadMember t m := by
  have same : s.RefersAnew noKey = s.catalog.Refers := by
    funext t u
    exact propext refersAnew_noKey
  unfold Synthesizer.Clean SourceCatalog.Reaches
  rw [same]

end

/-! ### Single requests -/

inductive Request where
  | synthesize (source : SourceType)
  | dereference (type : TypeRef)

inductive Response where
  | synthesized (result : Except SynthesisError (Option Wrappers))
  | dereferenced (result : Except SynthesisError TypeRef)

def Response.Succeeds : Response → Prop
  | .synthesized result => ∃ made, result = .ok made
  | .dereferenced result => ∃ type, result = .ok type

instance : DecidablePred Response.Succeeds
  | .synthesized (.ok made) => isTrue ⟨made, rfl⟩
  | .dereferenced (.ok type) => isTrue ⟨type, rfl⟩
  | .synthesized (.error _) => isFalse fun ⟨_, same⟩ => by cases same
  | .dereferenced (.error _) => isFalse fun ⟨_, same⟩ => by cases same

namespace Synthesizer

def answer (s : Synthesizer) (session : Session) : Request → Response × Session
  | .synthesize source =>
    let (result, session) := run session (s.synthesize source)
    (.synthesized result, session)
  | .dereference type =>
    let (result, session) := run session (s.dereference type)
    (.dereferenced result, session)

/-- The responses to requests in order, and the session after them. -/
def serve (s : Synthesizer) (session : Session) : List Request → List Response × Session
  | [] => ([], session)
  | request :: rest =>
    let (response, session) := s.answer session request
    let (responses, session) := s.serve session rest
    (response :: responses, session)

/-- A source type that is asked for is the one in the catalog. -/
def Admits (s : Synthesizer) : Request → Prop
  | .synthesize source => s.catalog.Known source
  | .dereference _ => True

/-- The request succeeds in a session without leftovers. -/
def Grants (s : Synthesizer) : Request → Prop
  | .synthesize source => s.Ready noKey source
  | .dereference type => s.image? type ≠ none ∧ ¬ s.Harmed noKey type.mentions

/-- The request asks for the key. -/
def Orders (s : Synthesizer) : Request → CacheKey → Prop
  | .synthesize source => s.Makes source
  | .dereference type => s.AsksAny (s.needs type)

variable {s : Synthesizer} {old : CacheKey → Prop} {session session' : Session} {root : SourceType}
  {key : CacheKey} {type : TypeRef}

section

variable {α : Type} {search : Synth α} {result : Except SynthesisError α}

theorem run_eq (ran : run session search = (result, session')) :
    ∃ scope, search ⟨session, []⟩ = (result, ⟨session', scope⟩) := by
  rcases ended : search ⟨session, []⟩ with ⟨result', ⟨session'', scope⟩⟩
  have same : (result', session'') = (result, session') := by
    rw [← ran]
    unfold run
    rw [ended]
  cases same
  exact ⟨scope, rfl⟩

/-- A run of a request ends with nothing in progress. -/
theorem ends_run {post : α → Progress → Prop} {failed : SynthesisError → Progress → Prop}
    (ends : Ends search ⟨session, []⟩ post failed)
    (scopes : ∀ a q, post a q → q.scope = []) (scopes' : ∀ e q, failed e q → q.scope = [])
    (ran : run session search = (result, session')) :
    (∀ a, result = .ok a → post a ⟨session', []⟩) ∧
      ∀ e, result = .error e → failed e ⟨session', []⟩ := by
  obtain ⟨scope, ended⟩ := run_eq ran
  constructor
  · rintro a rfl
    have found := ends.result ended
    obtain rfl : scope = [] := scopes a _ found
    exact found
  · rintro e rfl
    have fault := ends.fault ended
    obtain rfl : scope = [] := scopes' e _ fault
    exact fault

end

/-- The wrappers of a source type with the members as the table has them, or nothing for a type without
members; a failure is one that the state of the catalog brings about. -/
theorem run_synthesize (apart : s.Apart) (known : s.catalog.Known root)
    (lawful : Lawful s old ⟨session, []⟩) {result : Except SynthesisError (Option Wrappers)}
    (ran : run session (s.synthesize root) = (result, session')) :
    Step s old (s.Makes root) ⟨session, []⟩ ⟨session', []⟩ ∧
      (∀ made, result = .ok made → (Whole s old ⟨session, []⟩ → Whole s old ⟨session', []⟩) ∧
        (made = none ∧ s.catalog.extract root = .ok [] ∨
          made = some (s.wrappersOf root) ∧ s.hasMembers root = true ∧ ¬ s.Clashes root ∧
            ∀ key, s.IsWrapperKey root key → Progress.Bound ⟨session', []⟩ key)) ∧
      (∀ e, result = .error e → ¬ s.Ready old root) := by
  obtain ⟨results, faults⟩ := ends_run (ends_synthesize apart known lawful rfl)
    (fun _ _ h => h.1.scope) (fun _ _ h => h.1.scope) ran
  refine ⟨?_, fun made isOk => (results made isOk).2, fun e isError => (faults e isError).2.2⟩
  cases result with
  | ok made => exact (results made rfl).1
  | error e => exact (faults e rfl).1

theorem run_dereference (apart : s.Apart) (lawful : Lawful s old ⟨session, []⟩)
    {result : Except SynthesisError TypeRef}
    (ran : run session (s.dereference type) = (result, session')) :
    Step s old (s.AsksAny (s.needs type)) ⟨session, []⟩ ⟨session', []⟩ ∧
      (∀ t, result = .ok t → (Whole s old ⟨session, []⟩ → Whole s old ⟨session', []⟩) ∧
        s.image? type = some t ∧ s.Binds ⟨session', []⟩ (s.needs type)) ∧
      (∀ e, result = .error e → s.image? type = none ∨ s.Harmed old type.mentions) := by
  have room : Room s s.nestingBound ⟨session, []⟩ := room_of_idle rfl le_rfl
  obtain ⟨results, faults⟩ := ends_run (finds_dereference apart type _ lawful room)
    (fun _ _ h => h.1.scope) (fun _ _ h => h.1.scope) ran
  refine ⟨?_, fun t isOk => (results t isOk).2, fun e isError => (faults e isError).2.2.1⟩
  cases result with
  | ok t => exact (results t rfl).1
  | error e => exact (faults e rfl).1

/-- Whatever it is and however it ends, a request makes only what it asks for. -/
theorem answer_step (apart : s.Apart) {request : Request} (admits : s.Admits request)
    (lawful : Lawful s old ⟨session, []⟩) :
    Step s old (s.Orders request) ⟨session, []⟩ ⟨(s.answer session request).2, []⟩ := by
  cases request with
  | synthesize root => exact (run_synthesize apart admits lawful rfl).1
  | dereference type => exact (run_dereference apart lawful rfl).1

section

theorem answer_of_grants (apart : s.Apart) {request : Request} (admits : s.Admits request)
    (grants : s.Grants request) (lawful : Lawful s noKey ⟨session, []⟩) :
    (s.answer session request).1.Succeeds := by
  cases request with
  | synthesize root =>
    have faults := (run_synthesize apart admits lawful rfl).2.2
    cases result : (run session (s.synthesize root)).1 with
    | ok made => exact ⟨made, result⟩
    | error e => exact absurd grants (faults e result)
  | dereference type =>
    cases result : (run session (s.dereference type)).1 with
    | ok t => exact ⟨t, result⟩
    | error e =>
      have faults := (run_dereference apart lawful (Prod.ext result rfl)).2.2
      exact ((faults e rfl).elim grants.1 grants.2).elim

end

/-! ### Successful requests -/

theorem made_of_isWrapperKey {p : Progress} (apart : s.Apart) (known : s.catalog.Known root)
    (lawful : Lawful s old p) (idle : p.scope = []) (some : s.hasMembers root = true)
    (distinct : ¬ s.Clashes root) (isKey : s.IsWrapperKey root key) (bound : p.Bound key) :
    p.Made key := by
  rcases isKey with rfl | rfl | rfl
  · exact ⟨_, lawful.has_of_bound apart idle known (product_interface some) bound⟩
  · exact ⟨_, lawful.has_of_bound apart idle known (product_proxy some) bound⟩
  · exact ⟨_, lawful.has_of_bound apart idle known (product_fluent some distinct) bound⟩

section

variable (apart : s.Apart) (lawful : Lawful s old ⟨session, []⟩)
  (whole : Whole s old ⟨session, []⟩)

include apart lawful whole

/-- In a whole session only what is ready succeeds, and then the source type is supplied unless its
interface and proxy are old. -/
theorem ready_of_synthesize (known : s.catalog.Known root) {made : Option Wrappers}
    (ran : run session (s.synthesize root) = (.ok made, session')) :
    Lawful s old ⟨session', []⟩ ∧ Whole s old ⟨session', []⟩ ∧ s.Ready old root ∧
      (s.hasMembers root = true → ¬ s.Clashes root ∧
        (∀ key, s.IsWrapperKey root key → Progress.Made ⟨session', []⟩ key) ∧
        (¬ (old (s.interfaceKey root) ∧ old (s.proxyKey root)) →
          Supplied s ⟨session', []⟩ root)) := by
  obtain ⟨step, results, -⟩ := run_synthesize apart known lawful ran
  obtain ⟨keeps, found⟩ := results made rfl
  have lawful := step.lawful
  have whole := keeps whole
  rcases found with ⟨-, empty⟩ | ⟨-, some, distinct, bound⟩
  · refine ⟨lawful, whole, Or.inl empty, fun some => ?_⟩
    rw [hasMembers_of_extract_nil empty] at some
    cases some
  · have made (key : CacheKey) (isKey : s.IsWrapperKey root key) :=
      made_of_isWrapperKey apart known lawful rfl some distinct isKey (bound key isKey)
    have supplied (fresh : ¬ (old (s.interfaceKey root) ∧ old (s.proxyKey root))) :
        Supplied s ⟨session', []⟩ root := by
      rcases not_and_or.1 fresh with fresh | fresh
      · exact whole root _ known (mem_memberKeys.2 (Or.inl rfl)) (made _ (Or.inl rfl)) fresh
      · exact whole root _ known (mem_memberKeys.2 (Or.inr (Or.inl rfl)))
          (made _ (Or.inr (Or.inl rfl))) fresh
    refine ⟨lawful, whole, Or.inr ⟨some, distinct, ?_⟩, fun _ => ⟨distinct, made, supplied⟩⟩
    by_cases fresh : old (s.interfaceKey root) ∧ old (s.proxyKey root)
    · exact Or.inl fresh
    · exact Or.inr fun strict => whole.clean lawful apart rfl strict (supplied fresh)

end

section

variable (apart : s.Apart) (lawful : Lawful s noKey ⟨session, []⟩)
  (whole : Whole s noKey ⟨session, []⟩)

include apart lawful whole

theorem made_of_makes (known : s.catalog.Known root) {made : Option Wrappers}
    (ran : run session (s.synthesize root) = (.ok made, session')) (makes : s.Makes root key) :
    Progress.Made ⟨session', []⟩ key := by
  obtain ⟨lawful, whole, -, found⟩ := ready_of_synthesize apart lawful whole known ran
  obtain ⟨some, isKey | ⟨name, isIn, v, isName, asks⟩⟩ := makes
  · exact (found some).2.1 key isKey
  · have supplied := (found some).2.2 fun h => h.1
    exact whole.made_of_asks lawful apart rfl (supplied.served ⟨name, isIn, isName⟩) asks

theorem granted_of_dereference {t : TypeRef}
    (ran : run session (s.dereference type) = (.ok t, session')) :
    Whole s noKey ⟨session', []⟩ ∧ s.Grants (.dereference type) ∧
      ∀ key, s.AsksAny (s.needs type) key → Progress.Made ⟨session', []⟩ key := by
  obtain ⟨step, results, -⟩ := run_dereference apart lawful ran
  obtain ⟨keeps, image, binds⟩ := results t rfl
  have lawful := step.lawful
  have whole := keeps whole
  have served (name : TypeName) (isIn : name ∈ s.needs type) (v : SourceType)
      (found : s.catalog.get? name = some v) : Served s ⟨session', []⟩ v := by
    refine ⟨SourceCatalog.known_of_get? found, fun foreign => ?_, binds name isIn v found⟩
    have image := namedImage?_of_needs type isIn
    rw [namedImage?_eq found, sourceImage?_foreign foreign] at image
    simpa using image
  refine ⟨whole, ⟨by simp [image], ?_⟩, ?_⟩
  · rintro ⟨name, isMention, v, found, foreign, strict, -, unclean⟩
    rw [← s.needs_eq_mentions type (by simp [image])] at isMention
    have supplied := whole.supplied lawful apart rfl (served name isMention v found) foreign
    exact unclean (whole.clean lawful apart rfl strict supplied)
  · rintro key ⟨name, isIn, v, found, asks⟩
    exact whole.made_of_asks lawful apart rfl (served name isIn v found) asks

/-- A request that succeeds in a whole session is one that is granted, and all that it asks for is
made. -/
theorem granted_of_succeeds {request : Request} (admits : s.Admits request)
    (succeeds : (s.answer session request).1.Succeeds) :
    Whole s noKey ⟨(s.answer session request).2, []⟩ ∧ s.Grants request ∧
      ∀ key, s.Orders request key → Progress.Made ⟨(s.answer session request).2, []⟩ key := by
  cases request with
  | synthesize root =>
    obtain ⟨made, result⟩ := succeeds
    have ran : run session (s.synthesize root) = (.ok made, _) := Prod.ext result rfl
    obtain ⟨-, whole', ready, -⟩ := ready_of_synthesize apart lawful whole admits ran
    exact ⟨whole', ready, fun key => made_of_makes apart lawful whole admits ran⟩
  | dereference type =>
    obtain ⟨t, result⟩ := succeeds
    exact granted_of_dereference apart lawful whole (Prod.ext result rfl)

end

/-! ### Sequences of requests -/

variable {requests requests' : List Request}

theorem serve_lawful (apart : s.Apart) (admits : ∀ request ∈ requests, s.Admits request)
    (lawful : Lawful s old ⟨session, []⟩) :
    Lawful s old ⟨(s.serve session requests).2, []⟩ := by
  induction requests generalizing session with
  | nil => exact lawful
  | cons request rest ih =>
    have admitted := List.forall_mem_cons.1 admits
    exact ih admitted.2 (answer_step apart admitted.1 lawful).lawful

theorem serve_of_grants (apart : s.Apart) (admits : ∀ request ∈ requests, s.Admits request)
    (grants : ∀ request ∈ requests, s.Grants request) (lawful : Lawful s noKey ⟨session, []⟩) :
    ∀ response ∈ (s.serve session requests).1, response.Succeeds := by
  induction requests generalizing session with
  | nil => exact fun _ isIn => absurd isIn List.not_mem_nil
  | cons request rest ih =>
    have admitted := List.forall_mem_cons.1 admits
    have granted := List.forall_mem_cons.1 grants
    exact List.forall_mem_cons.2 ⟨answer_of_grants apart admitted.1 granted.1 lawful,
      ih admitted.2 granted.2 (answer_step apart admitted.1 lawful).lawful⟩

/-- What requests make that all succeed is what they ask for, each of them by itself. -/
theorem serve_succeeds (apart : s.Apart) (admits : ∀ request ∈ requests, s.Admits request)
    (succeed : ∀ response ∈ (s.serve session requests).1, response.Succeeds)
    (lawful : Lawful s noKey ⟨session, []⟩) (whole : Whole s noKey ⟨session, []⟩) :
    Whole s noKey ⟨(s.serve session requests).2, []⟩ ∧
      (∀ request ∈ requests, s.Grants request) ∧
      ∀ key, Progress.Made ⟨(s.serve session requests).2, []⟩ key ↔
        Progress.Made ⟨session, []⟩ key ∨ ∃ request ∈ requests, s.Orders request key := by
  -- an answer that succeeds leaves the session whole for the next request
  induction requests generalizing session with
  | nil => exact ⟨whole, fun _ isIn => absurd isIn List.not_mem_nil, by simp [serve]⟩
  | cons request rest ih =>
    have admitted := List.forall_mem_cons.1 admits
    have succeeds := List.forall_mem_cons.1 succeed
    have step := answer_step apart admitted.1 lawful
    obtain ⟨first, grants, orders⟩ := granted_of_succeeds apart lawful whole admitted.1 succeeds.1
    obtain ⟨last, grantsRest, made⟩ := ih admitted.2 succeeds.2 step.lawful first
    refine ⟨last, List.forall_mem_cons.2 ⟨grants, grantsRest⟩, fun key => (made key).trans ?_⟩
    have one : Progress.Made ⟨(s.answer session request).2, []⟩ key ↔
        Progress.Made ⟨session, []⟩ key ∨ s.Orders request key :=
      ⟨step.made_or, fun made => made.elim step.made (orders key)⟩
    refine (or_congr one Iff.rfl).trans ?_
    simp [or_assoc]

end Synthesizer

end FluentWrappers.Synthesis
