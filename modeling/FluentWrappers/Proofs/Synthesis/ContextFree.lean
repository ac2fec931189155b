import FluentWrappers.Proofs.Synthesis.Answers
import FluentWrappers.Proofs.Synthesis.Success
import FluentWrappers.Proofs.Synthesis.Termination

/-!
# Dereferencing without regard to the context

What a type is replaced by is its image in the table of the catalog, whatever is in the session, in
progress or cancelled. An image is replaced by itself, and nothing is made for it. Where failures do
not end everything, each type for which something stands is replaced.
-/

namespace FluentWrappers

/-- All names in the type are registered, with eligible members and bases that come to an end if they
are those of foreign types, and so are all generic definitions in it. -/
def SourceCatalog.Replaces (c : SourceCatalog) (type : TypeRef) : Prop :=
  (∀ name ∈ type.mentions, ∃ u, c.get? name = some u ∧
    (u.Foreign → (∃ m, c.EligibleMember u m) ∧ ¬ c.InheritsCyclically u)) ∧
  ∀ d ∈ type.definitions, c.isRuntimeGeneric d = true

namespace Synthesis

open Fallible

/-! ### Reached progress -/

/-- The calls that come up in a progress: those from outside with nothing in progress, and those for
what a production needs and is not in progress yet. -/
def Call.ComesUp (s : Synthesizer) (p : Progress) : Call → Prop
  | synthesize source => s.catalog.Known source ∧ p.scope = []
  | interface source => s.catalog.Known source ∧ s.interfaceKey source ∉ p.scope
  | proxy source bound => s.catalog.Known source ∧ s.proxyKey source ∉ p.scope ∧
      bound = some (interfaceName s.options source.name)
  | fluent _ _ _ => False
  | dereference _ => True

/-- The progress in which a synthesizer may have a type replaced: from the start of a session on there
are calls, some of them cut short by a cancellation, and productions that have begun. -/
inductive Progress.Reached (s : Synthesizer) : Progress → Prop
  | start (waitTimeoutMs : UInt64) : Reached s ⟨Session.start waitTimeoutMs, []⟩
  | cancel {p : Progress} (reached : Reached s p) :
      Reached s { p with session := p.session.cancel }
  | call {p : Progress} (reached : Reached s p) (call : Call) (comesUp : call.ComesUp s p) :
      Reached s (call.after s p)
  | cut {p : Progress} (reached : Reached s p) (call : Call) (comesUp : call.ComesUp s p)
      (interruption : Interruption)
      (cancelled : (call.afterVia (memoizeAmid interruption) s p).cache.cancelled = true) :
      Reached s (call.afterVia (memoizeAmid interruption) s p)
  | production {p : Progress} (reached : Reached s p) {u : SourceType} {key : CacheKey}
      (running : p.cache.cancelled = false) (known : s.catalog.Known u)
      (eligible : ∃ m, s.catalog.EligibleMember u m) (isKey : key ∈ s.memberKeys u)
      (free : p.cache.slotOf? key = none) : Reached s (p.enter key)

namespace Synthesizer

variable {s : Synthesizer} {p q : Progress} {type t : TypeRef} {memo : Memo}

/-! ### Images -/

theorem image?_ne_none_iff : s.image? type ≠ none ↔ s.catalog.Replaces type := by
  rw [Ne, image?_eq_none_iff]
  unfold SourceCatalog.Resists SourceCatalog.ResistsAny SourceCatalog.NameResists
    SourceCatalog.Replaces SourceCatalog.Barren
  constructor
  · intro allowed
    refine ⟨fun name isIn => ?_, fun d isIn => ?_⟩
    · cases found : s.catalog.get? name with
      | none => exact absurd (.inl ⟨name, isIn, .inl found⟩) allowed
      | some u =>
        refine ⟨u, rfl, fun foreign => ⟨?_, fun cyclic => ?_⟩⟩
        · by_contra none
          exact allowed (.inl ⟨name, isIn, .inr ⟨u, found, foreign, .inl none⟩⟩)
        · exact allowed (.inl ⟨name, isIn, .inr ⟨u, found, foreign, .inr cyclic⟩⟩)
    · by_contra unknown
      exact allowed (.inr ⟨d, isIn, Bool.eq_false_of_not_eq_true unknown⟩)
  · rintro ⟨names, definitions⟩ (⟨name, isIn, missing | ⟨u, found, foreign, barren⟩⟩ |
      ⟨d, isIn, unknown⟩)
    · obtain ⟨u, found, -⟩ := names name isIn
      cases found.symm.trans missing
    · obtain ⟨v, found', eligible⟩ := names name isIn
      cases found.symm.trans found'
      exact barren.elim (fun none => none (eligible foreign).1) (eligible foreign).2
    · cases (definitions d isIn).symm.trans unknown

/-- A name that stays is that of a type of the base runtime. -/
theorem dereferenceNamedVia_runtime {name : TypeName} {u : SourceType}
    (found : s.catalog.get? name = some u)
    (notEnum : ∀ underlying literals, u.kind ≠ .enumeration underlying literals)
    (runtime : u.isRuntime = true) (fuel : Nat) (q : Progress) :
    s.dereferenceNamedVia memo (fuel + 1) name q = (.ok (.named name), q) := by
  have required : (liftM (s.catalog.require name) : Synth SourceType) q = (.ok u, q) := by
    rw [lift_apply, SourceCatalog.require_eq_ok_iff.2 found]
  show s.replaceNamedVia memo _ name q = _
  unfold replaceNamedVia
  rw [bind_ok required]
  cases isKind : u.kind with
  | enumeration underlying literals => exact absurd isKind (notEnum underlying literals)
  | classType | interface | struct =>
    dsimp only
    rw [if_pos runtime]
    rfl

mutual

theorem replaceType_of_image {named : TypeName → Synth TypeRef}
    (stays : ∀ name u, s.catalog.get? name = some u →
      (∀ underlying literals, u.kind ≠ .enumeration underlying literals) → u.isRuntime = true →
      named name q = (.ok (.named name), q))
    (type : TypeRef) {t : TypeRef} (image : s.image? type = some t) :
    s.replaceType named t q = (.ok t, q) := by
  cases type with
  | named name =>
    unfold image? namedImage? at image
    obtain ⟨u, found, image⟩ := Option.bind_eq_some_iff.1 image
    rcases u.foreign_or with ⟨underlying, literals, isEnum⟩ | ⟨notEnum, runtime⟩ | foreign
    · rw [sourceImage?_enum isEnum] at image
      cases image
      unfold replaceType
      rfl
    · rw [sourceImage?_runtime notEnum runtime] at image
      cases image
      unfold replaceType
      exact stays name u found notEnum runtime
    · rw [sourceImage?_foreign foreign] at image
      split at image
      · cases image
        unfold replaceType
        rfl
      · cases image
  | array element =>
    unfold image? at image
    obtain ⟨t, inner, rfl⟩ := Option.map_eq_some_iff.1 image
    unfold replaceType
    rw [bind_ok (replaceType_of_image stays element inner)]
    rfl
  | generic definition args =>
    unfold image? at image
    split at image
    case isTrue registered =>
      obtain ⟨ts, images, rfl⟩ := Option.map_eq_some_iff.1 image
      unfold replaceType
      rw [if_pos registered, bind_ok (replaceTypes_of_images stays args images)]
      rfl
    case isFalse => cases image
  | primitive | string | object | synthesized =>
    unfold image? at image
    cases image
    unfold replaceType
    rfl

theorem replaceTypes_of_images {named : TypeName → Synth TypeRef}
    (stays : ∀ name u, s.catalog.get? name = some u →
      (∀ underlying literals, u.kind ≠ .enumeration underlying literals) → u.isRuntime = true →
      named name q = (.ok (.named name), q))
    (types : List TypeRef) {ts : List TypeRef} (images : s.images? types = some ts) :
    s.replaceTypes named ts q = (.ok ts, q) := by
  cases types with
  | nil =>
    unfold images? at images
    cases images
    unfold replaceTypes
    rfl
  | cons type rest =>
    unfold images? at images
    obtain ⟨t, first, images⟩ := Option.bind_eq_some_iff.1 images
    obtain ⟨ts, others, rfl⟩ := Option.map_eq_some_iff.1 images
    unfold replaceTypes
    rw [bind_ok (replaceType_of_image stays type first),
      bind_ok (replaceTypes_of_images stays rest others)]
    rfl

end

/-- What stands for a type is replaced by itself, and nothing else happens. -/
theorem dereferenceVia_of_image (image : s.image? type = some t) (memo : Memo) (q : Progress) :
    s.dereferenceVia memo t q = (.ok t, q) :=
  replaceType_of_image (fun _ _ found notEnum runtime =>
    dereferenceNamedVia_runtime found notEnum runtime _ q) type image

end Synthesizer

/-! ### What holds of reached progress -/

/-- Whatever is complete suits its key, the scope holds keys of source types with members, and unless
the session is cancelled, the progress is lawful. -/
structure Steady (s : Synthesizer) (p : Progress) : Prop where
  suited : Suited s p
  owns : s.OwnsAll p.scope
  lawful : p.cache.cancelled = false → Lawful s noKey p

section

variable {s : Synthesizer} {p q : Progress} {type : TypeRef}

theorem Lawful.suited (lawful : Lawful s noKey p) (apart : s.Apart) : Suited s p where
  tidy := lawful.tidy
  suits := by
    rintro _ t has kind u - known rfl
    have made := lawful.has_product apart known has
    exact ⟨(Synthesizer.product_facts made).2.1, fun isKind =>
      Synthesizer.hasMembers_of_product made isKind.ne_enumClone⟩

theorem room_of_owns {fuel : Nat} (owns : s.OwnsAll p.scope) (more : s.nestingBound ≤ fuel) :
    Room s fuel p where
  owned := owns
  enough := by
    unfold Synthesizer.nestingBound at more
    omega

/-- A call in lawful progress leads to lawful progress with the same scope. -/
theorem Lawful.after (lawful : Lawful s noKey p) (apart : s.Apart) (owns : s.OwnsAll p.scope)
    {call : Call} (comesUp : call.ComesUp s p) :
    Lawful s noKey (call.after s p) ∧ (call.after s p).scope = p.scope := by
  have room (u : SourceType) (_ : s.hasMembers u = true) : Room s (s.nestingBound + 1) p :=
    room_of_owns owns (Nat.le_succ _)
  have resolves : s.Resolves noKey s.nestingBound s.members := Synthesizer.resolves_members apart
  have after {α : Type} {x : Synth α} {within within' : CacheKey → Prop}
      {post : α → Progress → Prop} {failed : SynthesisError → Progress → Prop}
      (ends : Ends x p (fun a q => Step s noKey within p q ∧ post a q)
        (fun e q => Step s noKey within' p q ∧ failed e q)) :
      Lawful s noKey (x p).2 ∧ (x p).2.scope = p.scope := by
    have both : Ends x p (fun _ q => Lawful s noKey q ∧ q.scope = p.scope)
        (fun _ q => Lawful s noKey q ∧ q.scope = p.scope) :=
      ends.mono (fun _ _ found => ⟨found.1.lawful, found.1.scope⟩)
        fun _ _ fault => ⟨fault.1.lawful, fault.1.scope⟩
    exact ends_iff.1 both
  cases call with
  | synthesize source =>
    exact after (Synthesizer.ends_synthesize apart comesUp.1 lawful comesUp.2)
  | interface source =>
    obtain ⟨known, idle⟩ := comesUp
    exact after (Synthesizer.produces_interfaceVia resolves apart known lawful (room source) idle)
  | proxy source bound =>
    obtain ⟨known, idle, rfl⟩ := comesUp
    exact after (Synthesizer.produces_proxyVia resolves apart known lawful (room source) idle)
  | fluent wrapped shown options => exact comesUp.elim
  | dereference type =>
    exact after (Synthesizer.finds_dereference apart type p lawful (room_of_owns owns le_rfl))

/-- In a cancelled session nothing changes. -/
theorem after_of_cancelled (cancelled : p.cache.cancelled = true) (call : Call) :
    call.after s p = p := by
  have comp : Compositional fun x => ∀ p : Progress, p.cache.cancelled = true → (x p).2 = p := by
    refine ⟨fun _ _ _ => rfl, fun _ _ _ => rfl, ?_, fun halts => halts, fun _ _ _ => rfl⟩
    intro α β x f first next p cancelled
    have kept := first p cancelled
    rcases run : x p with ⟨error | a, q⟩
    · rw [run] at kept
      rw [bind_error run]
      exact kept
    · rw [run] at kept
      obtain rfl : q = p := kept
      rw [bind_ok run]
      exact next a q cancelled
  have carries : Memo.Carries memoize fun x =>
      ∀ p : Progress, p.cache.cancelled = true → (x p).2 = p := by
    intro key produce _ p cancelled
    rw [memoize_cancelled cancelled]
  exact Call.afterVia_of_compositional (J := fun p q => p.cache.cancelled = true → q = p) comp
    carries s p call cancelled

theorem Suited.afterVia {memo : Memo} (suited : Suited s p) (answers : memo.Answers s)
    (apart : s.Apart) (owns : s.OwnsAll p.scope) {call : Call} (comesUp : call.ComesUp s p) :
    Suiting s p (call.afterVia memo s p) := by
  have lists := Synthesizer.lists_membersVia answers apart owns
  have after {α : Type} {x : Synth α} {post : α → Prop} (answers : Answers s p.scope x post) :
      Suiting s p (x p).2 :=
    ends_iff.1 ((answers p suited rfl).mono (fun _ _ found => found.1) fun _ _ suiting => suiting)
  cases call with
  | synthesize source =>
    obtain ⟨known, idle⟩ := comesUp
    exact after (idle ▸ Synthesizer.answers_synthesizeVia answers apart known)
  | interface source => exact after (Synthesizer.answers_interfaceVia answers apart lists comesUp.1)
  | proxy source bound =>
    exact after (Synthesizer.answers_proxyVia answers apart lists comesUp.1 bound)
  | fluent wrapped shown options => exact comesUp.elim
  | dereference type => exact after (Synthesizer.answers_dereferenceVia answers apart owns type)

theorem Progress.Reached.steady (reached : Progress.Reached s p) (apart : s.Apart) :
    Steady s p := by
  induction reached with
  | start timeout => exact ⟨suited_start s timeout, nofun, fun _ => lawful_start s timeout⟩
  | cancel reached ih => exact ⟨ih.suited.cancel, ih.owns, nofun⟩
  | @call p reached call comesUp ih =>
    cases cancelled : p.cache.cancelled with
    | true =>
      rw [after_of_cancelled cancelled]
      exact ih
    | false =>
      obtain ⟨lawful, scope⟩ := (ih.lawful cancelled).after apart ih.owns comesUp
      exact ⟨lawful.suited apart, scope ▸ ih.owns, fun _ => lawful⟩
  | @cut p reached call comesUp interruption cancelled ih =>
    have suiting := ih.suited.afterVia (answers_memoizeAmid s interruption) apart ih.owns comesUp
    refine ⟨suiting.suited, suiting.scope ▸ ih.owns, fun running => ?_⟩
    cases cancelled.symm.trans running
  | @production p reached u key running known eligible isKey free ih =>
    refine ⟨ih.suited.enter free, ?_, fun _ => (ih.lawful running).enter free⟩
    exact ih.owns.enter known isKey (Synthesizer.hasMembers_iff.2 eligible)

end

/-! ### The table -/

/-- In every reached progress, whatever a type is replaced by is its image, also if the session is
cancelled meanwhile, and the image is replaced by itself without any change. Where failures do not end
everything and the session is not cancelled, a type is replaced exactly if something stands for it. -/
theorem dereference_contextFree (s : Synthesizer)
    (dotless : ∀ t ∈ s.catalog.types, t.name.Dotless) {p : Progress}
    (reached : Progress.Reached s p) (type : TypeRef) :
    (∀ t q, s.dereference type p = (.ok t, q) →
      s.image? type = some t ∧ s.dereference t q = (.ok t, q)) ∧
    (∀ interruption t q, s.dereferenceVia (memoizeAmid interruption) type p = (.ok t, q) →
      s.image? type = some t ∧
        ∀ again, s.dereferenceVia (memoizeAmid again) t q = (.ok t, q)) ∧
    (s.options.failFast = false → p.cache.cancelled = false →
      ((∃ t q, s.dereference type p = (.ok t, q)) ↔ s.catalog.Replaces type)) := by
  have apart := Synthesizer.apart_of_dotless dotless
  have steady := reached.steady apart
  have image {memo : Memo} (answers : memo.Answers s) {t : TypeRef} {q : Progress}
      (run : s.dereferenceVia memo type p = (.ok t, q)) : s.image? type = some t :=
    ((Synthesizer.answers_dereferenceVia answers apart steady.owns type p steady.suited rfl).result
      run).2
  refine ⟨fun t q run => ?_, fun interruption t q run => ?_, fun lenient running => ?_⟩
  · have found := image (answers_memoize s) run
    exact ⟨found, Synthesizer.dereferenceVia_of_image found memoize q⟩
  · have found := image (answers_memoizeAmid s interruption) run
    exact ⟨found, fun again => Synthesizer.dereferenceVia_of_image found _ q⟩
  · have finds := Synthesizer.finds_dereference apart type p (steady.lawful running)
      (room_of_owns steady.owns le_rfl)
    rw [← Synthesizer.image?_ne_none_iff]
    constructor
    · rintro ⟨t, q, run⟩ none
      cases none.symm.trans (finds.result run).2.2.1
    · intro stands
      rcases run : s.dereference type p with ⟨e | t, q⟩
      · obtain ⟨-, -, none | harmed, -⟩ := finds.fault run
        · exact absurd none stands
        · cases harmed.strict.2.symm.trans lenient
      · exact ⟨t, q, rfl⟩

/-- While the interface of a node is made, an array of cells is replaced by one of their clones, and the
type that inherits from itself is not replaced. -/
theorem dereference_contextFree_graph :
    let p : Progress := .enter ⟨Session.start 1, []⟩ (graph.interfaceKey node)
    (∀ t ∈ graph.catalog.types, t.name.Dotless) ∧ Progress.Reached graph p ∧
      graph.options.failFast = false ∧ p.cache.cancelled = false ∧
      (∃ q, graph.dereference (.array (.named cell.name)) p =
          (.ok (.array (.synthesized cell.name)), q) ∧
        graph.dereference (.array (.synthesized cell.name)) q =
          (.ok (.array (.synthesized cell.name)), q)) ∧
      ¬ graph.catalog.Replaces (.named owner.name) := by
  intro p
  have dotless : ∀ t ∈ graph.catalog.types, t.name.Dotless := by decide +kernel
  have known : graph.catalog.Known node := by
    unfold SourceCatalog.Known
    decide +kernel
  have extracted : graph.catalog.extract node = .ok node.members := by decide +kernel
  have eligible := SourceCatalog.exists_eligibleMember extracted (List.cons_ne_nil _ _)
  have reached : Progress.Reached graph p :=
    .production (.start 1) rfl known eligible List.mem_cons_self rfl
  have table := dereference_contextFree graph dotless reached
  refine ⟨dotless, reached, rfl, rfl, ?_, fun stands => ?_⟩
  · have found : (graph.dereference (.array (.named cell.name)) p).1.toOption =
        some (.array (.synthesized cell.name)) := by
      decide +kernel
    rcases run : graph.dereference (.array (.named cell.name)) p with ⟨e | t, q⟩
    · rw [run] at found
      cases found
    · rw [run] at found
      cases found
      exact ⟨q, rfl, ((table _).1 _ q run).2⟩
  · obtain ⟨t, q, run⟩ := ((table (.named owner.name)).2.2 rfl rfl).2 stands
    have refused : (graph.dereference (.named owner.name) p).1.toOption = none := by decide +kernel
    rw [run] at refused
    cases refused

/-- Where simple names have dots, one source type can be replaced by the interface that was made for
another. -/
theorem dereference_contextFree_dotted :
    let outer : SourceType :=
      { name := ⟨"A.IB", "C"⟩, members := [{ name := "X", type := .primitive .i32 }] }
    let inner : SourceType :=
      { name := ⟨"A", "B.IC"⟩, members := [{ name := "Y", type := .primitive .i32 }] }
    let s : Synthesizer := ⟨⟨[outer, inner], []⟩, {}⟩
    let p := (s.synthesize outer ⟨.start 1, []⟩).2
    Progress.Reached s p ∧
      (s.dereference (.named inner.name) p).1 = .ok (.synthesized ⟨"A.IB", "IC"⟩) ∧
      s.image? (.named inner.name) = some (.synthesized ⟨"A", "IB.IC"⟩) := by
  intro outer inner s p
  have known : s.catalog.Known outer := by unfold SourceCatalog.Known; decide +kernel
  have reached : Progress.Reached s p := .call (.start 1) (.synthesize outer) ⟨known, rfl⟩
  exact ⟨reached, by decide +kernel, by decide +kernel⟩

end Synthesis

end FluentWrappers
