import FluentWrappers.Proofs.Synthesis.Requests

/-!
# Failing fast and going on

Whether failures end everything or not makes a difference only after a failure. A request that
succeeds although the first failure would have ended it does the same where failures are passed over:
it has the same result and leaves the session as it is left there.
-/

namespace FluentWrappers.Synthesis

open Fallible

/-- The second step repeats the successes of the first, with their results and what they change. -/
def Repeats {α : Type} (x y : Synth α) : Prop :=
  ∀ p a q, x p = (.ok a, q) → y p = (.ok a, q)

section

variable {α β : Type} {key : CacheKey}

theorem Repeats.refl (x : Synth α) : Repeats x x := fun _ _ _ run => run

theorem repeats_throw {e : SynthesisError} {y : Synth α} : Repeats (throw e) y :=
  fun _ _ _ run => by cases run

theorem Repeats.bind {x y : Synth α} {f g : α → Synth β} (first : Repeats x y)
    (next : ∀ a, Repeats (f a) (g a)) : Repeats (x >>= f) (y >>= g) := by
  intro p b r run
  obtain ⟨a, q, ran, rest⟩ := bind_eq_ok_iff.1 run
  exact bind_eq_ok_iff.2 ⟨a, q, first p a q ran, next a q b r rest⟩

theorem repeats_mapM {f g : α → Synth β} (each : ∀ a, Repeats (f a) (g a)) (list : List α) :
    Repeats (list.mapM f) (list.mapM g) := by
  induction list with
  | nil => exact .refl _
  | cons a list ih =>
    rw [List.mapM_cons, List.mapM_cons]
    exact (each a).bind fun _ => ih.bind fun _ => .refl _

/-- A production runs for a free key only, and where it fails the key has no type. -/
theorem Repeats.memoize {produce produce' : Synth (Option SynthesizedType)}
    (run : Repeats produce produce') : Repeats (memoize key produce) (memoize key produce') := by
  intro p made q had
  cases stopped : p.cache.cancelled with
  | true =>
    rw [memoize_cancelled stopped] at had
    cases had
  | false =>
    cases bound : p.cache.slotOf? key with
    | some slot =>
      let begun : Progress := { p with scope := key :: p.scope }
      have bound' : begun.cache.slotOf? key = some slot := bound
      rw [memoize_of_answer stopped (getOrCreate_bound bound')] at had
      rw [memoize_of_answer stopped (getOrCreate_bound bound')]
      exact had
    | none =>
      rcases ended : produce (p.enter key) with ⟨e | type, r⟩
      · rw [memoize_of_error stopped bound ended] at had
        cases had
      · rw [memoize_of_ok stopped bound ended] at had
        rw [memoize_of_ok stopped bound (run _ _ _ ended)]
        exact had

end

namespace Synthesizer

/-- The synthesizer with failures that end everything, or with failures that are passed over. -/
def withFailFast (s : Synthesizer) (on : Bool) : Synthesizer :=
  { s with options := { s.options with failFast := on } }

variable {s : Synthesizer}

/-! ### Members and their types -/

section

variable {dereference dereference' : TypeRef → Synth TypeRef} {named named' : TypeName → Synth TypeRef}

/-- Where failures end everything, a member is had only with its type replaced. -/
theorem repeats_resolveMember (replaces : ∀ type, Repeats (dereference type) (dereference' type))
    (source : SourceType) (m : Member) :
    Repeats ((s.withFailFast true).resolveMember dereference source m)
      ((s.withFailFast false).resolveMember dereference' source m) := by
  intro p found q had
  rcases ended : dereference m.type p with ⟨e | type, r⟩
  · have failFast : (s.withFailFast true).options.failFast = true := rfl
    rw [resolveMember_of_error ended, if_pos (Or.inr failFast)] at had
    cases had
  · rw [resolveMember_of_ok ended] at had
    rw [resolveMember_of_ok (replaces m.type p type r ended)]
    exact had

theorem repeats_resolveMembers (replaces : ∀ type, Repeats (dereference type) (dereference' type))
    (source : SourceType) :
    Repeats ((s.withFailFast true).resolveMembers dereference source)
      ((s.withFailFast false).resolveMembers dereference' source) := by
  refine (Repeats.refl _).bind fun members => ?_
  split
  · exact .refl _
  · show Repeats (if !s.options.dereference then _ else _) (if !s.options.dereference then _ else _)
    split
    · exact .refl _
    · exact (repeats_mapM (repeats_resolveMember replaces source) members).bind fun _ => .refl _

mutual

theorem repeats_replaceType (replaces : ∀ name, Repeats (named name) (named' name)) (type : TypeRef) :
    Repeats ((s.withFailFast true).replaceType named type)
      ((s.withFailFast false).replaceType named' type) := by
  unfold replaceType
  cases type with
  | named name => exact replaces name
  | array element => exact (repeats_replaceType replaces element).bind fun _ => .refl _
  | generic definition args =>
    show Repeats (if s.catalog.isRuntimeGeneric definition then _ else _)
      (if s.catalog.isRuntimeGeneric definition then _ else _)
    split
    · exact (repeats_replaceTypes replaces args).bind fun _ => .refl _
    · exact repeats_throw
  | primitive | string | object | synthesized => exact .refl _

theorem repeats_replaceTypes (replaces : ∀ name, Repeats (named name) (named' name))
    (types : List TypeRef) :
    Repeats ((s.withFailFast true).replaceTypes named types)
      ((s.withFailFast false).replaceTypes named' types) := by
  unfold replaceTypes
  cases types with
  | nil => exact .refl _
  | cons type rest =>
    refine (repeats_replaceType replaces type).bind fun _ => ?_
    exact (repeats_replaceTypes replaces rest).bind fun _ => .refl _

end

end

/-! ### Types of keys -/

section

variable {members members' : MemberResolver}
  (resolves : ∀ source, Repeats (members source) (members' source))

include resolves

theorem repeats_interfaceVia (source : SourceType) :
    Repeats ((s.withFailFast true).interfaceVia memoize members source)
      ((s.withFailFast false).interfaceVia memoize members' source) :=
  ((resolves source).bind fun _ => .refl _).memoize

theorem repeats_proxyVia (source : SourceType) (interface : Option TypeName) :
    Repeats ((s.withFailFast true).proxyVia memoize members source interface)
      ((s.withFailFast false).proxyVia memoize members' source interface) :=
  ((resolves source).bind fun _ => .refl _).memoize

theorem repeats_ensureInterfaceVia (source : SourceType) :
    Repeats ((s.withFailFast true).ensureInterfaceVia memoize members source)
      ((s.withFailFast false).ensureInterfaceVia memoize members' source) := by
  refine (Repeats.refl _).bind fun isIn => ?_
  split
  · exact .refl _
  · exact (repeats_interfaceVia resolves source).bind fun _ => .refl _

theorem repeats_ensureProxyVia (source : SourceType) (interface : TypeName) :
    Repeats ((s.withFailFast true).ensureProxyVia memoize members source interface)
      ((s.withFailFast false).ensureProxyVia memoize members' source interface) := by
  refine (Repeats.refl _).bind fun isIn => ?_
  split
  · exact .refl _
  · exact (repeats_proxyVia resolves source _).bind fun _ => .refl _

theorem repeats_cloneStructVia (source : SourceType) :
    Repeats ((s.withFailFast true).cloneStructVia memoize members source)
      ((s.withFailFast false).cloneStructVia memoize members' source) := by
  refine (repeats_ensureInterfaceVia resolves source).bind fun interface => ?_
  refine (repeats_ensureProxyVia resolves source interface).bind fun _ => ?_
  refine (Repeats.refl _).bind fun isIn => ?_
  split
  · exact .refl _
  · refine Repeats.bind (Repeats.memoize ?_) fun _ => .refl _
    exact (resolves source).bind fun _ => .refl _

theorem repeats_referenceInterfaceVia (source : SourceType) :
    Repeats ((s.withFailFast true).referenceInterfaceVia memoize members source)
      ((s.withFailFast false).referenceInterfaceVia memoize members' source) := by
  refine (repeats_ensureInterfaceVia resolves source).bind fun interface => ?_
  exact (repeats_ensureProxyVia resolves source interface).bind fun _ => .refl _

theorem repeats_replaceNamedVia (name : TypeName) :
    Repeats ((s.withFailFast true).replaceNamedVia memoize members name)
      ((s.withFailFast false).replaceNamedVia memoize members' name) := by
  refine (Repeats.refl _).bind fun source => ?_
  split
  · exact .refl _
  · split
    · exact .refl _
    · split
      · exact repeats_cloneStructVia resolves source
      · exact repeats_referenceInterfaceVia resolves source

end

theorem repeats_dereferenceNamedVia (s : Synthesizer) (fuel : Nat) (name : TypeName) :
    Repeats ((s.withFailFast true).dereferenceNamedVia memoize fuel name)
      ((s.withFailFast false).dereferenceNamedVia memoize fuel name) := by
  induction fuel generalizing name with
  | zero => exact .refl _
  | succ fuel ih =>
    exact repeats_replaceNamedVia (repeats_resolveMembers (repeats_replaceType ih)) name

theorem repeats_dereference (s : Synthesizer) (type : TypeRef) :
    Repeats ((s.withFailFast true).dereference type) ((s.withFailFast false).dereference type) :=
  repeats_replaceType (repeats_dereferenceNamedVia s s.nestingBound) type

theorem repeats_members (s : Synthesizer) (source : SourceType) :
    Repeats ((s.withFailFast true).members source) ((s.withFailFast false).members source) :=
  repeats_resolveMembers (repeats_dereference s) source

theorem repeats_synthesize (s : Synthesizer) (source : SourceType) :
    Repeats ((s.withFailFast true).synthesize source) ((s.withFailFast false).synthesize source) := by
  refine (repeats_interfaceVia (repeats_members s) source).bind fun interface => ?_
  cases interface with
  | none => exact .refl _
  | some interface =>
    refine (repeats_proxyVia (repeats_members s) source _).bind fun proxy => ?_
    cases proxy with
    | none => exact .refl _
    | some proxy => exact .refl _

/-! ### Requests -/

theorem run_of_repeats {α : Type} {x y : Synth α} {session : Session} (repeats : Repeats x y)
    (succeeds : ∃ a, (run session x).1 = .ok a) : run session y = run session x := by
  obtain ⟨a, succeeds⟩ := succeeds
  obtain ⟨scope, ended⟩ := run_eq (Prod.ext succeeds rfl)
  unfold run
  rw [ended, repeats _ _ _ ended]

theorem answer_lenient {session : Session} {request : Request}
    (succeeds : ((s.withFailFast true).answer session request).1.Succeeds) :
    (s.withFailFast false).answer session request = (s.withFailFast true).answer session request := by
  cases request with
  | synthesize source =>
    dsimp only [answer]
    rw [run_of_repeats (repeats_synthesize s source) succeeds]
  | dereference type =>
    dsimp only [answer]
    rw [run_of_repeats (repeats_dereference s type) succeeds]

theorem serve_cons (s : Synthesizer) (session : Session) (request : Request)
    (rest : List Request) : s.serve session (request :: rest) =
      ((s.answer session request).1 :: (s.serve (s.answer session request).2 rest).1,
        (s.serve (s.answer session request).2 rest).2) := rfl

/-- Requests that all succeed where failures end everything have the same responses where failures
are passed over, and leave the same session with the same types in the same order. -/
theorem serve_lenient (s : Synthesizer) (session : Session) (requests : List Request)
    (succeed : ∀ response ∈ ((s.withFailFast true).serve session requests).1, response.Succeeds) :
    (s.withFailFast false).serve session requests =
      (s.withFailFast true).serve session requests := by
  induction requests generalizing session with
  | nil => rfl
  | cons request rest ih =>
    rw [serve_cons] at succeed
    obtain ⟨first, others⟩ := List.forall_mem_cons.1 succeed
    rw [serve_cons, serve_cons, answer_lenient first, ih _ others]

/-- Orders and items refer to each other. Both are synthesized in one session, orders twice. -/
theorem serve_lenient_shop :
    let order : SourceType := { name := ⟨"Shop", "Order"⟩, members := [
      { name := "Items", type := .array (.named ⟨"Shop", "Item"⟩) }] }
    let item : SourceType := { name := ⟨"Shop", "Item"⟩, members := [
      { name := "Order", type := .named ⟨"Shop", "Order"⟩ }, { name := "Note", type := .string }] }
    let s : Synthesizer := ⟨⟨[order, item], []⟩, {}⟩
    let requests : List Request := [.synthesize order, .synthesize item, .synthesize order]
    (∀ response ∈ ((s.withFailFast true).serve (.start 1) requests).1, response.Succeeds) ∧
      ((s.withFailFast true).serve (.start 1) requests).2.types.length = 6 ∧
      (s.withFailFast false).serve (.start 1) requests =
        (s.withFailFast true).serve (.start 1) requests := by
  intro order item s requests
  have succeed : ∀ response ∈ ((s.withFailFast true).serve (.start 1) requests).1,
      response.Succeeds := by decide +kernel
  exact ⟨succeed, by decide +kernel, serve_lenient s (.start 1) requests succeed⟩

end Synthesizer

end FluentWrappers.Synthesis
