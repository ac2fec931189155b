import FluentWrappers.Machine.Run
import FluentWrappers.Proofs.Artifact.Rewriting
import FluentWrappers.Proofs.Build.Saving
import FluentWrappers.Proofs.Lowering.Definitions
import FluentWrappers.Proofs.Synthesis.Closure

/-!
# How builds end

A build that no other build runs beside ends with the engine idle, whatever it comes to. If it ends
with a failure that is not one of writing, all files are as they were. If it succeeds, its artifact is
in the file that the result names, and the artifact can be decoded and loaded.
-/

namespace FluentWrappers.Build

open Synthesis (Session SynthesisError Synthesizer Wrappers)

variable {deliver : Nat → Event → Building Unit} {e : Engine} {t : FileTree}

/-- Where the product of a request goes. -/
def pathOf (o : EngineOptions) (r : BuildRequest) (p : Product) : String :=
  r.path.getD (defaultPath o p.artifact.metadata.name)

def writtenOf (o : EngineOptions) (r : BuildRequest) (p : Product) : Written where
  path := pathOf o r p
  requested := r.types.length
  produced := p.produced
  synthesized := p.types.map (·.canonical)
  metadata := p.artifact.metadata

theorem writeProduct_apply (alone : e.subscriptions = []) (o : EngineOptions) (r : BuildRequest)
    (p : Product) : writeProduct deliver o r p e t =
      (((save o.overwrite (pathOf o r p) p.artifact.encode t).1.map fun _ => writtenOf o r p, e),
        (save o.overwrite (pathOf o r p) p.artifact.encode t).2) := by
  have prepared := preparePath_apply deliver o.overwrite (pathOf o r p) t alone
  unfold writeProduct save
  rcases made : prepare o.overwrite (pathOf o r p) t with ⟨error | ⟨⟩, rest⟩
  · rw [made] at prepared
    exact bind_error prepared
  · rw [made] at prepared
    refine (bind_ok prepared).trans ?_
    dsimp only
    have written := write_apply (e := e) (t := rest) (pathOf o r p) p.artifact.encode
    cases found : rest.write (pathOf o r p) p.artifact.encode with
    | ok after =>
      rw [found] at written
      exact bind_ok (lift_ok written)
    | error fault =>
      rw [found] at written
      exact bind_ok (lift_ok written)

/-! ### Whole builds -/

/-- The session that a build runs in. -/
def Engine.sessionOf (e : Engine) (id : Nat) : Session :=
  e.sessions[id]?.getD (.start e.options.waitTimeoutMs)

/-- What a build answers and leaves of a tree. -/
def outcome (o : EngineOptions) (r : BuildRequest) (s : Session) (t : FileTree) :
    Except SynthesisError Written × FileTree :=
  match (makeProduct o r s).1 with
  | .error error => (.error error, t)
  | .ok p =>
    ((save o.overwrite (pathOf o r p) p.artifact.encode t).1.map fun _ => writtenOf o r p,
      (save o.overwrite (pathOf o r p) p.artifact.encode t).2)

theorem runRequest_apply (alone : e.subscriptions = []) (r : BuildRequest) (id : Nat) :
    runRequest deliver r id e t = (((outcome e.options r (e.sessionOf id) t).1,
      { e with sessions := e.sessions.set id (makeProduct e.options r (e.sessionOf id)).2 }),
        (outcome e.options r (e.sessionOf id) t).2) := by
  unfold outcome
  let made := makeProduct e.options r (e.sessionOf id)
  let after : Engine := { e with sessions := e.sessions.set id made.2 }
  have kept : (getThe Engine : ExceptT SynthesisError Building Engine) e t = ((.ok e, e), t) := rfl
  have stored : (modifyThe Engine (fun e => { e with sessions := e.sessions.set id made.2 }) :
      ExceptT SynthesisError Building PUnit) e t = ((.ok ⟨⟩, after), t) := rfl
  refine (bind_ok kept).trans ((bind_ok stored).trans ?_)
  show (ExceptT.mk (pure made.1) >>= fun p => writeProduct deliver e.options r p) after t = _
  have product : (ExceptT.mk (pure made.1) : ExceptT SynthesisError Building Product) after t =
      ((made.1, after), t) := rfl
  have same : (makeProduct e.options r (e.sessionOf id)).1 = made.1 := rfl
  rw [same]
  cases result : made.1 with
  | error error =>
    rw [result] at product
    exact bind_error product
  | ok p =>
    rw [result] at product
    exact (bind_ok product).trans (writeProduct_apply (e := after) alone e.options r p)

def resultOf (r : BuildRequest) : Except SynthesisError Written → BuildResult
  | .ok w => .written w
  | .error error => .failed r.types.length error

theorem buildInSession_apply (idle : e.busy = false) (alone : e.subscriptions = [])
    (r : BuildRequest) (id : Nat) :
    buildInSession deliver r id e t = ((resultOf r (outcome e.options r (e.sessionOf id) t).1,
      { e with
        busy := false
        current := some id
        sessions := e.sessions.set id (makeProduct e.options r (e.sessionOf id)).2 }),
        (outcome e.options r (e.sessionOf id) t).2) := by
  let before : Engine := { e with busy := true, current := some id }
  let after : Engine := { before with
    sessions := e.sessions.set id (makeProduct e.options r (e.sessionOf id)).2 }
  have kept : (getThe Engine : Building Engine) e t = ((e, e), t) := rfl
  have begun : (modifyThe Engine fun e => { e with busy := true, current := some id } :
      Building PUnit) e t = ((⟨⟩, before), t) := rfl
  have ran : (runRequest deliver r id).run before t =
      (((outcome e.options r (e.sessionOf id) t).1, after),
        (outcome e.options r (e.sessionOf id) t).2) :=
    runRequest_apply (e := before) alone r id
  refine (bind_apply kept).trans ?_
  rw [if_neg (by rw [idle]; nofun)]
  refine (bind_apply begun).trans ((bind_apply ran).trans ?_)
  cases (outcome e.options r (e.sessionOf id) t).1 with
  | ok w => rfl
  | error error => exact bind_apply (notify_apply deliver (.critical error) _ (e := after) alone)

/-! ### Products -/

theorem of_lowerRequest {r : BuildRequest} {first : TypeName} {s : Session}
    {made : List Synthesis.Wrappers} {p : Product} (lowered : lowerRequest r first s made = .ok p) :
    ∃ metadata,
      Lowering.lower (Lowering.runtimeNames r.catalog) metadata p.types = .ok p.artifact := by
  unfold lowerRequest at lowered
  split at lowered
  case isTrue => cases lowered
  case isFalse =>
    obtain ⟨metadata, -, lowered⟩ := Check.bind_eq_ok_iff.1 lowered
    obtain ⟨artifact, isLowered, lowered⟩ := Check.bind_eq_ok_iff.1 lowered
    cases lowered
    exact ⟨metadata, isLowered⟩

theorem of_makeProduct {o : EngineOptions} {r : BuildRequest} {s : Session} {p : Product}
    (made : (makeProduct o r s).1 = .ok p) : ∃ metadata,
      Lowering.lower (Lowering.runtimeNames r.catalog) metadata p.types = .ok p.artifact := by
  unfold makeProduct at made
  split at made
  case h_1 => cases made
  case h_2 first rest isTypes =>
    obtain ⟨wrappers, -, lowered⟩ := Check.bind_eq_ok_iff.1 made
    exact of_lowerRequest lowered

theorem makeProduct_of_types {o : EngineOptions} {r : BuildRequest} {s : Session} {first : TypeName}
    {rest : List TypeName} {made : List (Option Wrappers)} {after : Session}
    (types : r.types = first :: rest)
    (ran : Synthesizer.run s (r.types.mapM fun name => do
      (⟨r.catalog, o⟩ : Synthesizer).synthesize (← r.catalog.require name)) = (.ok made, after)) :
    makeProduct o r s = (lowerRequest r first after (made.filterMap id), after) := by
  unfold makeProduct
  simp only [types] at ran ⊢
  rw [ran]
  rfl

/-- What a result says of its artifact is so, and the artifact is as it should be. -/
structure Describes (w : Written) (artifact : Artifact) : Prop where
  decodes : FitWords artifact.lengths → Artifact.decode artifact.encode = .ok artifact
  loads : ∃ loaded, Machine.Loaded.load artifact = .ok loaded
  types : artifact.types.map (·.name) = w.synthesized
  metadata : artifact.metadata = w.metadata

theorem describes_of_makeProduct {o : EngineOptions} {r : BuildRequest} {s : Session} {p : Product}
    (made : (makeProduct o r s).1 = .ok p) : Describes (writtenOf o r p) p.artifact := by
  obtain ⟨metadata, lowered⟩ := of_makeProduct made
  obtain ⟨definitions, defined, same, verified⟩ := Lowering.of_lower lowered
  have mark : p.artifact.mark = fileMark := by rw [same]; rfl
  have version : p.artifact.version = formatVersion := by rw [same]; rfl
  constructor
  case decodes =>
    intro fit
    rw [← Artifact.bytes_parts p.artifact mark]
    exact Artifact.decode_eq_ok_iff.2 ⟨mark, version, rfl, rfl, Artifact.reads_payload fit⟩
  case loads =>
    unfold Machine.Loaded.load
    split
    case h_1 accepted => exact ⟨_, rfl⟩
    case h_2 cause refused =>
      rw [verified] at refused
      cases refused
  case types =>
    rw [same]
    exact Lowering.names_of_lowerTypes defined
  case metadata => rfl

/-! ### Outcomes -/

theorem outcome_cases (o : EngineOptions) (r : BuildRequest) (s : Session) (t : FileTree)
    (grounded : t.Grounded) :
    (∃ error, outcome o r s t = (.error error, t)) ∨
      (∃ path fault after, outcome o r s t = (.error (writeFault path fault), after)) ∨
      ∃ w artifact after, outcome o r s t = (.ok w, after) ∧ Describes w artifact ∧
        Saved o.overwrite w.path artifact.encode t after := by
  unfold outcome
  cases made : (makeProduct o r s).1 with
  | error error => exact .inl ⟨error, rfl⟩
  | ok p =>
    dsimp only
    obtain refused | ⟨fault, after, failed⟩ | ⟨-, -, after, -, -, -, saved⟩ :=
      save_cases o.overwrite (pathOf o r p) p.artifact.encode t
    · rw [refused]
      exact .inl ⟨_, rfl⟩
    · rw [failed]
      exact .inr (.inl ⟨_, fault, after, rfl⟩)
    · rw [saved]
      exact .inr (.inr ⟨writtenOf o r p, p.artifact, after, rfl, describes_of_makeProduct made,
        saved_of_save grounded saved⟩)

theorem grounded_outcome (o : EngineOptions) (r : BuildRequest) (s : Session) (t : FileTree)
    (grounded : t.Grounded) : (outcome o r s t).2.Grounded := by
  unfold outcome
  split
  · exact grounded
  · exact grounded_save grounded

/-- How a build ends that no subscriber hears of and no other build runs beside. -/
structure Ends (overwrite : Bool) (result : BuildResult) (before after : FileTree) : Prop where
  succeeded : result.report.field? "succeeded" = some (.bool true) ↔ result.error? = none
  named : result.error? = none ↔ ∃ path, result.path? = some path
  nothing : result.error?.isSome → result.report.field? "produced" = some (.int 0)
  unchanged : ∀ error, result.error? = some error →
    (∀ path text, error ≠ .artifactWrite path text) → after = before
  saved : ∀ w, result = .written w → ∃ artifact, Describes w artifact ∧
    Saved overwrite w.path artifact.encode before after
  grounded : after.Grounded

theorem ends_failed {overwrite : Bool} {requested : Nat} {error : SynthesisError}
    {before after : FileTree} (grounded : after.Grounded)
    (unchanged : (∀ path text, error ≠ .artifactWrite path text) → after = before) :
    Ends overwrite (.failed requested error) before after where
  succeeded := by simp [BuildResult.report, BuildResult.error?, Json.field?]
  named := by simp [BuildResult.error?, BuildResult.path?]
  nothing _ := by simp [BuildResult.report, Json.field?, List.lookup_cons]
  unchanged other same := by
    cases same
    exact unchanged
  saved _ same := by cases same
  grounded := grounded

theorem ends_written {overwrite : Bool} {w : Written} {artifact : Artifact} {before after : FileTree}
    (grounded : after.Grounded) (describes : Describes w artifact)
    (saved : Saved overwrite w.path artifact.encode before after) :
    Ends overwrite (.written w) before after where
  succeeded := by simp [BuildResult.report, BuildResult.error?, Json.field?]
  named := by simp [BuildResult.error?, BuildResult.path?]
  nothing := nofun
  unchanged := nofun
  saved other same := by
    cases same
    exact ⟨artifact, describes, saved⟩
  grounded := grounded

/-- A build by an idle engine without subscribers, in any session and file tree, leaves the engine idle
and keeps to its answer: a failure but one of writing leaves all files as they were, and a success says
where which artifact is. -/
theorem buildInSession_ends (deliver : Nat → Event → Building Unit) (e : Engine)
    (idle : e.busy = false) (alone : e.subscriptions = []) (r : BuildRequest) (id : Nat)
    (before : FileTree) (grounded : before.Grounded) : ∃ result e' after,
      buildInSession deliver r id e before = ((result, e'), after) ∧ e'.busy = false ∧
        Ends e.options.overwrite result before after := by
  refine ⟨_, _, _, buildInSession_apply idle alone r id, rfl, ?_⟩
  have kept := grounded_outcome e.options r (e.sessionOf id) before grounded
  obtain ⟨error, same⟩ | ⟨path, fault, after, same⟩ | ⟨w, artifact, after, same, describes, saved⟩ :=
    outcome_cases e.options r (e.sessionOf id) before grounded
  · rw [same] at kept ⊢
    exact ends_failed kept fun _ => rfl
  · rw [same] at kept ⊢
    exact ends_failed kept fun other => absurd rfl (other path fault.message)
  · rw [same] at kept ⊢
    exact ends_written kept describes saved

/-! ### Builds of a point -/

def drawnPoint : SourceType where
  name := ⟨"Acme", "Point"⟩
  members := [{ name := "X", type := .primitive .i32 }]

/-- A request for a path that steps out of a folder again. -/
def drawing : BuildRequest where
  catalog := ⟨[drawnPoint], []⟩
  types := [drawnPoint.name]
  path := some "a/../b.fga"
  freshGuid := "6f1e"

/-- An idle engine with standard options, and no session yet. -/
def drawer : Engine := ⟨{}, false, [], 1, [], none⟩

def ignoring : Nat → Event → Building Unit := fun _ _ => pure ()

def drawn : Except SynthesisError (List (Option Wrappers)) × Session :=
  Synthesizer.run (drawer.sessionOf 0) (drawing.types.mapM fun name => do
    (⟨drawing.catalog, drawer.options⟩ : Synthesizer).synthesize (← drawing.catalog.require name))

def drawnWrappers : List (Option Wrappers) := drawn.1.toOption.getD []

theorem drawn_eq : drawn = (.ok drawnWrappers, drawn.2) := by
  have succeeds : drawn.1 = .ok drawnWrappers := by decide +kernel
  rw [← succeeds]

theorem reachWithin?_drawn :
    Synthesis.reachWithin? drawn.2.types 20
      ((drawnWrappers.filterMap id).flatMap wrapperNames) [] = some
      (⟨"Acme", "FluentPoint"⟩ :: ⟨"Acme", "PointProxy"⟩ :: [⟨"Acme", "IPoint"⟩]) := by
  decide +kernel

theorem exists_product :
    ∃ p, (makeProduct drawer.options drawing (drawer.sessionOf 0)).1 = .ok p := by
  have types : drawing.types = drawnPoint.name :: [] := rfl
  have lowers : (lowerRequest drawing drawnPoint.name drawn.2
      (drawnWrappers.filterMap id)).toOption.isSome = true := by
    unfold lowerRequest
    rw [Synthesis.Session.closure_of_reachWithin? reachWithin?_drawn]
    decide +kernel
  have same := makeProduct_of_types (o := drawer.options) (s := drawer.sessionOf 0) types drawn_eq
  rw [same]
  cases made : lowerRequest drawing drawnPoint.name drawn.2 (drawnWrappers.filterMap id) with
  | error error =>
    rw [made] at lowers
    cases lowers
  | ok p => exact ⟨p, rfl⟩

theorem outcome_drawing {before prepared : FileTree} {place : Place}
    (leads : prepared.placeOf "a/../b.fga" = .ok (place, false))
    (isPrepared : prepare false "a/../b.fga" before = (.ok (), prepared))
    (notFolder : prepared.entry? place ≠ some .folder) : ∃ w bytes,
      outcome drawer.options drawing (drawer.sessionOf 0) before =
        (.ok w, prepared.put place (.file bytes)) ∧ headerSize ≤ bytes.length := by
  obtain ⟨p, made⟩ := exists_product
  have saved : save false "a/../b.fga" p.artifact.encode before =
      (.ok (), prepared.put place (.file p.artifact.encode)) :=
    save_of_prepare isPrepared leads notFolder
  have path : pathOf drawer.options drawing p = "a/../b.fga" := rfl
  have overwrite : drawer.options.overwrite = false := rfl
  refine ⟨writtenOf drawer.options drawing p, p.artifact.encode, ?_, ?_⟩
  · unfold outcome
    rw [made]
    dsimp only
    rw [path, overwrite, saved]
    rfl
  · obtain ⟨metadata, lowered⟩ := of_makeProduct made
    obtain ⟨definitions, -, same, -⟩ := Lowering.of_lower lowered
    have mark : p.artifact.mark = fileMark := by rw [same]; rfl
    rw [Artifact.length_encode mark]
    exact Nat.le_add_right _ _

/-- In an empty tree the build makes a folder that its path only steps out of. -/
theorem buildInSession_ends_drawing : ∃ w e' after,
    buildInSession ignoring drawing 0 drawer .empty = ((.written w, e'), after) ∧
      Ends false (.written w) .empty after := by
  have grounded : FileTree.empty.Grounded := FileTree.grounded_of_entries nofun
  obtain ⟨result, e', after, ran, -, ends⟩ :=
    buildInSession_ends ignoring drawer rfl rfl drawing 0 .empty grounded
  have isPrepared : prepare false "a/../b.fga" .empty = (.ok (), ⟨[(["a"], .folder)]⟩) := by
    decide +kernel
  have leads : FileTree.placeOf ⟨[(["a"], .folder)]⟩ "a/../b.fga" = .ok (["b.fga"], false) := by
    decide +kernel
  obtain ⟨w, bytes, same, -⟩ := outcome_drawing leads isPrepared (by decide +kernel)
  have expected : buildInSession ignoring drawing 0 drawer .empty = _ :=
    buildInSession_apply rfl rfl drawing 0
  rw [same] at expected
  rw [expected] at ran
  cases ran
  exact ⟨w, _, _, expected, ends⟩

/-- Without leave to overwrite, a file is replaced that the path leads to once the folder that it steps
out of is made. -/
theorem replaces_unseen_file :
    let keep : Entry := .file (Text.utf8 "keep")
    let before : FileTree := ⟨[(["b.fga"], keep)]⟩
    before.Grounded ∧ drawer.options.overwrite = false ∧ before.entry? ["b.fga"] = some keep ∧
      ∃ w e' after, buildInSession ignoring drawing 0 drawer before =
        ((.written w, e'), after) ∧ ∃ bytes, after.entry? ["b.fga"] = some (.file bytes) ∧
          bytes ≠ Text.utf8 "keep" := by
  intro keep before
  have grounded : before.Grounded := FileTree.grounded_of_entries (by decide +kernel)
  have isPrepared : prepare false "a/../b.fga" before =
      (.ok (), ⟨[(["b.fga"], keep), (["a"], .folder)]⟩) := by
    decide +kernel
  have leads : FileTree.placeOf ⟨[(["b.fga"], keep), (["a"], .folder)]⟩ "a/../b.fga" =
      .ok (["b.fga"], false) := by
    decide +kernel
  obtain ⟨w, bytes, same, long⟩ := outcome_drawing leads isPrepared (by decide +kernel)
  have ran : buildInSession ignoring drawing 0 drawer before = _ :=
    buildInSession_apply rfl rfl drawing 0
  rw [same] at ran
  refine ⟨grounded, rfl, by decide +kernel, w, _, _, ran, bytes, ?_, ?_⟩
  · exact FileTree.entry?_put_self (by decide)
  · rintro rfl
    revert long
    decide +kernel

end FluentWrappers.Build
