import FluentWrappers.Build.Engine
import FluentWrappers.Proofs.Files.Parent
import FluentWrappers.Proofs.Files.Tree

/-!
# Saving artifacts

Without subscribers, preparing a path and writing to it change the file tree alone. An artifact is not
saved where something is unless it may be overwritten; then the tree stays as it was. What is saved
stands at the place that the path leads to, below folders that are made where they are missing. If a
missing folder is one that the path steps out of, the place may hold a file that the look at the path
before did not find.
-/

namespace FluentWrappers.Build

open Synthesis (SynthesisError)

/-- Builds that change an engine and a file tree. -/
abbrev Building := StateT Engine (StateM FileTree)

variable {ε α β : Type} {deliver : Nat → Event → Building Unit} {overwrite : Bool} {path : String}
  {e e' : Engine} {t t' : FileTree} {bytes : List UInt8}

theorem bind_apply {x : Building α} {f : α → Building β} {a : α} (h : x e t = ((a, e'), t')) :
    (x >>= f) e t = f a e' t' := by
  have unfolded : (x >>= f) e t = f (x e t).1.1 (x e t).1.2 (x e t).2 := rfl
  rw [unfolded, h]

theorem bind_ok {x : ExceptT ε Building α} {f : α → ExceptT ε Building β} {a : α}
    (h : x e t = ((.ok a, e'), t')) : (x >>= f) e t = f a e' t' := by
  have unfolded : (x >>= f) e t = ExceptT.bindCont f (x e t).1.1 (x e t).1.2 (x e t).2 := rfl
  rw [unfolded, h]
  rfl

theorem bind_error {x : ExceptT ε Building α} {f : α → ExceptT ε Building β} {fault : ε}
    (h : x e t = ((.error fault, e'), t')) : (x >>= f) e t = ((.error fault, e'), t') := by
  have unfolded : (x >>= f) e t = ExceptT.bindCont f (x e t).1.1 (x e t).1.2 (x e t).2 := rfl
  rw [unfolded, h]
  rfl

theorem lift_ok {x : Building α} {a : α} (h : x e t = ((a, e'), t')) :
    (ExceptT.lift x : ExceptT ε Building α) e t = ((.ok a, e'), t') := by
  have unfolded : (ExceptT.lift x : ExceptT ε Building α) e t =
      ((.ok (x e t).1.1, (x e t).1.2), (x e t).2) := rfl
  rw [unfolded, h]

/-- What making the folders above a path does to a tree. -/
def makeParents (path : String) (t : FileTree) : Except SynthesisError Unit × FileTree :=
  match (Path.parent? path).filter (!·.isEmpty) with
  | none => (.ok (), t)
  | some folder => ((t.makeFolders folder).1.mapError (writeFault path), (t.makeFolders folder).2)

def prepare (overwrite : Bool) (path : String) (t : FileTree) :
    Except SynthesisError Unit × FileTree :=
  if t.contains path then
    if overwrite then
      match t.remove path with
      | .ok t => makeParents path t
      | .error fault => (.error (writeFault path fault), t)
    else (.error (.artifactExists path), t)
  else makeParents path t

theorem notify_apply (deliver : Nat → Event → Building Unit) (event : Event) (t : FileTree)
    (alone : e.subscriptions = []) :
    notify deliver event e t = (((), e), t) := by
  have nobody : e.subscribers event.channel = [] := by
    unfold Engine.subscribers
    rw [alone]
    rfl
  show ((e.subscribers event.channel).forM (deliver · event)) e t = _
  rw [nobody]
  rfl

/-! ### Files -/

theorem contains_apply (path : String) :
    (FileSystem.contains path : Building Bool) e t = ((t.contains path, e), t) := rfl

theorem change_apply (f : FileTree → Except FileFault FileTree) :
    (MonadLift.monadLift (FileTree.change f) : Building _) e t =
      match f t with
      | .ok t => ((.ok (), e), t)
      | .error fault => ((.error fault, e), t) := by
  have unfolded : (MonadLift.monadLift (FileTree.change f) : Building _) e t =
      (((FileTree.change f t).1, e), (FileTree.change f t).2) := rfl
  rw [unfolded, FileTree.change]
  cases f t <;> rfl

theorem remove_apply (path : String) : (FileSystem.remove path : Building _) e t =
    match t.remove path with
    | .ok t => ((.ok (), e), t)
    | .error fault => ((.error fault, e), t) :=
  change_apply (·.remove path)

theorem write_apply (path : String) (bytes : List UInt8) :
    (FileSystem.write path bytes : Building _) e t =
      match t.write path bytes with
      | .ok t => ((.ok (), e), t)
      | .error fault => ((.error fault, e), t) :=
  change_apply (·.write path bytes)

theorem makeParents_apply (path : String) :
    (match (Path.parent? path).filter (!·.isEmpty) with
      | none => pure ()
      | some folder => do
        let made ← (FileSystem.makeFolders folder : Building _)
        ExceptT.mk (pure (made.mapError (writeFault path))) :
      ExceptT SynthesisError Building Unit) e t =
        (((makeParents path t).1, e), (makeParents path t).2) := by
  unfold makeParents
  cases (Path.parent? path).filter (!·.isEmpty) <;> rfl

theorem preparePath_apply (deliver : Nat → Event → Building Unit) (overwrite : Bool)
    (path : String) (t : FileTree) (alone : e.subscriptions = []) :
    preparePath deliver overwrite path e t =
      (((prepare overwrite path t).1, e), (prepare overwrite path t).2) := by
  unfold preparePath prepare
  refine (bind_ok (lift_ok (contains_apply path))).trans ?_
  by_cases present : t.contains path
  · rw [if_pos present, if_pos present]
    cases overwrite with
    | false => rfl
    | true =>
      rw [if_neg nofun, if_pos rfl]
      have removed := remove_apply (e := e) (t := t) path
      cases found : t.remove path with
      | ok rest =>
        rw [found] at removed
        exact (bind_ok (lift_ok removed)).trans (makeParents_apply path)
      | error fault =>
        rw [found] at removed
        have told := notify_apply deliver (.deleteConflict path (writeFault path fault)) t alone
        exact (bind_ok (lift_ok removed)).trans (bind_ok (lift_ok told))
  · rw [if_neg present, if_neg present]
    exact makeParents_apply path

/-- What bringing an artifact's bytes under a path does to a tree. -/
def save (overwrite : Bool) (path : String) (bytes : List UInt8) (t : FileTree) :
    Except SynthesisError Unit × FileTree :=
  match prepare overwrite path t with
  | (.error error, t) => (.error error, t)
  | (.ok (), t) =>
    match t.write path bytes with
    | .ok t => (.ok (), t)
    | .error fault => (.error (writeFault path fault), t)

/-! ### What saving changes -/

/-- The path arrives at the place on its way, before its last name. -/
def Above (path : String) (place : Place) : Prop :=
  ∃ route, FileTree.routeOf path = .ok route ∧
    place ∈ FileTree.arrivals [] route.names.dropLast

theorem entry?_makeParents {route : FileTree.Route} (named : FileTree.routeOf path = .ok route)
    (q : Place) : FileTree.entry? (makeParents path t).2 q = t.entry? q ∨
      Above path q ∧ t.entry? q = none ∧ FileTree.entry? (makeParents path t).2 q = some .folder := by
  unfold makeParents
  split
  case h_1 => exact .inl rfl
  case h_2 folder isParent =>
    dsimp only
    unfold FileTree.makeFolders
    split
    case h_1 => exact .inl rfl
    case h_2 above named' =>
      have parent := Option.eq_some_of_filter_eq_some isParent
      have names := FileTree.names_of_parent parent named named'
      obtain same | ⟨onWay, missing, made⟩ := FileTree.entry?_makeAlong t [] above.names q
      · exact .inl same
      · exact .inr ⟨⟨route, named, names ▸ onWay⟩, missing, made⟩

theorem fault_of_makeParents {error : SynthesisError}
    (failed : (makeParents path t).1 = .error error) : ∃ fault, error = writeFault path fault := by
  unfold makeParents at failed
  split at failed
  case h_1 => cases failed
  case h_2 folder _ =>
    dsimp only at failed
    cases made : (t.makeFolders folder).1 with
    | ok => rw [made] at failed; cases failed
    | error fault =>
      rw [made] at failed
      cases failed
      exact ⟨fault, rfl⟩

theorem grounded_makeParents (grounded : t.Grounded) : (makeParents path t).2.Grounded := by
  unfold makeParents
  split
  · exact grounded
  · exact grounded.makeFolders

/-- The tree in which the folders above a path are made: an old artifact is gone if it may go. -/
def Cleared (overwrite : Bool) (path : String) (t cleared : FileTree) : Prop :=
  (t.contains path = false ∧ cleared = t) ∨ (overwrite = true ∧ t.remove path = .ok cleared)

/-- All that preparing a path can come to. -/
theorem prepare_cases (overwrite : Bool) (path : String) (t : FileTree) :
    prepare overwrite path t = (.error (.artifactExists path), t) ∨
      (∃ fault, prepare overwrite path t = (.error (writeFault path fault), t)) ∨
      ∃ cleared, Cleared overwrite path t cleared ∧
        prepare overwrite path t = makeParents path cleared := by
  unfold prepare
  cases present : t.contains path with
  | false => exact .inr (.inr ⟨t, .inl ⟨present, rfl⟩, rfl⟩)
  | true =>
    cases overwrite with
    | false => exact .inl rfl
    | true =>
      cases removed : t.remove path with
      | ok cleared => exact .inr (.inr ⟨cleared, .inr ⟨rfl, removed⟩, rfl⟩)
      | error fault => exact .inr (.inl ⟨fault, rfl⟩)

/-- The path steps up on its way, and it leads nowhere. -/
def StepsPastMissing (t : FileTree) (path : String) : Prop :=
  ∃ route fault, FileTree.routeOf path = .ok route ∧ ".." ∈ route.names ∧
    t.placeOf path = .error fault

/-- One tree came of another by saving bytes under a path. -/
structure Saved (overwrite : Bool) (path : String) (bytes : List UInt8) (before after : FileTree) :
    Prop where
  reads : after.read path = .ok bytes
  /-- Only the file and missing folders above it are new. The file was not there before, unless it may
  be overwritten or could not be seen. -/
  changes : ∃ place, after.placeOf path = .ok (place, false) ∧
    (∀ q, q ≠ place → after.entry? q = before.entry? q ∨
      Above path q ∧ before.entry? q = none ∧ after.entry? q = some .folder) ∧
    (overwrite = true ∨ before.entry? place = none ∨ StepsPastMissing before path)

theorem Cleared.others {cleared : FileTree} {place : Place} {folderOnly : Bool}
    (h : Cleared overwrite path t cleared) (leads : t'.placeOf path = .ok (place, folderOnly))
    {q : Place} (apart : q ≠ place) : cleared.entry? q = t.entry? q := by
  obtain ⟨-, rfl⟩ | ⟨-, removed⟩ := h
  · rfl
  · obtain ⟨gone, bytes, flag, led, -, rfl⟩ := FileTree.of_remove removed
    obtain ⟨rfl, -⟩ := FileTree.place_eq_of_placeOf led leads
    exact FileTree.entry?_erase_of_ne apart

theorem Cleared.grounded {cleared : FileTree} (h : Cleared overwrite path t cleared)
    (grounded : t.Grounded) : cleared.Grounded := by
  obtain ⟨-, rfl⟩ | ⟨-, removed⟩ := h
  · exact grounded
  · exact grounded.remove removed

/-- A path that was looked at and found empty has nothing at its place if it led there before. -/
theorem entry?_of_unseen (grounded : t.Grounded) (unseen : t.contains path = false) {place : Place}
    (leads : t'.placeOf path = .ok (place, false)) :
    t.entry? place = none ∨ StepsPastMissing t path := by
  cases led : t.placeOf path with
  | ok found =>
    obtain ⟨place', folderOnly⟩ := found
    obtain ⟨rfl, rfl⟩ := FileTree.place_eq_of_placeOf led leads
    left
    cases here : t.entry? place' with
    | none => rfl
    | some e =>
      unfold FileTree.contains at unseen
      rw [FileTree.find_of_entry led here] at unseen
      cases unseen
  | error fault =>
    obtain ⟨route, named, followed, -⟩ := FileTree.placeOf_eq_ok_iff.1 leads
    by_cases level : ".." ∈ route.names
    · exact .inr ⟨route, fault, named, level, led⟩
    · left
      cases here : t.entry? place with
      | none => rfl
      | some e =>
        have walked := (FileTree.follow_eq_ok_iff.1 followed).1
        have followed' := grounded.follow_of_entry level walked (here ▸ rfl)
        have led' := FileTree.placeOf_eq_ok_iff.2 ⟨route, named, followed', rfl⟩
        rw [led] at led'
        cases led'

theorem grounded_save (grounded : t.Grounded) : (save overwrite path bytes t).2.Grounded := by
  unfold save
  obtain refused | ⟨fault, failed⟩ | ⟨cleared, isCleared, made⟩ := prepare_cases overwrite path t
  · rw [refused]
    exact grounded
  · rw [failed]
    exact grounded
  · rw [made]
    have rest : (makeParents path cleared).2.Grounded :=
      grounded_makeParents (isCleared.grounded grounded)
    split
    case h_1 error after same => rwa [same] at rest
    case h_2 after same =>
      rw [same] at rest
      split
      case h_1 written => exact rest.write written
      case h_2 => exact rest

/-- Saving is refused because something is there, fails in writing, or writes below folders that were
made. -/
theorem save_cases (overwrite : Bool) (path : String) (bytes : List UInt8) (t : FileTree) :
    save overwrite path bytes t = (.error (.artifactExists path), t) ∨
      (∃ fault after, save overwrite path bytes t = (.error (writeFault path fault), after)) ∨
      ∃ cleared prepared after, Cleared overwrite path t cleared ∧
        makeParents path cleared = (.ok (), prepared) ∧ prepared.write path bytes = .ok after ∧
        save overwrite path bytes t = (.ok (), after) := by
  unfold save
  obtain refused | ⟨fault, failed⟩ | ⟨cleared, isCleared, made⟩ := prepare_cases overwrite path t
  · rw [refused]
    exact .inl rfl
  · rw [failed]
    exact .inr (.inl ⟨fault, t, rfl⟩)
  · rw [made]
    right
    cases result : (makeParents path cleared).1 with
    | error error =>
      obtain ⟨fault, rfl⟩ := fault_of_makeParents result
      have whole : makeParents path cleared =
        (.error (writeFault path fault), (makeParents path cleared).2) := Prod.ext result rfl
      rw [whole]
      exact .inl ⟨fault, _, rfl⟩
    | ok =>
      have whole : makeParents path cleared = (.ok (), (makeParents path cleared).2) :=
        Prod.ext result rfl
      rw [whole]
      dsimp only
      cases written : (makeParents path cleared).2.write path bytes with
      | error fault => exact .inl ⟨fault, _, rfl⟩
      | ok after => exact .inr ⟨cleared, _, after, isCleared, whole, written, rfl⟩

theorem save_of_prepare {place : Place} (prepared : prepare overwrite path t = (.ok (), t'))
    (leads : t'.placeOf path = .ok (place, false)) (notFolder : t'.entry? place ≠ some .folder) :
    save overwrite path bytes t = (.ok (), t'.put place (.file bytes)) := by
  unfold save
  rw [prepared]
  dsimp only
  rw [FileTree.write_of_entry leads notFolder]

theorem saved_of_save (grounded : t.Grounded) (saved : save overwrite path bytes t = (.ok (), t')) :
    Saved overwrite path bytes t t' := by
  obtain refused | ⟨fault, after, failed⟩ | ⟨cleared, prepared, after, isCleared, made, written, same⟩ :=
    save_cases overwrite path bytes t
  · rw [refused] at saved
    cases saved
  · rw [failed] at saved
    cases saved
  · rw [same] at saved
    cases saved
    refine ⟨FileTree.read_of_write written, ?_⟩
    obtain ⟨place, leads, notFolder, rfl⟩ := FileTree.of_write written
    have stays (q : Place) (apart : q ≠ place) :
        FileTree.entry? (prepared.put place (.file bytes)) q = prepared.entry? q :=
      FileTree.entry?_put_of_ne apart
    refine ⟨place, FileTree.placeOf_of_others leads notFolder stays, fun q apart => ?_, ?_⟩
    · obtain ⟨route, named, -⟩ := FileTree.placeOf_eq_ok_iff.1 leads
      rw [stays q apart, ← isCleared.others leads apart]
      have frame := entry?_makeParents (t := cleared) named q
      rwa [made] at frame
    · obtain ⟨unseen, -⟩ | ⟨allowed, -⟩ := isCleared
      · exact .inr (entry?_of_unseen grounded unseen leads)
      · exact .inl allowed

end FluentWrappers.Build
