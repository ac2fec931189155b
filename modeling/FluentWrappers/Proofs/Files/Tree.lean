import FluentWrappers.Files.Tree
import Mathlib.Data.List.Induction

/-!
# What operations change in a file tree

Where a path leads depends on its names alone; the tree only says whether every place that it departs
from is a folder. Making folders adds folders where nothing was, on the way of the path; writing and
removing change a single place. If every entry stands in a folder, a path that never steps up and
leads nowhere has nothing at its place.
-/

namespace FluentWrappers.FileTree

variable {t t' : FileTree} {place start other : Place} {e : Entry} {names : List String}
  {path : String} {bytes : List UInt8} {fault : FileFault}

/-! ### Entries -/

theorem entry?_of_ne_nil (below : place ≠ []) : t.entry? place = t.entries.lookup place := by
  unfold entry?
  rw [if_neg (by rwa [List.isEmpty_iff])]

theorem lookup_replace_self {entries : List (Place × Entry)}
    (present : (entries.lookup place).isSome) :
    (entries.map fun (key, old) => if key == place then (key, e) else (key, old)).lookup place =
      some e := by
  induction entries with
  | nil => cases present
  | cons entry rest ih =>
    obtain ⟨key, old⟩ := entry
    rw [List.map_cons]
    by_cases same : key = place
    · subst same
      simp only [beq_self_eq_true, if_true, List.lookup_cons_self]
    · have differs : (place == key) = false := beq_eq_false_iff_ne.2 (Ne.symm same)
      have differs' : (key == place) = false := beq_eq_false_iff_ne.2 same
      rw [List.lookup_cons, differs] at present
      simp only [differs', Bool.false_eq_true, if_false, List.lookup_cons, differs]
      exact ih present

theorem lookup_replace_of_ne {entries : List (Place × Entry)} (apart : other ≠ place) :
    (entries.map fun (key, old) => if key == place then (key, e) else (key, old)).lookup other =
      entries.lookup other := by
  induction entries with
  | nil => rfl
  | cons entry rest ih =>
    obtain ⟨key, old⟩ := entry
    rw [List.map_cons]
    by_cases same : key = place
    · subst same
      have differs : (other == key) = false := beq_eq_false_iff_ne.2 apart
      simp only [beq_self_eq_true, if_true, List.lookup_cons, differs]
      exact ih
    · have differs : (key == place) = false := beq_eq_false_iff_ne.2 same
      simp only [differs, Bool.false_eq_true, if_false, List.lookup_cons, ih]

theorem lookup_eq_none_of_erased {entries : List (Place × Entry)} :
    (entries.filter fun (key, _) => key != place).lookup place = none := by
  rw [List.lookup_eq_none_iff]
  intro entry isIn
  obtain ⟨-, differs⟩ := List.mem_filter.1 isIn
  exact bne_iff_ne.2 (Ne.symm (bne_iff_ne.1 differs))

theorem entry?_put_self (below : place ≠ []) : FileTree.entry? (t.put place e) place = some e := by
  rw [entry?_of_ne_nil below]
  unfold put
  split
  case isTrue present => exact lookup_replace_self present
  case isFalse absent =>
    have missing : t.entries.lookup place = none := Option.not_isSome_iff_eq_none.1 absent
    rw [List.lookup_append, missing, List.lookup_cons_self]
    rfl

theorem entry?_put_of_ne (apart : other ≠ place) :
    FileTree.entry? (t.put place e) other = t.entry? other := by
  have found : (t.put place e).entries.lookup other = t.entries.lookup other := by
    unfold put
    split
    case isTrue => exact lookup_replace_of_ne apart
    case isFalse =>
      have differs : (other == place) = false := beq_eq_false_iff_ne.2 apart
      rw [List.lookup_append, List.lookup_cons, differs]
      exact Option.or_none
  unfold entry?
  rw [found]

theorem entry?_erase_self (below : place ≠ []) : FileTree.entry? (t.erase place) place = none := by
  rw [entry?_of_ne_nil below]
  exact lookup_eq_none_of_erased

theorem entry?_erase_of_ne (apart : other ≠ place) :
    FileTree.entry? (t.erase place) other = t.entry? other := by
  have found : (t.erase place).entries.lookup other = t.entries.lookup other := by
    unfold erase
    dsimp only
    induction t.entries with
    | nil => rfl
    | cons entry rest ih =>
      obtain ⟨key, old⟩ := entry
      by_cases same : key = place
      · have differs : (other == key) = false := beq_eq_false_iff_ne.2 (same ▸ apart)
        rw [List.filter_cons_of_neg (by simp [same]), List.lookup_cons, differs, ih]
      · rw [List.filter_cons_of_pos (by simp [same]), List.lookup_cons, List.lookup_cons, ih]
  unfold entry?
  rw [found]

/-! ### Ways -/

/-- The place that names lead to, whatever is on the way. -/
def walk (start : Place) : List String → Except FileFault Place
  | [] => .ok start
  | name :: rest =>
    match stepTo start name with
    | .ok place => walk place rest
    | .error fault => .error fault

/-- The places that names depart from, one for each name up to the first that leads nowhere. -/
def departures (start : Place) : List String → List Place
  | [] => []
  | name :: rest =>
    match stepTo start name with
    | .ok place => start :: departures place rest
    | .error _ => [start]

/-- The places that names arrive at. -/
def arrivals (start : Place) : List String → List Place
  | [] => []
  | name :: rest =>
    match stepTo start name with
    | .ok place => place :: arrivals place rest
    | .error _ => []

theorem follow_cons_of_folder {name : String} {next : Place} (folder : t.entry? start = some .folder)
    (step : stepTo start name = .ok next) (rest : List String) :
    t.follow start (name :: rest) = t.follow next rest := by
  rw [follow, folder, step]
  rfl

theorem follow_eq_ok_iff : t.follow start names = .ok place ↔
    walk start names = .ok place ∧ ∀ q ∈ departures start names, t.entry? q = some .folder := by
  induction names generalizing start with
  | nil => simp [follow, walk, departures]
  | cons name rest ih =>
    cases step : stepTo start name with
    | error fault =>
      constructor
      · intro followed
        unfold follow at followed
        split at followed
        · cases followed
        · cases followed
        · rw [step] at followed
          cases followed
      · rintro ⟨walked, -⟩
        rw [walk, step] at walked
        cases walked
    | ok next =>
      rw [walk, departures, step]
      simp only [List.forall_mem_cons]
      constructor
      · intro followed
        have folder : t.entry? start = some .folder := by
          unfold follow at followed
          split at followed
          · cases followed
          · cases followed
          · assumption
        rw [follow_cons_of_folder folder step] at followed
        obtain ⟨walked, folders⟩ := ih.1 followed
        exact ⟨walked, folder, folders⟩
      · rintro ⟨walked, folder, folders⟩
        rw [follow_cons_of_folder folder step]
        exact ih.2 ⟨walked, folders⟩

/-! ### Made folders -/

/-- What is at a place stays, unless nothing was there and the names arrive there. -/
theorem entry?_makeAlong (t : FileTree) (start : Place) (names : List String) (q : Place) :
    FileTree.entry? (t.makeAlong start names).2 q = t.entry? q ∨
      q ∈ arrivals start names ∧ t.entry? q = none ∧
        FileTree.entry? (t.makeAlong start names).2 q = some .folder := by
  induction names generalizing t start with
  | nil => exact .inl rfl
  | cons name rest ih =>
    rw [makeAlong, arrivals]
    cases step : stepTo start name with
    | error fault => exact .inl rfl
    | ok next =>
      dsimp only
      split
      case h_1 folder =>
        obtain same | ⟨onWay, missing, made⟩ := ih t next
        · exact .inl same
        · exact .inr ⟨List.mem_cons_of_mem next onWay, missing, made⟩
      case h_2 => exact .inl rfl
      case h_3 missing =>
        have below : next ≠ [] := by
          rintro rfl
          cases missing
        -- the hypothesis speaks of the tree in which the first folder is made already
        obtain same | ⟨onWay, missing', made⟩ := ih (t.put next .folder) next
        · by_cases here : q = next
          · subst here
            rw [entry?_put_self below] at same
            exact .inr ⟨List.mem_cons_self, missing, same⟩
          · rw [entry?_put_of_ne here] at same
            exact .inl same
        · have apart : q ≠ next := by
            rintro rfl
            rw [entry?_put_self below] at missing'
            cases missing'
          rw [entry?_put_of_ne apart] at missing'
          exact .inr ⟨List.mem_cons_of_mem next onWay, missing', made⟩

/-! ### Where a path leads -/

theorem placeOf_eq_ok_iff {folderOnly : Bool} : t.placeOf path = .ok (place, folderOnly) ↔
    ∃ route, routeOf path = .ok route ∧ t.follow [] route.names = .ok place ∧
      route.folderOnly = folderOnly := by
  unfold placeOf
  cases named : routeOf path with
  | error fault => exact ⟨nofun, nofun⟩
  | ok route =>
    show (t.follow [] route.names >>= fun place => pure (place, route.folderOnly)) = _ ↔ _
    cases followed : t.follow [] route.names with
    | error fault =>
      constructor
      · nofun
      · rintro ⟨other, same, leads, -⟩
        cases same
        rw [followed] at leads
        cases leads
    | ok found =>
      constructor
      · intro same
        cases same
        exact ⟨route, rfl, followed, rfl⟩
      · rintro ⟨other, same, leads, folderOnly⟩
        cases same
        rw [followed] at leads
        cases leads
        rw [← folderOnly]
        rfl

/-- Where a path leads does not depend on the tree. -/
theorem place_eq_of_placeOf {folderOnly folderOnly' : Bool}
    (leads : t.placeOf path = .ok (place, folderOnly))
    (leads' : t'.placeOf path = .ok (other, folderOnly')) :
    place = other ∧ folderOnly = folderOnly' := by
  obtain ⟨route, named, followed, rfl⟩ := placeOf_eq_ok_iff.1 leads
  obtain ⟨route', named', followed', rfl⟩ := placeOf_eq_ok_iff.1 leads'
  rw [named] at named'
  cases named'
  have walked := (follow_eq_ok_iff.1 followed).1
  have walked' := (follow_eq_ok_iff.1 followed').1
  rw [walked] at walked'
  cases walked'
  exact ⟨rfl, rfl⟩

theorem of_find {entry : Entry} (found : t.find path = .ok (place, entry)) :
    t.entry? place = some entry ∧ ∃ folderOnly, t.placeOf path = .ok (place, folderOnly) := by
  unfold find at found
  cases leads : t.placeOf path with
  | error fault =>
    rw [leads] at found
    cases found
  | ok led =>
    obtain ⟨place', folderOnly⟩ := led
    rw [leads] at found
    dsimp only [bind, Except.bind] at found
    split at found
    case h_1 => cases found
    case h_2 here =>
      cases found
      exact ⟨here, folderOnly, rfl⟩
    case h_3 here =>
      split at found
      · cases found
      · cases found
        exact ⟨here, folderOnly, rfl⟩

theorem find_of_entry (leads : t.placeOf path = .ok (place, false))
    (here : t.entry? place = some e) : t.find path = .ok (place, e) := by
  unfold find
  rw [leads]
  dsimp only [bind, Except.bind]
  rw [here]
  cases e <;> rfl

/-! ### Single changes -/

theorem of_write (written : t.write path bytes = .ok t') : ∃ place,
    t.placeOf path = .ok (place, false) ∧ t.entry? place ≠ some .folder ∧
      t' = t.put place (.file bytes) := by
  unfold write at written
  cases leads : t.placeOf path with
  | error fault =>
    rw [leads] at written
    cases written
  | ok led =>
    obtain ⟨place, folderOnly⟩ := led
    rw [leads] at written
    dsimp only [bind, Except.bind] at written
    have notFolder : t.entry? place ≠ some .folder := by
      intro folder
      rw [folder] at written
      cases written
    cases folderOnly with
    | true => split at written <;> cases written
    | false =>
      refine ⟨place, rfl, notFolder, ?_⟩
      split at written <;> cases written <;> rfl

theorem write_of_entry (leads : t.placeOf path = .ok (place, false))
    (notFolder : t.entry? place ≠ some .folder) :
    t.write path bytes = .ok (t.put place (.file bytes)) := by
  unfold write
  rw [leads]
  dsimp only [bind, Except.bind]
  split
  case h_1 folder => exact absurd folder notFolder
  case h_2 => rfl
  case h_3 => rfl

theorem of_remove (removed : t.remove path = .ok t') : ∃ place bytes folderOnly,
    t.placeOf path = .ok (place, folderOnly) ∧ t.entry? place = some (.file bytes) ∧
      t' = t.erase place := by
  unfold remove at removed
  cases found : t.find path with
  | error fault =>
    rw [found] at removed
    cases removed
  | ok result =>
    obtain ⟨place, entry⟩ := result
    rw [found] at removed
    obtain ⟨here, folderOnly, leads⟩ := of_find found
    cases entry with
    | folder => cases removed
    | file bytes =>
      cases removed
      exact ⟨place, bytes, folderOnly, leads, here, rfl⟩

theorem ne_nil_of_entry (notFolder : t.entry? place ≠ some .folder) : place ≠ [] := by
  rintro rfl
  exact notFolder rfl

/-- A place that is no folder can change without a path to it being lost. -/
theorem placeOf_of_others {folderOnly : Bool} (leads : t.placeOf path = .ok (place, folderOnly))
    (notFolder : t.entry? place ≠ some .folder)
    (others : ∀ q, q ≠ place → t'.entry? q = t.entry? q) :
    t'.placeOf path = .ok (place, folderOnly) := by
  obtain ⟨route, named, followed, flag⟩ := placeOf_eq_ok_iff.1 leads
  obtain ⟨walked, folders⟩ := follow_eq_ok_iff.1 followed
  refine placeOf_eq_ok_iff.2 ⟨route, named, follow_eq_ok_iff.2 ⟨walked, fun q departs => ?_⟩, flag⟩
  have folder := folders q departs
  rw [others q fun same => notFolder (same ▸ folder)]
  exact folder

theorem read_of_write (written : t.write path bytes = .ok t') : t'.read path = .ok bytes := by
  obtain ⟨place, leads, notFolder, rfl⟩ := of_write written
  have here : FileTree.entry? (t.put place (.file bytes)) place = some (.file bytes) :=
    entry?_put_self (ne_nil_of_entry notFolder)
  have leads' := placeOf_of_others leads notFolder fun q apart => entry?_put_of_ne (e := .file bytes) apart
  unfold read
  rw [find_of_entry leads' here]
  rfl

/-! ### Grounded trees -/

/-- Every entry stands in a folder. -/
def Grounded (t : FileTree) : Prop :=
  ∀ place, ( t.entry? place).isSome → t.entry? place.dropLast = some .folder

theorem grounded_of_entries
    (inFolders : ∀ entry ∈ t.entries, t.entry? entry.1.dropLast = some .folder) : t.Grounded := by
  intro place present
  by_cases top : place = []
  · rw [top]
    rfl
  · rw [entry?_of_ne_nil top] at present
    obtain ⟨e, found⟩ := Option.isSome_iff_exists.1 present
    obtain ⟨before, after, split, -⟩ := List.lookup_eq_some_iff.1 found
    exact inFolders (place, e) (split ▸ List.mem_append_right before List.mem_cons_self)

namespace Grounded

theorem put (grounded : t.Grounded) (inFolder : t.entry? place.dropLast = some .folder)
    (notFolder : t.entry? place ≠ some .folder) : (t.put place e).Grounded := by
  have below := ne_nil_of_entry notFolder
  have keeps {q : Place} (folder : t.entry? q = some .folder) :
      FileTree.entry? (t.put place e) q = some .folder := by
    rw [entry?_put_of_ne fun same : q = place => notFolder (same ▸ folder)]
    exact folder
  intro q present
  by_cases here : q = place
  · subst here
    exact keeps inFolder
  · rw [entry?_put_of_ne here] at present
    exact keeps (grounded q present)

theorem erase (grounded : t.Grounded) (isFile : t.entry? place = some (.file bytes)) :
    (t.erase place).Grounded := by
  have notFolder : t.entry? place ≠ some .folder := by
    rw [isFile]
    nofun
  have below := ne_nil_of_entry notFolder
  intro q present
  by_cases here : q = place
  · rw [here, entry?_erase_self below] at present
    cases present
  · rw [entry?_erase_of_ne here] at present
    have folder := grounded q present
    rw [entry?_erase_of_ne fun same : q.dropLast = place => notFolder (same ▸ folder)]
    exact folder

/-- One step from a folder arrives at a place in a folder. -/
theorem step {name : String} {next : Place} (grounded : t.Grounded)
    (folder : t.entry? start = some .folder) (step : stepTo start name = .ok next) :
    t.entry? next.dropLast = some .folder := by
  unfold stepTo at step
  have above : t.entry? start.dropLast = some .folder := grounded start (folder ▸ rfl)
  split at step
  · split at step
    · cases step
    · cases step
      exact grounded _ (above ▸ rfl)
  · split at step
    · cases step
    · cases step
      rw [List.dropLast_concat]
      exact folder

theorem makeAlong (grounded : t.Grounded) (folder : t.entry? start = some .folder) :
    (t.makeAlong start names).2.Grounded := by
  induction names generalizing t start with
  | nil => exact grounded
  | cons name rest ih =>
    rw [FileTree.makeAlong]
    cases isStep : stepTo start name with
    | error fault => exact grounded
    | ok next =>
      dsimp only
      split
      case h_1 here => exact ih grounded here
      case h_2 => exact grounded
      case h_3 missing =>
        have inFolder := grounded.step folder isStep
        have notFolder : t.entry? next ≠ some .folder := by
          rw [missing]
          nofun
        exact ih (grounded.put inFolder notFolder) (entry?_put_self (ne_nil_of_entry notFolder))

theorem inFolder_of_follow (grounded : t.Grounded) (inFolder : t.entry? start.dropLast = some .folder)
    (followed : t.follow start names = .ok place) : t.entry? place.dropLast = some .folder := by
  induction names generalizing start with
  | nil =>
    cases followed
    exact inFolder
  | cons name rest ih =>
    obtain ⟨walked, folders⟩ := follow_eq_ok_iff.1 followed
    cases isStep : stepTo start name with
    | error fault =>
      rw [walk, isStep] at walked
      cases walked
    | ok next =>
      rw [departures, isStep] at folders
      have folder := folders start List.mem_cons_self
      rw [follow_cons_of_folder folder isStep] at followed
      exact ih (grounded.step folder isStep) followed

theorem write (grounded : t.Grounded) (written : t.write path bytes = .ok t') : t'.Grounded := by
  obtain ⟨place, leads, notFolder, rfl⟩ := of_write written
  obtain ⟨route, -, followed, -⟩ := placeOf_eq_ok_iff.1 leads
  exact grounded.put (grounded.inFolder_of_follow rfl followed) notFolder

theorem remove (grounded : t.Grounded) (removed : t.remove path = .ok t') : t'.Grounded := by
  obtain ⟨place, bytes, folderOnly, -, isFile, rfl⟩ := of_remove removed
  exact grounded.erase isFile

theorem makeFolders (grounded : t.Grounded) : (t.makeFolders path).2.Grounded := by
  unfold FileTree.makeFolders
  split
  · exact grounded
  · exact grounded.makeAlong rfl

/-! ### Paths that never step up -/

theorem folder_above (grounded : t.Grounded) {more : List String} (deeper : more ≠ [])
    (present : ( t.entry? (start ++ more)).isSome) : t.entry? start = some .folder := by
  induction more using List.reverseRecOn with
  | nil => exact absurd rfl deeper
  | append_singleton more name ih =>
    have folder := grounded _ present
    rw [← List.append_assoc, List.dropLast_concat] at folder
    by_cases last : more = []
    · rwa [last, List.append_nil] at folder
    · exact ih last (folder ▸ rfl)

end Grounded

theorem eq_append_of_stepTo {name : String} {next : Place} (level : name ≠ "..")
    (step : stepTo start name = .ok next) : next = start ++ [name] := by
  unfold stepTo at step
  rw [if_neg level] at step
  split at step <;> cases step
  rfl

theorem walk_of_level (level : ".." ∉ names) (walked : walk start names = .ok place) :
    place = start ++ names := by
  induction names generalizing start with
  | nil =>
    cases walked
    exact (List.append_nil _).symm
  | cons name rest ih =>
    cases step : stepTo start name with
    | error fault =>
      rw [walk, step] at walked
      cases walked
    | ok next =>
      rw [walk, step] at walked
      have isName : name ≠ ".." := fun same => level (same ▸ List.mem_cons_self)
      rw [ih (fun isIn => level (List.mem_cons_of_mem name isIn)) walked,
        eq_append_of_stepTo isName step, List.append_assoc, List.singleton_append]

/-- If something is at the place that names lead to, they lead there through folders, unless they step
up on the way. -/
theorem Grounded.follow_of_entry (grounded : t.Grounded) (level : ".." ∉ names)
    (walked : walk start names = .ok place) (present : ( t.entry? place).isSome) :
    t.follow start names = .ok place := by
  induction names generalizing start with
  | nil => exact walked
  | cons name rest ih =>
    have whole := walk_of_level level walked
    have folder : t.entry? start = some .folder :=
      grounded.folder_above (List.cons_ne_nil name rest) (whole ▸ present)
    cases step : stepTo start name with
    | error fault =>
      rw [walk, step] at walked
      cases walked
    | ok next =>
      rw [walk, step] at walked
      rw [follow_cons_of_folder folder step]
      exact ih (fun isIn => level (List.mem_cons_of_mem name isIn)) walked

end FluentWrappers.FileTree
