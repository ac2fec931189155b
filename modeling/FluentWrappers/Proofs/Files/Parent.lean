import FluentWrappers.Files.Tree
import Mathlib.Data.List.TakeWhile

/-!
# Parents of paths

The parent of a path is found in its text, from the end: idle components go, then one that leads
somewhere, then idle ones again. So it leads along all names of the path but the last.
-/

namespace FluentWrappers

namespace Path

/-- The components that lead somewhere. -/
def names (path : List Char) : List (List Char) :=
  (splitAtSlashes path).filter fun component => !isIdle component

theorem splitAtSlashes_ne_nil (cs : List Char) : splitAtSlashes cs ≠ [] := by
  cases cs with
  | nil => exact List.cons_ne_nil _ _
  | cons c rest =>
    unfold splitAtSlashes
    split
    · exact List.cons_ne_nil _ _
    · split <;> exact List.cons_ne_nil _ _

theorem splitAtSlashes_append (before after : List Char) :
    splitAtSlashes (before ++ '/' :: after) = splitAtSlashes before ++ splitAtSlashes after := by
  induction before with
  | nil => rfl
  | cons c before ih =>
    rw [List.cons_append, splitAtSlashes, splitAtSlashes, ih]
    by_cases slash : c = '/'
    · rw [if_pos slash, if_pos slash, List.cons_append]
    · rw [if_neg slash, if_neg slash]
      cases parts : splitAtSlashes before with
      | nil => exact absurd parts (splitAtSlashes_ne_nil before)
      | cons first others => rfl

theorem splitAtSlashes_of_plain {cs : List Char} (plain : '/' ∉ cs) : splitAtSlashes cs = [cs] := by
  induction cs with
  | nil => rfl
  | cons c rest ih =>
    obtain ⟨isOther, plain⟩ := not_or.1 (mt List.mem_cons.2 plain)
    rw [splitAtSlashes, if_neg (Ne.symm isOther), ih plain]

theorem names_append (before after : List Char) :
    names (before ++ '/' :: after) = names before ++ names after := by
  rw [names, splitAtSlashes_append, List.filter_append]
  rfl

/-- The last component of a text that is read from its end. -/
def lastComponent (latestFirst : List Char) : List Char :=
  (latestFirst.takeWhile (· != '/')).reverse

/-- The names of a text are those before its last component and this one, if it leads somewhere. -/
theorem names_reverse (latestFirst : List Char) : names latestFirst.reverse =
    names (dropComponent latestFirst).reverse ++
      [lastComponent latestFirst].filter fun component => !isIdle component := by
  have plain : '/' ∉ lastComponent latestFirst := by
    intro isIn
    have isOther := List.mem_takeWhile_imp (List.mem_reverse.1 isIn)
    exact bne_iff_ne.1 isOther rfl
  have whole := List.takeWhile_append_dropWhile (p := (· != '/')) (l := latestFirst)
  cases rest : latestFirst.dropWhile (· != '/') with
  | nil =>
    rw [rest, List.append_nil] at whole
    have dropped : dropComponent latestFirst = [] := by rw [dropComponent, rest]; rfl
    have same : latestFirst.reverse = lastComponent latestFirst := by rw [lastComponent, whole]
    rw [dropped, same, names, splitAtSlashes_of_plain plain]
    rfl
  | cons c before =>
    have found : latestFirst.dropWhile (· != '/') ≠ [] := by
      rw [rest]
      exact List.cons_ne_nil c before
    have stop := List.head_dropWhile_not (· != '/') found
    simp only [rest, List.head_cons, bne_eq_false_iff_eq] at stop
    subst stop
    have dropped : dropComponent latestFirst = before := by rw [dropComponent, rest]; rfl
    have split : latestFirst.reverse = before.reverse ++ '/' :: lastComponent latestFirst := by
      rw [rest] at whole
      calc latestFirst.reverse
          = (latestFirst.takeWhile (· != '/') ++ '/' :: before).reverse := by rw [whole]
        _ = before.reverse ++ '/' :: lastComponent latestFirst := by
          rw [List.reverse_append, List.reverse_cons, List.append_assoc, lastComponent]
          rfl
    rw [dropped, split, names_append, names, names, splitAtSlashes_of_plain plain]

theorem names_dropIdle (latestFirst : List Char) :
    names (dropIdle latestFirst).reverse = names latestFirst.reverse := by
  fun_induction dropIdle latestFirst with
  | case1 => rfl
  | case2 c rest idle ih =>
    have isIdle' : isIdle (lastComponent (c :: rest)) = true := idle
    rw [ih, names_reverse (c :: rest), List.filter_cons_of_neg (by simp [isIdle'])]
    exact (List.append_nil _).symm
  | case3 => rfl

theorem not_isIdle_of_dropIdle {latestFirst : List Char} (left : dropIdle latestFirst ≠ []) :
    isIdle (lastComponent (dropIdle latestFirst)) = false := by
  fun_induction dropIdle latestFirst with
  | case1 => exact absurd rfl left
  | case2 c rest idle ih => exact ih left
  | case3 c rest leads => exact Bool.eq_false_iff.2 leads

theorem dropComponent_suffix (latestFirst : List Char) : dropComponent latestFirst <:+ latestFirst :=
  (List.drop_suffix 1 _).trans (List.dropWhile_suffix _)

theorem dropIdle_suffix (latestFirst : List Char) : dropIdle latestFirst <:+ latestFirst := by
  fun_induction dropIdle latestFirst with
  | case1 => exact List.suffix_refl _
  | case2 c rest idle ih => exact ih.trans (dropComponent_suffix _)
  | case3 => exact List.suffix_refl _

/-! ### Anchors -/

/-- A text that may stand after an anchor: after a dot, it is empty or starts with a slash. -/
def MayFollow (anchor text : List Char) : Prop :=
  anchor = [] ∨ anchor = ['/'] ∨ anchor = ['.'] ∧ ∀ c ∈ text.head?, c = '/'

theorem mayFollow_anchor (path : List Char) :
    MayFollow (path.take (anchorSize path)) (path.drop (anchorSize path)) := by
  unfold anchorSize
  split
  · exact .inr (.inl rfl)
  · exact .inr (.inr ⟨rfl, nofun⟩)
  · exact .inr (.inr ⟨rfl, fun c isHead => (Option.some.inj isHead).symm⟩)
  · exact .inl rfl

theorem MayFollow.of_prefix {anchor text start : List Char} (h : MayFollow anchor text)
    (isStart : start <+: text) : MayFollow anchor start := by
  obtain none | root | ⟨dot, slash⟩ := h
  · exact .inl none
  · exact .inr (.inl root)
  · refine .inr (.inr ⟨dot, fun c isHead => slash c ?_⟩)
    obtain ⟨more, rfl⟩ := isStart
    cases start with
    | nil => cases isHead
    | cons first rest => exact isHead

theorem names_of_mayFollow {anchor text : List Char} (h : MayFollow anchor text) :
    names (anchor ++ text) = names text := by
  obtain rfl | rfl | ⟨rfl, slash⟩ := h
  · rfl
  · exact names_append [] text
  · cases text with
    | nil => rfl
    | cons c rest =>
      obtain rfl := slash c rfl
      exact (names_append ['.'] rest).trans (names_append [] rest).symm

theorem names_parent? {path folder : String} (isParent : parent? path = some folder) :
    names folder.toList = (names path.toList).dropLast := by
  unfold parent? at isParent
  dsimp only at isParent
  let anchor := path.toList.take (anchorSize path.toList)
  let body := path.toList.drop (anchorSize path.toList)
  have anchored : MayFollow anchor body := mayFollow_anchor path.toList
  have whole : names path.toList = names (dropIdle body.reverse).reverse := by
    rw [names_dropIdle, List.reverse_reverse, ← names_of_mayFollow anchored,
      List.take_append_drop]
  split at isParent
  case h_1 idle =>
    split at isParent
    · cases isParent
      rw [whole, idle]
      rfl
    · cases isParent
  case h_2 leads =>
    cases isParent
    have last := not_isIdle_of_dropIdle leads
    have isStart : (dropIdle (dropComponent (dropIdle body.reverse))).reverse <+: body := by
      have isEnd := (dropIdle_suffix (dropComponent (dropIdle body.reverse))).trans
        ((dropComponent_suffix _).trans (dropIdle_suffix body.reverse))
      have isStart := List.reverse_prefix.2 isEnd
      rwa [List.reverse_reverse] at isStart
    have above : names (anchor ++ (dropIdle (dropComponent (dropIdle body.reverse))).reverse) =
        names (dropComponent (dropIdle body.reverse)).reverse := by
      rw [names_of_mayFollow (anchored.of_prefix isStart), names_dropIdle]
    rw [String.toList_ofList, whole, names_reverse (dropIdle body.reverse),
      List.filter_cons_of_pos (by rw [last]; rfl), List.filter_nil, List.dropLast_concat]
    exact above

end Path

namespace FileTree

theorem names_of_routeOf {path : String} {route : Route} (named : routeOf path = .ok route) :
    route.names = (Path.names path.toList).map String.ofList := by
  unfold routeOf at named
  dsimp only at named
  split at named
  · cases named
  · split at named
    · cases named
    · cases named
      rfl

/-- The way to the parent of a path is the way of the path without its last name. -/
theorem names_of_parent {path folder : String} {route above : Route}
    (isParent : Path.parent? path = some folder) (named : routeOf path = .ok route)
    (named' : routeOf folder = .ok above) : above.names = route.names.dropLast := by
  rw [names_of_routeOf named, names_of_routeOf named', Path.names_parent? isParent,
    List.map_dropLast]

end FileTree

end FluentWrappers
