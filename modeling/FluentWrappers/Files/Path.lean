/-!
# Paths (`SPEC_FULL.md`, 10.8, output path)

A path is a text of components divided by slashes. Empty components and single dots name the folder
that they stand in; a single dot counts as a component only at the start. Parents and joins keep the
text of what they do not touch.
-/

namespace FluentWrappers.Path

def splitAtSlashes : List Char → List (List Char)
  | [] => [[]]
  | c :: rest =>
    if c = '/' then [] :: splitAtSlashes rest
    else
      match splitAtSlashes rest with
      | first :: others => (c :: first) :: others
      | [] => [[c]]

/-- Whether a component leads nowhere else: it is empty or a single dot. -/
def isIdle (component : List Char) : Bool := component = [] || component = ['.']

/-! ### Joins -/

def isAbsolute (path : String) : Bool := path.toList.head? == some '/'

def join (folder file : String) : String :=
  if isAbsolute file || folder.isEmpty then file
  else if folder.toList.getLast? == some '/' then folder ++ file
  else folder ++ "/" ++ file

/-! ### Parents -/

/-- The start of a path that no component can take away: the root, or a dot at the start. -/
def anchorSize (path : List Char) : Nat :=
  match path with
  | '/' :: _ => 1
  | ['.'] => 1
  | '.' :: '/' :: _ => 1
  | _ => 0

def dropComponent (latestFirst : List Char) : List Char :=
  (latestFirst.dropWhile (· != '/')).drop 1

theorem dropComponent_length_lt {cs : List Char} (h : cs ≠ []) :
    (dropComponent cs).length < cs.length := by
  have shorter : (cs.dropWhile (· != '/')).length ≤ cs.length := (List.dropWhile_sublist _).length_le
  cases cs with
  | nil => exact absurd rfl h
  | cons c rest =>
    by_cases slash : c = '/'
    · simp [dropComponent, slash]
    · have tail : (rest.dropWhile (· != '/')).length ≤ rest.length :=
        (List.dropWhile_sublist _).length_le
      simp only [dropComponent, List.dropWhile_cons, bne_iff_ne, ne_eq, slash, not_false_eq_true,
        if_true, List.length_drop, List.length_cons]
      omega

def dropIdle (latestFirst : List Char) : List Char :=
  match latestFirst with
  | [] => []
  | c :: rest =>
    if isIdle ((c :: rest).takeWhile (· != '/')).reverse then dropIdle (dropComponent (c :: rest))
    else c :: rest
termination_by latestFirst.length
decreasing_by exact dropComponent_length_lt (by simp)

def parent? (path : String) : Option String :=
  let cs := path.toList
  let size := anchorSize cs
  let anchor := cs.take size
  match dropIdle (cs.drop size).reverse with
  | [] => if anchor = ['.'] then some "" else none
  | latestFirst => some (String.ofList (anchor ++ (dropIdle (dropComponent latestFirst)).reverse))

end FluentWrappers.Path
