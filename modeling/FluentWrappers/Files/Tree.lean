import FluentWrappers.Files.Path
import FluentWrappers.Text.Basic

/-!
# File trees (`SPEC_FULL.md`, 10.8, overwrite policy)

A folder with all that is below it, as the list of its files and folders by their places. A place is
the list of names that leads to it; the empty place is the folder itself. Paths are followed name by
name; they cannot leave the folder.

Builds and commands need some file system. A file tree in a state is one; so is every monad that lifts
one.
-/

namespace FluentWrappers

inductive FileFault where
  | notFound
  | alreadyExists
  | notFolder
  | isFolder
  | nameTooLong
  | invalidName
  /-- A failure that a system states in words of its own. -/
  | other (text : String)
  deriving DecidableEq, Repr

def FileFault.message : FileFault → String
  | .notFound => "No such file or directory (os error 2)"
  | .alreadyExists => "File exists (os error 17)"
  | .notFolder => "Not a directory (os error 20)"
  | .isFolder => "Is a directory (os error 21)"
  | .nameTooLong => "File name too long (os error 36)"
  | .invalidName => "file name contained an unexpected NUL byte"
  | .other text => text

abbrev Place := List String

inductive Entry where
  | folder
  | file (bytes : List UInt8)
  deriving DecidableEq, Repr

structure FileTree where
  entries : List (Place × Entry)
  deriving DecidableEq, Repr

namespace FileTree

def empty : FileTree := ⟨[]⟩

/-! ### Places -/

def entry? (t : FileTree) (place : Place) : Option Entry :=
  if place.isEmpty then some .folder else t.entries.lookup place

def put (t : FileTree) (place : Place) (e : Entry) : FileTree :=
  if (t.entries.lookup place).isSome then
    ⟨t.entries.map fun (key, old) => if key == place then (key, e) else (key, old)⟩
  else ⟨t.entries ++ [(place, e)]⟩

def erase (t : FileTree) (place : Place) : FileTree :=
  ⟨t.entries.filter fun (key, _) => key != place⟩

def maxNameSize : Nat := 255

/-- One step from a place: up for two dots, else to the name. -/
def stepTo (place : Place) (name : String) : Except FileFault Place :=
  if name = ".." then if place.isEmpty then .error .notFound else .ok place.dropLast
  else if maxNameSize < (Text.utf8 name).length then .error .nameTooLong
  else .ok (place ++ [name])

structure Route where
  names : List String
  folderOnly : Bool

def routeOf (path : String) : Except FileFault Route :=
  let cs := path.toList
  if cs.contains '\x00' then .error .invalidName
  else if cs.isEmpty || Path.isAbsolute path then .error .notFound
  else
    let components := Path.splitAtSlashes cs
    .ok ⟨(components.filter fun c => !Path.isIdle c).map String.ofList,
      (components.getLast?.map Path.isIdle).getD true⟩

/-- The place that names lead to from a folder; every place on the way must be a folder. -/
def follow (t : FileTree) (start : Place) : List String → Except FileFault Place
  | [] => .ok start
  | name :: rest =>
    match t.entry? start with
    | none => .error .notFound
    | some (.file _) => .error .notFolder
    | some .folder => do follow t (← stepTo start name) rest

def placeOf (t : FileTree) (path : String) : Except FileFault (Place × Bool) := do
  let route ← routeOf path
  return (← t.follow [] route.names, route.folderOnly)

def find (t : FileTree) (path : String) : Except FileFault (Place × Entry) := do
  let (place, folderOnly) ← t.placeOf path
  match t.entry? place with
  | none => .error .notFound
  | some .folder => return (place, .folder)
  | some (.file bytes) => if folderOnly then .error .notFolder else return (place, .file bytes)

/-! ### Operations -/

def contains (t : FileTree) (path : String) : Bool := (t.find path).toOption.isSome

def isFile (t : FileTree) (path : String) : Bool :=
  match t.find path with
  | .ok (_, .file _) => true
  | _ => false

/-- The bytes of a file. -/
def read (t : FileTree) (path : String) : Except FileFault (List UInt8) := do
  match ← t.find path with
  | (_, .file bytes) => return bytes
  | (_, .folder) => throw .isFolder

/-- The tree with a file of given bytes, in the place of an older one if there is one. -/
def write (t : FileTree) (path : String) (bytes : List UInt8) : Except FileFault FileTree := do
  let (place, folderOnly) ← t.placeOf path
  match t.entry? place with
  | some .folder => throw .isFolder
  | some (.file _) => if folderOnly then throw .notFolder else return t.put place (.file bytes)
  | none => if folderOnly then throw .isFolder else return t.put place (.file bytes)

def remove (t : FileTree) (path : String) : Except FileFault FileTree := do
  match ← t.find path with
  | (place, .file _) => return t.erase place
  | (_, .folder) => throw .isFolder

/-- The tree with a folder at each place on a way; folders made before a failure stay. -/
def makeAlong (t : FileTree) (start : Place) : List String → Except FileFault Unit × FileTree
  | [] => (.ok (), t)
  | name :: rest =>
    match stepTo start name with
    | .error fault => (.error fault, t)
    | .ok place =>
      match t.entry? place with
      | some .folder => makeAlong t place rest
      | some (.file _) => (.error .alreadyExists, t)
      | none => makeAlong (t.put place .folder) place rest

def makeFolders (t : FileTree) (path : String) : Except FileFault Unit × FileTree :=
  match routeOf path with
  | .error fault => (.error fault, t)
  | .ok route => t.makeAlong [] route.names

/-! ### Listing -/

def pathOf (place : Place) : Entry → String
  | .folder => "/".intercalate place ++ "/"
  | .file _ => "/".intercalate place

def paths (t : FileTree) : List String :=
  (t.entries.map fun (place, e) => pathOf place e).mergeSort fun a b => decide (a ≤ b)

end FileTree

/-! ### File systems -/

class FileSystem (m : Type → Type) where
  contains : String → m Bool
  isFile : String → m Bool
  read : String → m (Except FileFault (List UInt8))
  write : String → List UInt8 → m (Except FileFault Unit)
  remove : String → m (Except FileFault Unit)
  makeFolders : String → m (Except FileFault Unit)

def FileTree.change (op : FileTree → Except FileFault FileTree) :
    StateM FileTree (Except FileFault Unit) := fun t =>
  match op t with
  | .ok t => (.ok (), t)
  | .error fault => (.error fault, t)

instance : FileSystem (StateM FileTree) where
  contains path := do return (← get).contains path
  isFile path := do return (← get).isFile path
  read path := do return (← get).read path
  write path bytes := FileTree.change (·.write path bytes)
  remove path := FileTree.change (·.remove path)
  makeFolders path := fun t => t.makeFolders path

instance {m n : Type → Type} [MonadLift m n] [FileSystem m] : FileSystem n where
  contains path := MonadLift.monadLift (FileSystem.contains path : m _)
  isFile path := MonadLift.monadLift (FileSystem.isFile path : m _)
  read path := MonadLift.monadLift (FileSystem.read path : m _)
  write path bytes := MonadLift.monadLift (FileSystem.write path bytes : m _)
  remove path := MonadLift.monadLift (FileSystem.remove path : m _)
  makeFolders path := MonadLift.monadLift (FileSystem.makeFolders path : m _)

end FluentWrappers
