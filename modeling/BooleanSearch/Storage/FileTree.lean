import BooleanSearch.Storage.Path

/-!
# File trees

A file tree holds the files, directories and symbolic links below a root, each at its location: the
names on the way to it. Paths are followed from the root or from the working directory, one part
after the other, through directories that must exist and wherever the links on the way lead. Each
operation gives the tree after it, or the fault for which it left the tree as it was.

Entries have one name each and no owners, permissions or times. Between two operations nothing else
changes a tree.
-/

namespace BooleanSearch

/-- The names on the way from the root. -/
abbrev Location := List Text

/-- What stands at a location. -/
inductive Entry where
  | directory
  | file (content : Bytes)
  /-- A symbolic link, which leads where its target leads. -/
  | link (target : Text)
  deriving DecidableEq, Repr

/-- The entries below a root, each with its location. -/
structure FileTree where
  entries : List (Location × Entry) := []
  /-- The path of the working directory, where paths start that do not start at the root. -/
  working : Text := ['/']
  deriving DecidableEq, Repr

namespace FileTree

/-- The entry at a location; the root is a directory. -/
def get? (tree : FileTree) : Location → Option Entry
  | [] => some .directory
  | location => tree.entries.lookup location

/-- The tree without the entry at a location. -/
def erase (tree : FileTree) (location : Location) : FileTree :=
  { tree with entries := tree.entries.filter fun entry => entry.1 ≠ location }

/-- The tree with an entry at a location, in place of what stood there. -/
def insert (tree : FileTree) (location : Location) (entry : Entry) : FileTree :=
  { tree with entries := (location, entry) :: (tree.erase location).entries }

theorem lookup_filter_ne {entries : List (Location × Entry)} {location other : Location}
    (h : other ≠ location) :
    (entries.filter fun entry => entry.1 ≠ location).lookup other = entries.lookup other := by
  induction entries with
  | nil => rfl
  | cons head entries ih =>
    obtain ⟨place, entry⟩ := head
    by_cases hp : place = location
    · have ho : (other == place) = false := by simpa [hp] using h
      rw [List.filter_cons_of_neg (by simpa using hp), List.lookup_cons, ho]
      exact ih
    · rw [List.filter_cons_of_pos (by simpa using hp), List.lookup_cons, List.lookup_cons, ih]

theorem get?_erase_of_ne {tree : FileTree} {location other : Location} (h : other ≠ location) :
    (tree.erase location).get? other = tree.get? other := by
  cases other with
  | nil => rfl
  | cons name names => exact lookup_filter_ne h

theorem get?_insert_self {tree : FileTree} {location : Location} {entry : Entry}
    (h : location ≠ []) : (tree.insert location entry).get? location = some entry := by
  cases location with
  | nil => exact absurd rfl h
  | cons name names => simp [get?, insert]

theorem get?_insert_of_ne {tree : FileTree} {location other : Location} {entry : Entry}
    (h : other ≠ location) : (tree.insert location entry).get? other = tree.get? other := by
  cases other with
  | nil => rfl
  | cons name names =>
    have ho : (name :: names == location) = false := by simpa using h
    have he : (tree.erase location).get? (name :: names) = tree.get? (name :: names) :=
      get?_erase_of_ne h
    rw [← he]
    simp only [get?, insert, List.lookup_cons, ho]

/-- How many links are followed on the way of one path. -/
def linkLimit : Nat := 40

/-- Where the target of a link starts that stands in a directory. -/
def linkStart (directory : Location) (target : Text) : Location :=
  if Path.isAbsolute target then [] else directory

/-- The location to which parts lead from another one, be there an entry or not. A link on the way
hands what is left of the way on. -/
def follow (tree : FileTree) (handOn : Location → List Text → Except FileError Location) :
    Location → List Text → Except FileError Location
  | location, [] => .ok location
  | location, part :: parts =>
    if part = Path.here then tree.follow handOn location parts
    else if part = Path.above then tree.follow handOn location.dropLast parts
    else do
      Path.checkName part
      match tree.get? (location ++ [part]) with
      | some .directory => tree.follow handOn (location ++ [part]) parts
      | some (.link target) => handOn (linkStart location target) (Path.route target ++ parts)
      | some (.file _) => if parts.isEmpty then .ok (location ++ [part]) else .error .notDirectory
      | none => if parts.isEmpty then .ok (location ++ [part]) else .error .notFound

/-- The location to which parts lead from another one by way of at most so many links. -/
def resolve (tree : FileTree) : Nat → Location → List Text → Except FileError Location
  | 0 => tree.follow fun _ _ => .error .tooManyLinks
  | n + 1 => tree.follow (tree.resolve n)

/-- The parts of the directory in which a path starts. -/
def start (tree : FileTree) (path : Text) : List Text :=
  if Path.isAbsolute path then [] else Path.parts tree.working

/-- The parts of a path, from the root on. -/
def parts (tree : FileTree) (path : Text) : List Text := tree.start path ++ Path.parts path

/-- The directory to which parts lead from the root. -/
def walk (tree : FileTree) (parts : List Text) : Except FileError Location :=
  tree.resolve linkLimit [] (parts ++ [Path.here])

/-- The location that parts name, be there an entry or not; `none` if they end in no name. The name
itself is not followed if it is that of a link. -/
def locate (tree : FileTree) (parts : List Text) : Except FileError (Option Location) := do
  let directory ← tree.walk parts.dropLast
  match parts.getLast? with
  | none => return none
  | some part =>
    if Path.isName part then
      Path.checkName part
      return some (directory ++ [part])
    else return none

/-- The location to which a path leads, be there an entry or not. -/
def locationAt (tree : FileTree) (path : Text) : Except FileError Location := do
  Path.check path
  tree.resolve linkLimit [] (tree.start path ++ Path.route path)

/-- Whether a path leads to a file. -/
def isFile (tree : FileTree) (path : Text) : Bool :=
  match (tree.locationAt path).toOption.bind tree.get? with
  | some (.file _) => true
  | _ => false

/-- The content of the file to which a path leads. -/
def read (tree : FileTree) (path : Text) : Except FileError Bytes := do
  match tree.get? (← tree.locationAt path) with
  | some (.file content) => return content
  | some .directory => .error .isDirectory
  | _ => .error .notFound

/-- Whether parts lead to a directory. -/
def isDirectory (tree : FileTree) (parts : List Text) : Bool :=
  match tree.walk parts with
  | .ok _ => true
  | .error _ => false

/-- A directory is made where there is no entry. -/
def makeDirectory (tree : FileTree) (parts : List Text) : Except FileError FileTree := do
  match ← tree.locate parts with
  | none => .error .alreadyExists
  | some location =>
    if (tree.get? location).isSome then .error .alreadyExists
    else return tree.insert location .directory

/-- A directory is made, or found to be there. -/
def ensureDirectory (tree : FileTree) (parts : List Text) : Except FileError FileTree :=
  match tree.makeDirectory parts with
  | .ok tree => .ok tree
  | .error fault => if tree.isDirectory parts then .ok tree else .error fault

/-- A directory is made, or found to be there, after the missing ones above it, of which the
nearest comes first. Those that were made remain if a later one cannot be made. -/
def ensureDirectories (tree : FileTree) : List (List Text) → Except FileError Unit × FileTree
  | [] => (.ok (), tree)
  | parts :: ancestors =>
    match tree.ensureDirectory parts with
    | .ok tree => (.ok (), tree)
    | .error .notFound =>
      match tree.ensureDirectories ancestors with
      | (.error fault, tree) => (.error fault, tree)
      | (.ok (), tree) =>
        match tree.ensureDirectory parts with
        | .ok tree => (.ok (), tree)
        | .error fault => (.error fault, tree)
    | .error fault => (.error fault, tree)

/-- The directory at a path is made, with the missing ones above it as far as the path names
them. -/
def createDirectories (tree : FileTree) (path : Text) : Except FileError Unit × FileTree :=
  if path.isEmpty then (.ok (), tree)
  else match Path.check path with
    | .error fault => (.error fault, tree)
    | .ok () =>
      tree.ensureDirectories
        (tree.parts path :: (Path.ancestors (Path.parts path)).map (tree.start path ++ ·))

/-- The letters and digits of a passing name. -/
def passingLetters : Text :=
  "0123456789ABCDEFGHIJKLMNOPQRSTUVWXYZabcdefghijklmnopqrstuvwxyz".toList

/-- So many letters and digits that stand for a number. -/
def spelled : Nat → Nat → Text
  | 0, _ => []
  | k + 1, n => passingLetters.getD (n % 62) '0' :: spelled k (n / 62)

/-- A name for a file that is soon given another one. -/
def passingName (n : Nat) : Text := ".tmp".toList ++ spelled 6 n

/-- How many passing names there are. -/
def passingNames : Nat := Nat.pow 62 6

/-- The path, from the root on, of the file of this name in the directory at a path. -/
def pathIn (tree : FileTree) (directory name : Text) : Text :=
  Path.join (Path.join tree.working directory) name

/-- A new and empty file of this name is made in the directory at a path. -/
def createNew (tree : FileTree) (directory name : Text) : Except FileError FileTree := do
  Path.check (tree.pathIn directory name)
  let location := (← tree.walk (tree.parts directory)) ++ [name]
  if (tree.get? location).isSome then .error .alreadyExists
  else return tree.insert location (.file [])

/-- A new and empty file is made in the directory at a path, under the first of these names that is
free there. -/
def createFirst (tree : FileTree) (directory : Text) :
    List Text → Except FileError (Text × FileTree)
  | [] => .error (.atPath (.other "too many temporary files exist".toList)
      (Path.join tree.working directory))
  | name :: names =>
    match tree.createNew directory name with
    | .ok fresh => .ok (name, fresh)
    | .error .alreadyExists => tree.createFirst directory names
    | .error fault => .error (.atPath fault (tree.pathIn directory name))

/-- A new and empty file is made in the directory at a path, and its name there is given back. It is
enough to try one name more than there are entries. -/
def createFresh (tree : FileTree) (directory : Text) : Except FileError (Text × FileTree) :=
  tree.createFirst directory
    ((List.range (min (tree.entries.length + 1) passingNames)).map passingName)

/-- The content is added to the file of this name in the directory at a path. -/
def append (tree : FileTree) (directory name : Text) (content : Bytes) :
    Except FileError FileTree := do
  let location := (← tree.walk (tree.parts directory)) ++ [name]
  match tree.get? location with
  | some (.file written) => return tree.insert location (.file (written ++ content))
  | _ => .error .notFound

/-- The file of this name in the directory at a path is moved to another path, where it takes the
place of a file or of a link that stands there. -/
def move (tree : FileTree) (directory name target : Text) : Except FileError FileTree := do
  let source := (← tree.walk (tree.parts directory)) ++ [name]
  Path.check target
  match ← tree.locate (tree.parts target) with
  | none => .error .busy
  | some location =>
    if Path.endsInSlash target then .error .notDirectory
    else if location.isPrefixOf source && location ≠ source then .error .directoryNotEmpty
    else match tree.get? location, tree.get? source with
      | some .directory, _ => .error .isDirectory
      | _, some (.file content) => return (tree.erase source).insert location (.file content)
      | _, _ => .error .notFound

/-- The file of this name in the directory at a path is removed. -/
def remove (tree : FileTree) (directory name : Text) : FileTree :=
  match tree.walk (tree.parts directory) with
  | .ok location => tree.erase (location ++ [name])
  | .error _ => tree

end FileTree

end BooleanSearch
