import BooleanSearch.Storage.FileTree

/-!
# Access to files

What a program does with files, whatever holds them. File trees hold them as a state.
-/

namespace BooleanSearch

/-- The operations on files that a program uses. -/
class MonadFiles (m : Type → Type) where
  /-- The directory at a path is made, with the missing ones above it. -/
  createDirectories (path : Text) : ExceptT FileError m Unit
  /-- Whether a path leads to a file. -/
  isFile (path : Text) : m Bool
  /-- The content of the file to which a path leads. -/
  read (path : Text) : ExceptT FileError m Bytes
  /-- A new and empty file is made in a directory; its name is given back. -/
  createFresh (directory : Text) : ExceptT FileError m Text
  /-- The content is added to the file of this name in a directory. -/
  append (directory name : Text) (content : Bytes) : ExceptT FileError m Unit
  /-- The file of this name in a directory is moved to a path in place of a file there. -/
  move (directory name target : Text) : ExceptT FileError m Unit
  /-- The file of this name in a directory is removed if possible. -/
  remove (directory name : Text) : m Unit

namespace FileTree

/-- An operation that gives a tree if it succeeds. -/
def change (operation : FileTree → Except FileError FileTree) :
    ExceptT FileError (StateM FileTree) Unit :=
  fun tree => match operation tree with
    | .ok tree => (.ok (), tree)
    | .error fault => (.error fault, tree)

instance : MonadFiles (StateM FileTree) where
  createDirectories path := fun tree => tree.createDirectories path
  isFile path := fun tree => (tree.isFile path, tree)
  read path := fun tree => (tree.read path, tree)
  createFresh directory := fun tree =>
    match tree.createFresh directory with
    | .ok (name, tree) => (.ok name, tree)
    | .error fault => (.error fault, tree)
  append directory name content := change fun tree => tree.append directory name content
  move directory name target := change fun tree => tree.move directory name target
  remove directory name := fun tree => ((), tree.remove directory name)

end FileTree

end BooleanSearch
