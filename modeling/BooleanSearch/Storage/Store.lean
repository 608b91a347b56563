import BooleanSearch.Storage.Files

/-!
# Stores

A store keeps files below a directory. A file is written under a passing name first and then moved
to its place, so it is never seen half written, and if it cannot be written or moved nothing is left
of it.
-/

namespace BooleanSearch

/-- A store of files below a directory. -/
structure Store where
  directory : Text
  deriving DecidableEq, Repr

namespace Store

variable {m : Type → Type} [Monad m] [MonadFiles m]

/-- The store in a directory, which is made if it is missing. -/
def create (directory : Text) : ExceptT FileError m Store := do
  MonadFiles.createDirectories directory
  return ⟨directory⟩

/-- Where a file of the store is kept. -/
def pathOf (store : Store) (name : Text) : Text := Path.join store.directory name

/-- Whether the store has a file. -/
def contains (store : Store) (name : Text) : m Bool := MonadFiles.isFile (store.pathOf name)

/-- The content of a file. -/
def read (store : Store) (name : Text) : ExceptT FileError m Bytes :=
  MonadFiles.read (store.pathOf name)

/-- A file is given this content, whether or not it was there. -/
def write (store : Store) (name : Text) (content : Bytes) : ExceptT FileError m Unit := do
  let passing ← MonadFiles.createFresh store.directory
  try
    MonadFiles.append store.directory passing content
    MonadFiles.move store.directory passing (store.pathOf name)
  catch fault =>
    MonadFiles.remove (m := m) store.directory passing
    throw fault

end Store

end BooleanSearch
