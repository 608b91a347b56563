import BooleanSearch.Proofs.Storage.Writes

/-!
# Counting changes

On a watched file tree each attempt to make, fill, move or remove a file is counted. What leaves the
count as it was has touched no file, not even to write it again as it was.
-/

namespace BooleanSearch

/-- A file tree, and how many times it was tried to change a file. -/
structure Watched where
  tree : FileTree
  changes : Nat
  deriving DecidableEq, Repr

namespace Watched

/-- An operation on the tree that counts as so many changes. -/
def counting {α : Type} (n : Nat) (operation : StateM FileTree α) : StateM Watched α :=
  fun watched =>
    let (a, tree) := operation.run watched.tree
    (a, ⟨tree, watched.changes + n⟩)

instance : MonadFiles (StateM Watched) where
  createDirectories path := ExceptT.mk (counting 0 (MonadFiles.createDirectories path).run)
  isFile path := counting 0 (MonadFiles.isFile path)
  read path := ExceptT.mk (counting 0 (MonadFiles.read path).run)
  createFresh directory := ExceptT.mk (counting 1 (MonadFiles.createFresh directory).run)
  append directory name content :=
    ExceptT.mk (counting 1 (MonadFiles.append directory name content).run)
  move directory name target := ExceptT.mk (counting 1 (MonadFiles.move directory name target).run)
  remove directory name := counting 1 (MonadFiles.remove directory name)

/-- Writing does to a watched tree what it does to the tree, and it is counted. -/
theorem run_write (store : Store) (name : Text) (content : Bytes) (watched : Watched) :
    ∃ n, (store.write (m := StateM Watched) name content).run.run watched =
      (((store.write (m := StateM FileTree) name content).run.run watched.tree).1,
        ⟨((store.write (m := StateM FileTree) name content).run.run watched.tree).2,
          watched.changes + n + 1⟩) := by
  have hfresh : (MonadFiles.createFresh (m := StateM Watched) store.directory).run.run watched =
      (((MonadFiles.createFresh (m := StateM FileTree) store.directory).run.run watched.tree).1,
      ⟨((MonadFiles.createFresh (m := StateM FileTree) store.directory).run.run watched.tree).2,
        watched.changes + 1⟩) := rfl
  have happend : ∀ passing (watched : Watched),
      (MonadFiles.append (m := StateM Watched) store.directory passing content).run.run watched =
      (((MonadFiles.append (m := StateM FileTree) store.directory passing content).run.run
        watched.tree).1,
      ⟨((MonadFiles.append (m := StateM FileTree) store.directory passing content).run.run
        watched.tree).2, watched.changes + 1⟩) := fun _ _ => rfl
  have hmove : ∀ passing (watched : Watched),
      (MonadFiles.move (m := StateM Watched) store.directory passing (store.pathOf name)).run.run
        watched =
      (((MonadFiles.move (m := StateM FileTree) store.directory passing
        (store.pathOf name)).run.run watched.tree).1,
      ⟨((MonadFiles.move (m := StateM FileTree) store.directory passing
        (store.pathOf name)).run.run watched.tree).2, watched.changes + 1⟩) := fun _ _ => rfl
  rw [Store.write, Store.write, run_bind, run_bind, hfresh]
  rcases (MonadFiles.createFresh (m := StateM FileTree) store.directory).run.run
    watched.tree with ⟨fault | passing, fresh⟩
  · exact ⟨0, rfl⟩
  · dsimp only
    rw [run_tryCatch, run_tryCatch, run_bind, run_bind, happend]
    dsimp only
    rcases (MonadFiles.append (m := StateM FileTree) store.directory passing content).run.run
      fresh with ⟨fault | appended, written⟩
    · exact ⟨2, rfl⟩
    · dsimp only
      rw [hmove]
      dsimp only
      rcases (MonadFiles.move (m := StateM FileTree) store.directory passing
        (store.pathOf name)).run.run written with ⟨fault | moved, tree⟩
      · exact ⟨3, rfl⟩
      · exact ⟨2, rfl⟩

end Watched

end BooleanSearch
