import BooleanSearch.Proofs.Storage.Openings

/-!
# Operations that fail

On a faulty file tree any operation but two may fail although nothing in the tree stands against it:
whether a file is there can always be told, and a file can always be removed. A file may have been
filled in part when filling it fails. So a write that fails leaves the tree as it was, whichever of
its operations failed.
-/

namespace BooleanSearch

namespace FileTree

/-- All that can come of making a new file. -/
theorem run_createFresh_cases (tree : FileTree) (directory : Text) :
    (∃ passing fresh, (MonadFiles.createFresh (m := StateM FileTree) directory).run.run tree =
      (.ok passing, fresh) ∧ tree.Beside directory passing [] fresh) ∨
    ∃ fault, (MonadFiles.createFresh (m := StateM FileTree) directory).run.run tree =
      (.error fault, tree) := by
  rw [run_createFresh]
  cases hfresh : tree.createFresh directory with
  | ok made => exact .inl ⟨made.1, made.2, rfl, (of_createFresh hfresh).2⟩
  | error fault => exact .inr ⟨fault, rfl⟩

theorem failsSafe_move (p : FileTree → Prop) (directory name target : Text) :
    FailsSafe p (MonadFiles.move (m := StateM FileTree) directory name target) := by
  intro tree htree fault hfault
  rw [run_move] at hfault ⊢
  cases hmove : tree.move directory name target with
  | ok moved =>
    rw [hmove] at hfault
    cases hfault
  | error cause => exact htree

/-- Filling a passing file leaves it a passing file. -/
theorem keeps_append (tree : FileTree) (directory passing : Text) (more : Bytes) :
    Keeps (fun fresh => ∃ content, tree.Beside directory passing content fresh)
      (MonadFiles.append (m := StateM FileTree) directory passing more) fun _ => True := by
  rintro fresh ⟨content, hfresh⟩
  obtain ⟨written, happend, hwritten⟩ := hfresh.append more
  rw [run_append, happend]
  exact ⟨⟨_, hwritten⟩, fun _ _ => trivial⟩

theorem keeps_createDirectories {tree : FileTree} {directory : Text} {base : Location}
    (h : tree.IsOpen directory base) :
    Keeps (· = tree) (MonadFiles.createDirectories (m := StateM FileTree) directory)
      fun _ => True := by
  rintro _ rfl
  exact ⟨congrArg Prod.snd (createDirectories_of_isOpen h), fun _ _ => trivial⟩

theorem keeps_read (tree : FileTree) (path : Text) :
    Keeps (· = tree) (MonadFiles.read (m := StateM FileTree) path) fun _ => True := by
  rintro _ rfl
  exact ⟨rfl, fun _ _ => trivial⟩

theorem failsSafe_write (store : Store) (name : Text) (content : Bytes) (tree : FileTree) :
    FailsSafe (· = tree) (store.write (m := StateM FileTree) name content) := by
  rintro _ rfl fault hfault
  rcases store.write_cases _ name content with ⟨location, -, hwrite⟩ | ⟨cause, -, hwrite⟩
  · rw [hwrite] at hfault
    cases hfault
  · rw [hwrite]

end FileTree

/-- A write fails safe if its operations do: no trace is left of a new file that cannot be made, nor
of one that is removed because it cannot be filled or moved. -/
theorem Store.failsSafe_write {σ : Type} [MonadFiles (StateM σ)] {store : Store} {name : Text}
    {content : Bytes} {p : σ → Prop} {made : Text → σ → Prop}
    (hfresh : ∀ s, p s →
      (∃ passing s', (MonadFiles.createFresh (m := StateM σ) store.directory).run.run s =
        (.ok passing, s') ∧ made passing s') ∨
      ∃ fault s', (MonadFiles.createFresh (m := StateM σ) store.directory).run.run s =
        (.error fault, s') ∧ p s')
    (happend : ∀ passing, Keeps (made passing)
      (MonadFiles.append (m := StateM σ) store.directory passing content) fun _ => True)
    (hmove : ∀ passing, FailsSafe (made passing)
      (MonadFiles.move (m := StateM σ) store.directory passing (store.pathOf name)))
    (hremove : ∀ passing s, made passing s →
      p ((MonadFiles.remove (m := StateM σ) store.directory passing).run s).2) :
    FailsSafe p (store.write (m := StateM σ) name content) := by
  intro s hs fault
  rw [write, run_bind]
  rcases hfresh s hs with ⟨passing, s', hmade, hs'⟩ | ⟨fault', s', hfailed, hs'⟩
  · rw [hmade]
    dsimp only
    rw [run_tryCatch]
    split
    · intro hfault
      cases hfault
    · next fault' t hfailed =>
      intro _
      have hkept := (happend passing).bind_failsSafe (fun _ _ => hmove passing) s' hs' fault'
        (by rw [hfailed])
      rw [hfailed] at hkept
      exact hremove passing t hkept
  · rw [hfailed]
    exact fun _ => hs'

/-- A failure of an operation that could have been carried out. -/
structure Failure where
  error : FileError
  /-- How many bytes are added to a file before. -/
  written : Nat
  deriving DecidableEq, Repr

/-- A file tree, and which of the operations to come fail. Those that are not listed do not. -/
structure FaultyTree where
  tree : FileTree
  failures : List (Option Failure)
  deriving DecidableEq, Repr

namespace FaultyTree

/-- An operation on the tree, which leaves something else of the tree if it fails. -/
def attempt {α : Type} (operation : ExceptT FileError (StateM FileTree) α)
    (left : Failure → FileTree → FileTree) : ExceptT FileError (StateM FaultyTree) α :=
  ExceptT.mk fun faulty =>
    match faulty.failures with
    | some failure :: failures => (.error failure.error, ⟨left failure faulty.tree, failures⟩)
    | failures =>
      let (result, tree) := operation.run.run faulty.tree
      (result, ⟨tree, failures.tail⟩)

/-- The tree with a file that could be filled in part only. -/
def filledInPart (directory name : Text) (content : Bytes) (failure : Failure) (tree : FileTree) :
    FileTree :=
  match tree.append directory name (content.take failure.written) with
  | .ok written => written
  | .error _ => tree

instance : MonadFiles (StateM FaultyTree) where
  createDirectories path := attempt (MonadFiles.createDirectories path) fun _ tree => tree
  isFile path := fun faulty => (faulty.tree.isFile path, faulty)
  read path := attempt (MonadFiles.read path) fun _ tree => tree
  createFresh directory := attempt (MonadFiles.createFresh directory) fun _ tree => tree
  append directory name content :=
    attempt (MonadFiles.append directory name content) (filledInPart directory name content)
  move directory name target :=
    attempt (MonadFiles.move directory name target) fun _ tree => tree
  remove directory name := fun faulty =>
    ((), { faulty with tree := faulty.tree.remove directory name })

variable {α : Type} {operation : ExceptT FileError (StateM FileTree) α}
  {left : Failure → FileTree → FileTree}

/-- All that can come of an attempt. -/
theorem attempt_cases (operation : ExceptT FileError (StateM FileTree) α)
    (left : Failure → FileTree → FileTree) (faulty : FaultyTree) :
    (∃ failure failures, (attempt operation left).run.run faulty =
      (.error failure.error, ⟨left failure faulty.tree, failures⟩)) ∨
    ∃ failures, (attempt operation left).run.run faulty =
      ((operation.run.run faulty.tree).1, ⟨(operation.run.run faulty.tree).2, failures⟩) := by
  obtain ⟨tree, failures⟩ := faulty
  cases failures with
  | nil => exact .inr ⟨[], rfl⟩
  | cons due failures =>
    cases due with
    | none => exact .inr ⟨failures, rfl⟩
    | some failure => exact .inl ⟨failure, failures, rfl⟩

/-- What an operation keeps is kept by an attempt, if a failure keeps it too. -/
theorem keeps_attempt {p : FileTree → Prop} {q : α → Prop} (h : Keeps p operation q)
    (hleft : ∀ failure tree, p tree → p (left failure tree)) :
    Keeps (fun faulty : FaultyTree => p faulty.tree) (attempt operation left) q := by
  intro faulty hfaulty
  rcases attempt_cases operation left faulty with
    ⟨failure, failures, hfailed⟩ | ⟨failures, hdone⟩
  · rw [hfailed]
    exact ⟨hleft failure faulty.tree hfaulty, nofun⟩
  · rw [hdone]
    exact h faulty.tree hfaulty

theorem failsSafe_attempt {p : FileTree → Prop} (h : FailsSafe p operation)
    (hleft : ∀ failure tree, p tree → p (left failure tree)) :
    FailsSafe (fun faulty : FaultyTree => p faulty.tree) (attempt operation left) := by
  intro faulty hfaulty
  rcases attempt_cases operation left faulty with
    ⟨failure, failures, hfailed⟩ | ⟨failures, hdone⟩
  · rw [hfailed]
    exact fun _ _ => hleft failure faulty.tree hfaulty
  · rw [hdone]
    exact h faulty.tree hfaulty

/-- A write that fails leaves the tree as it was. -/
theorem failsSafe_write (store : Store) (name : Text) (content : Bytes) (tree : FileTree) :
    FailsSafe (fun faulty : FaultyTree => faulty.tree = tree)
      (store.write (m := StateM FaultyTree) name content) := by
  -- Between its first and its last step a write has made one file, of which removing it leaves no
  -- trace.
  let made : Text → FileTree → Prop := fun passing fresh =>
    ∃ content, tree.Beside store.directory passing content fresh
  have hfresh : ∀ faulty : FaultyTree, faulty.tree = tree →
      (∃ passing next, (MonadFiles.createFresh (m := StateM FaultyTree) store.directory).run.run
        faulty = (.ok passing, next) ∧ made passing next.tree) ∨
      ∃ fault next, (MonadFiles.createFresh (m := StateM FaultyTree) store.directory).run.run
        faulty = (.error fault, next) ∧ next.tree = tree := by
    rintro faulty rfl
    rcases attempt_cases (MonadFiles.createFresh store.directory) (fun _ tree => tree) faulty with
      ⟨failure, failures, hfailed⟩ | ⟨failures, hdone⟩
    · exact .inr ⟨_, _, hfailed, rfl⟩
    · rcases faulty.tree.run_createFresh_cases store.directory with
        ⟨passing, fresh, hrun, hbeside⟩ | ⟨fault, hrun⟩
      · rw [hrun] at hdone
        exact .inl ⟨passing, _, hdone, [], hbeside⟩
      · rw [hrun] at hdone
        exact .inr ⟨fault, _, hdone, rfl⟩
  have happend : ∀ passing, Keeps (fun faulty : FaultyTree => made passing faulty.tree)
      (MonadFiles.append (m := StateM FaultyTree) store.directory passing content)
      fun _ => True := by
    intro passing
    refine keeps_attempt (FileTree.keeps_append tree store.directory passing content) ?_
    rintro failure fresh ⟨written, hfresh⟩
    obtain ⟨next, happend, hnext⟩ := hfresh.append (content.take failure.written)
    rw [filledInPart, happend]
    exact ⟨_, hnext⟩
  have hmove : ∀ passing, FailsSafe (fun faulty : FaultyTree => made passing faulty.tree)
      (MonadFiles.move (m := StateM FaultyTree) store.directory passing (store.pathOf name)) := by
    intro passing
    exact failsSafe_attempt (FileTree.failsSafe_move _ _ _ _) fun _ _ hsame => hsame
  have hremove : ∀ passing (faulty : FaultyTree), made passing faulty.tree →
      ((MonadFiles.remove (m := StateM FaultyTree) store.directory passing).run
        faulty).2.tree = tree := by
    rintro passing faulty ⟨content, hmade⟩
    exact hmade.remove
  exact Store.failsSafe_write hfresh happend hmove hremove

end FaultyTree

end BooleanSearch
