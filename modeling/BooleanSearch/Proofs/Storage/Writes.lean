import BooleanSearch.Proofs.Storage.Passing
import BooleanSearch.Storage.Store

/-!
# Writing a file of a store

A file is made under a passing name, filled and then moved to its place. Either the tree is
afterwards as it was, or the file stands at its place and all else is as it was.
-/

namespace BooleanSearch

namespace FileTree

variable {tree : FileTree} {base location place : Location} {path : Text} {parts : List Text}
  {old content : Bytes}

theorem run_createFresh (tree : FileTree) (directory : Text) :
    (MonadFiles.createFresh (m := StateM FileTree) directory).run.run tree =
      match tree.createFresh directory with
      | .ok (passing, fresh) => (.ok passing, fresh)
      | .error fault => (.error fault, tree) := rfl

theorem run_append (tree : FileTree) (directory passing : Text) (content : Bytes) :
    (MonadFiles.append (m := StateM FileTree) directory passing content).run.run tree =
      match tree.append directory passing content with
      | .ok written => (.ok (), written)
      | .error fault => (.error fault, tree) := rfl

theorem run_move (tree : FileTree) (directory passing target : Text) :
    (MonadFiles.move (m := StateM FileTree) directory passing target).run.run tree =
      match tree.move directory passing target with
      | .ok moved => (.ok (), moved)
      | .error fault => (.error fault, tree) := rfl

/-- A file that takes the place of a link to a file, or of a file, cuts off no way into a directory:
such a way does not pass that link. -/
theorem walk_insert_of_source? (hplace : tree.place? path = some location)
    (hsource : tree.source? path = some place) (hfile : tree.get? place = some (.file old))
    (hwalk : tree.walk parts = .ok base) :
    (tree.insert location (.file content)).walk parts = .ok base := by
  have hbase : tree.get? base = some .directory := (isRooted_of_walk hwalk).get?
  have hfree : tree.get? location ≠ some .directory := by
    intro hdirectory
    have hsame : tree.source? path = some location :=
      source?_of_place? hplace (by simp [hdirectory])
    cases hsource.symm.trans hsame
    cases hfile.symm.trans hdirectory
  have hkept : ∀ other, tree.get? other = some .directory →
      (tree.insert location (.file content)).get? other = some .directory := by
    intro other hother
    have hne : other ≠ location := fun heq => hfree (heq ▸ hother)
    rw [get?_insert_of_ne hne, hother]
  refine walk_eq_ok.mpr ((walk_eq_ok.mp hwalk).mono hkept ?_ (by simp [hkept base hbase]))
  intro other part target n rest hlink hleads
  by_cases heq : other ++ [part] = location
  · -- The link would lead to a file, and yet what is left of the way into a directory.
    obtain ⟨start, last, m, hlocation, hrooted, hfound⟩ :=
      leads_of_link hplace hsource (heq ▸ hlink)
    obtain ⟨rfl, -⟩ := List.append_inj' (heq.trans hlocation) rfl
    have hdirectory := hfound.get?_eq_directory (hrooted.linkStart target) hleads hbase
    cases hfile.symm.trans hdirectory
  · rw [get?_insert_of_ne heq, hlink]

end FileTree

namespace Store

open FileTree

variable {store : Store} {tree next : FileTree} {name : Text} {content : Bytes}
  {location : Location}

/-- Where a file of the store is put. -/
def place? (store : Store) (tree : FileTree) (name : Text) : Option Location :=
  tree.place? (store.pathOf name)

/-- Where a file of the store is looked for. It is where it was put, unless a link stands there. -/
def source? (store : Store) (tree : FileTree) (name : Text) : Option Location :=
  tree.source? (store.pathOf name)

theorem run_read : (store.read (m := StateM FileTree) name).run.run tree =
    (tree.read (store.pathOf name), tree) := rfl

theorem run_contains : (store.contains (m := StateM FileTree) name).run tree =
    (tree.isFile (store.pathOf name), tree) := rfl

/-- What is read is the content where the name leads. -/
theorem toOption_read : (tree.read (store.pathOf name)).toOption =
    (store.source? tree name).bind tree.content? :=
  FileTree.toOption_read

theorem isFile_pathOf : tree.isFile (store.pathOf name) =
    ((store.source? tree name).bind tree.content?).isSome := by
  rw [isFile_eq_isSome_read, toOption_read]

theorem run_write : (store.write (m := StateM FileTree) name content).run.run tree =
    match tree.createFresh store.directory with
    | .ok (passing, fresh) =>
      match fresh.append store.directory passing content with
      | .ok written =>
        match written.move store.directory passing (store.pathOf name) with
        | .ok moved => (.ok (), moved)
        | .error fault => (.error fault, written.remove store.directory passing)
      | .error fault => (.error fault, fresh.remove store.directory passing)
    | .error fault => (.error fault, tree) := by
  rw [write, run_bind, run_createFresh]
  cases tree.createFresh store.directory with
  | error fault => rfl
  | ok made =>
    obtain ⟨passing, fresh⟩ := made
    dsimp only
    rw [run_tryCatch, run_bind, run_append]
    cases fresh.append store.directory passing content with
    | error fault => rfl
    | ok written =>
      dsimp only
      rw [run_move]
      cases written.move store.directory passing (store.pathOf name) <;> rfl

/-- Whether a file can be put at a location under this name: there is room for a new file in the
directory of the store, and the name is that of this location, where no directory stands. -/
structure Accepts (store : Store) (tree : FileTree) (name : Text) (location : Location) : Prop where
  room : tree.HasRoom store.directory
  place : store.place? tree name = some location
  free : tree.get? location ≠ some .directory

theorem Accepts.ne_nil (h : store.Accepts tree name location) : location ≠ [] :=
  place?_ne_nil h.place

/-- All that a write can do: it puts a file at its place, or it fails and leaves the tree as it
was. -/
theorem write_cases (store : Store) (tree : FileTree) (name : Text) (content : Bytes) :
    (∃ location, store.Accepts tree name location ∧
      (store.write (m := StateM FileTree) name content).run.run tree =
        (.ok (), tree.insert location (.file content))) ∨
    (∃ fault, (∀ location, ¬ store.Accepts tree name location) ∧
      (store.write (m := StateM FileTree) name content).run.run tree = (.error fault, tree)) := by
  rw [run_write]
  cases hfresh : tree.createFresh store.directory with
  | error fault =>
    refine .inr ⟨fault, fun location haccepts => ?_, rfl⟩
    obtain ⟨made, hmade⟩ := haccepts.room.exists_createFresh
    rw [hmade] at hfresh
    cases hfresh
  | ok made =>
    obtain ⟨passing, fresh⟩ := made
    obtain ⟨hroom, hbeside⟩ := of_createFresh hfresh
    obtain ⟨written, happend, hwritten⟩ := hbeside.append content
    dsimp only
    rw [happend]
    dsimp only
    rcases hwritten.move_cases (store.pathOf name) with
      ⟨location, hplace, hfree, hmove⟩ | ⟨fault, htaken, hmove⟩
    · rw [hmove]
      exact .inl ⟨location, ⟨hroom, hplace, hfree⟩, rfl⟩
    · rw [hmove]
      refine .inr ⟨fault, fun location haccepts => ?_, by rw [hwritten.remove]⟩
      exact haccepts.free (htaken location haccepts.place)

theorem of_write
    (h : (store.write (m := StateM FileTree) name content).run.run tree = (.ok (), next)) :
    ∃ location, store.Accepts tree name location ∧
      next = tree.insert location (.file content) := by
  rcases store.write_cases tree name content with
    ⟨location, haccepts, hwrite⟩ | ⟨fault, -, hwrite⟩
  · rw [hwrite] at h
    cases h
    exact ⟨location, haccepts, rfl⟩
  · rw [hwrite] at h
    cases h

end Store

end BooleanSearch
