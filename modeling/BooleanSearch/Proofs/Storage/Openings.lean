import BooleanSearch.Proofs.Storage.Writes

/-!
# Opening a store

The directory of a store is made with the missing ones above it. Nothing that stood in the tree is
changed, and a directory that is there is found and left as it is.
-/

namespace BooleanSearch

namespace FileTree

variable {tree next last : FileTree} {base location : Location} {directory : Text}
  {parts : List Text} {paths : List (List Text)} {result : Except FileError Unit} {content : Bytes}

/-- Whether a tree has the entries of another one, and no new ones but directories. -/
structure Grows (tree next : FileTree) : Prop where
  working : next.working = tree.working
  entry : ∀ location, next.get? location = tree.get? location ∨
    (tree.get? location = none ∧ next.get? location = some .directory)

namespace Grows

theorem refl (tree : FileTree) : Grows tree tree := ⟨rfl, fun _ => .inl rfl⟩

theorem trans (h : Grows tree next) (h' : Grows next last) : Grows tree last := by
  refine ⟨h'.working.trans h.working, fun location => ?_⟩
  rcases h'.entry location with heq | ⟨hnone, hdirectory⟩
  · rw [heq]
    exact h.entry location
  · rcases h.entry location with heq | ⟨-, hfound⟩
    · exact .inr ⟨heq ▸ hnone, hdirectory⟩
    · rw [hfound] at hnone
      cases hnone

theorem get?_eq_some {entry : Entry} (h : Grows tree next)
    (hentry : tree.get? location = some entry) : next.get? location = some entry := by
  rcases h.entry location with heq | ⟨hnone, -⟩
  · rw [heq, hentry]
  · rw [hnone] at hentry
    cases hentry

theorem of_get?_eq_some {entry : Entry} (h : Grows tree next) (hne : entry ≠ .directory)
    (hentry : next.get? location = some entry) : tree.get? location = some entry := by
  rcases h.entry location with heq | ⟨-, hdirectory⟩
  · rw [← heq, hentry]
  · exact absurd (Option.some.inj (hentry.symm.trans hdirectory)) hne

theorem get?_eq_none (h : Grows tree next) (hnone : next.get? location = none) :
    tree.get? location = none := by
  rcases h.entry location with heq | ⟨hfree, -⟩
  · rw [← heq, hnone]
  · exact hfree

theorem ways (h : Grows tree next) : WaysIn tree next :=
  ⟨h.working, fun _ => h.get?_eq_some, fun _ _ => h.get?_eq_some⟩

end Grows

theorem grows_insert_directory (h : tree.get? location = none) :
    Grows tree (tree.insert location .directory) := by
  refine ⟨rfl, fun other => ?_⟩
  by_cases heq : other = location
  · subst heq
    cases other with
    | nil => cases h
    | cons name names => exact .inr ⟨h, get?_insert_self (by simp)⟩
  · exact .inl (get?_insert_of_ne heq)

/-- Parts lead to a directory just if they can be followed. -/
theorem isDirectory_iff :
    tree.isDirectory parts = true ↔ ∃ base, tree.walk parts = .ok base := by
  unfold isDirectory
  cases tree.walk parts <;> simp

/-- A directory is made where nothing stood, and parts lead there afterwards. -/
theorem of_makeDirectory (h : tree.makeDirectory parts = .ok next) :
    Grows tree next ∧ (∃ base, next.walk parts = .ok base) ∧
      ∀ base, tree.walk parts ≠ .ok base := by
  obtain ⟨place, hlocate, h⟩ := exists_of_bind_eq_ok h
  cases place with
  | none => cases h
  | some location =>
    dsimp only at h
    split at h
    · cases h
    next hfree =>
    cases h
    have hnone : tree.get? location = none := by simpa using hfree
    have hgrows := grows_insert_directory hnone
    obtain ⟨base, part, hwalk, hlast, hname, hcheck, rfl⟩ := locate_eq_some.mp hlocate
    have hparts : parts ++ [Path.here] = parts.dropLast ++ part :: [Path.here] := by
      rw [List.append_cons parts.dropLast part, List.dropLast_append_getLast? part hlast]
    refine ⟨hgrows, ⟨base ++ [part], walk_eq_ok.mpr ?_⟩, fun there hthere => ?_⟩
    · rw [hparts]
      exact leads_append_of_walk (hgrows.ways.walk hwalk)
        (.into hname hcheck (get?_insert_self (by simp)) (.here .nil))
    · rw [walk_eq_ok, hparts] at hthere
      obtain ⟨base', hwalk', hmore⟩ := exists_walk_of_leads hthere
      cases hwalk.symm.trans hwalk'
      cases hmore with
      | here => cases hname
      | above => cases hname
      | into _ _ hentry => cases hnone.symm.trans hentry
      | link _ _ hentry => cases hnone.symm.trans hentry

/-- A directory that is there is found. -/
theorem ensureDirectory_of_walk (h : tree.walk parts = .ok base) :
    tree.ensureDirectory parts = .ok tree := by
  rw [ensureDirectory]
  cases hmake : tree.makeDirectory parts with
  | ok made => exact absurd h ((of_makeDirectory hmake).2.2 base)
  | error fault => simp [isDirectory_iff.mpr ⟨base, h⟩]

theorem of_ensureDirectory (h : tree.ensureDirectory parts = .ok next) :
    Grows tree next ∧ ∃ base, next.walk parts = .ok base := by
  unfold ensureDirectory at h
  split at h
  · next made hmade =>
    cases h
    obtain ⟨hgrows, hwalk, -⟩ := of_makeDirectory hmade
    exact ⟨hgrows, hwalk⟩
  · split at h
    · next hdirectory =>
      cases h
      exact ⟨.refl tree, isDirectory_iff.mp hdirectory⟩
    · cases h

theorem grows_ensureDirectories (h : tree.ensureDirectories paths = (result, next)) :
    Grows tree next := by
  induction paths generalizing tree result next with
  | nil =>
    cases h
    exact .refl tree
  | cons parts paths ih =>
    rw [ensureDirectories] at h
    split at h
    · next made hmade =>
      cases h
      exact (of_ensureDirectory hmade).1
    · split at h
      · next fault above habove =>
        cases h
        exact ih habove
      · next above habove =>
        split at h
        · next made hmade =>
          cases h
          exact (ih habove).trans (of_ensureDirectory hmade).1
        · cases h
          exact ih habove
    · cases h
      exact .refl tree

theorem of_ensureDirectories (h : tree.ensureDirectories (parts :: paths) = (.ok (), next)) :
    ∃ base, next.walk parts = .ok base := by
  rw [ensureDirectories] at h
  split at h
  · next made hmade =>
    cases h
    exact (of_ensureDirectory hmade).2
  · split at h
    · cases h
    · split at h
      · next made hmade =>
        cases h
        exact (of_ensureDirectory hmade).2
      · cases h
  · cases h

/-- Whether a path can be followed to a directory. The empty path stands for the working
directory. -/
def IsOpen (tree : FileTree) (directory : Text) (base : Location) : Prop :=
  (directory.isEmpty = false → Path.check directory = .ok ()) ∧
    tree.walk (tree.parts directory) = .ok base

theorem WaysIn.isOpen (h : WaysIn tree next) (hopen : tree.IsOpen directory base) :
    next.IsOpen directory base :=
  ⟨hopen.1, h.parts_eq directory ▸ h.walk hopen.2⟩

/-- A directory with room for a new file is open. -/
theorem HasRoom.exists_isOpen (h : tree.HasRoom directory) :
    ∃ base, tree.IsOpen directory base := by
  obtain ⟨base, hwalk, n, -, hcheck, -⟩ := h
  refine ⟨base, fun hdirectory => ?_, hwalk⟩
  have hne : directory ≠ [] := by simpa using hdirectory
  have hjoin : Path.join tree.working directory ≠ [] := by
    unfold Path.join
    split_ifs <;> simp [hne]
  exact Path.check_of_check_join_right hne (Path.check_of_check_join rfl hjoin hcheck)

/-- A directory that could be made is there, and nothing else is new but directories. The working
directory is not made. -/
theorem of_createDirectories (h : tree.createDirectories directory = (.ok (), next)) :
    Grows tree next ∧ (directory.isEmpty = false → ∃ base, next.IsOpen directory base) := by
  unfold createDirectories at h
  split at h
  · next hempty =>
    cases h
    exact ⟨.refl tree, fun hne => by simp [hempty] at hne⟩
  · split at h
    · cases h
    · next hcheck =>
      have hgrows := grows_ensureDirectories h
      obtain ⟨base, hwalk⟩ := of_ensureDirectories h
      refine ⟨hgrows, fun _ => ⟨base, fun _ => hcheck, ?_⟩⟩
      rw [hgrows.ways.parts_eq]
      exact hwalk

theorem createDirectories_of_isOpen (h : tree.IsOpen directory base) :
    tree.createDirectories directory = (.ok (), tree) := by
  obtain ⟨hcheck, hwalk⟩ := h
  unfold createDirectories
  cases hempty : directory.isEmpty with
  | true => rfl
  | false => simp [hcheck hempty, ensureDirectories, ensureDirectory_of_walk hwalk]

theorem start_join {name : Text} (hname : Path.isAbsolute name = false) :
    tree.start (Path.join directory name) = tree.start directory := by
  rw [start, start, Path.isAbsolute_join hname]

/-- If the path of an entry leads anywhere, its directory is open. -/
theorem exists_isOpen {name : Text} {location : Location} (hne : name ≠ [])
    (hname : '/' ∉ name) (h : tree.source? (Path.join directory name) = some location) :
    ∃ base, tree.IsOpen directory base := by
  have habsolute := Path.isAbsolute_of_notMem hname
  obtain ⟨hcheck, hleads⟩ := source?_eq_some.mp h
  rw [start_join habsolute, Path.route_join hne hname, Path.parts_join hne hname,
    ← List.append_assoc] at hleads
  obtain ⟨base, hwalk, -⟩ := exists_walk_of_leads hleads
  refine ⟨base, fun hdirectory => ?_, hwalk⟩
  exact Path.check_of_check_join habsolute (by simpa using hdirectory) hcheck

end FileTree

namespace Store

open FileTree

variable {store : Store} {tree next : FileTree} {base : Location} {directory : Text}

/-- All that opening a store can do: it makes directories, and none if the one of the store is
there. -/
theorem of_create
    (h : (Store.create (m := StateM FileTree) directory).run.run tree = (.ok store, next)) :
    store = ⟨directory⟩ ∧ Grows tree next ∧
      (directory.isEmpty = false → ∃ base, next.IsOpen directory base) ∧
      ∀ base, tree.IsOpen directory base → next = tree := by
  obtain ⟨u, made, hmade, hstore⟩ := exists_of_run_bind_eq_ok h
  cases hstore
  have hcreate : tree.createDirectories directory = (.ok (), next) := hmade
  obtain ⟨hgrows, hopen⟩ := of_createDirectories hcreate
  refine ⟨rfl, hgrows, hopen, fun base hbase => ?_⟩
  rw [createDirectories_of_isOpen hbase] at hcreate
  cases hcreate
  rfl

end Store

end BooleanSearch
