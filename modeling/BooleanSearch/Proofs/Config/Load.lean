import BooleanSearch.Proofs.Config.Settings
import BooleanSearch.Proofs.Config.Yaml
import BooleanSearch.Proofs.Storage.Changes
import BooleanSearch.Proofs.Storage.Openings
import BooleanSearch.Proofs.Text.Utf8

/-!
# Keeping a configuration

Loading a configuration brings its file into the form that saving gives it, and a file in this form
is loaded by reading alone. A link in the place of the file is followed when the file is read, and
replaced when it is written.
-/

namespace BooleanSearch.Config

open FileTree

variable {directory text : Text} {config : Config} {tree made next : FileTree}
  {base location place : Location} {bytes written : Bytes}

/-- Whether the path of the file of a configuration in a directory leads to a file with this
content. -/
structure Holds (tree : FileTree) (directory : Text) (location : Location) (bytes : Bytes) :
    Prop where
  source : (⟨directory⟩ : Store).source? tree fileName = some location
  found : tree.get? location = some (.file bytes)

namespace Holds

theorem isOpen (h : Holds tree directory location bytes) : ∃ base, tree.IsOpen directory base :=
  exists_isOpen (by decide) (by decide) h.source

theorem read (h : Holds tree directory location bytes) :
    tree.read (Path.join directory fileName) = .ok bytes := by
  refine eq_ok_of_toOption_eq_some ?_
  rw [toOption_read]
  exact Option.bind_eq_some_iff.mpr ⟨location, h.source, content?_eq_some.mpr h.found⟩

theorem isFile (h : Holds tree directory location bytes) :
    tree.isFile (Path.join directory fileName) = true := by
  rw [isFile_eq_isSome_read, h.read]
  rfl

end Holds

theorem exists_holds_of_read (h : tree.read (Path.join directory fileName) = .ok bytes) :
    ∃ place, Holds tree directory place bytes := by
  have hcontent : (tree.source? (Path.join directory fileName)).bind tree.content? =
      some bytes := by
    rw [← FileTree.toOption_read, h]
    rfl
  obtain ⟨place, hsource, hfound⟩ := Option.bind_eq_some_iff.mp hcontent
  exact ⟨place, hsource, content?_eq_some.mp hfound⟩

/-- If there was a file before, the directory is still open when one is put in its place. -/
theorem Holds.exists_isOpen_insert (h : Holds tree directory place bytes)
    (haccepts : (⟨directory⟩ : Store).Accepts tree fileName location) :
    ∃ base, (tree.insert location (.file written)).IsOpen directory base := by
  obtain ⟨base, hopen⟩ := h.isOpen
  exact ⟨base, hopen.1, walk_insert_of_source? haccepts.place h.source h.found hopen.2⟩

/-- A file that was put in its place is found there, if its directory is still open. -/
theorem holds_of_accepts (haccepts : (⟨directory⟩ : Store).Accepts tree fileName location)
    (hopen : (tree.insert location (.file bytes)).IsOpen directory base) :
    Holds (tree.insert location (.file bytes)) directory location bytes := by
  have hfound : (tree.insert location (.file bytes)).get? location = some (.file bytes) :=
    get?_insert_self haccepts.ne_nil
  have hback : WaysIn (tree.insert location (.file bytes)) tree :=
    waysIn_of_insert_file haccepts.ne_nil
  obtain ⟨hcheck, hlocate, hslash⟩ := place?_eq_some.mp haccepts.place
  obtain ⟨start, part, hwalk, hlast, hname, hpart, hlocation⟩ := locate_eq_some.mp hlocate
  have hparts : ∀ tree : FileTree, (tree.parts (Path.join directory fileName)).dropLast =
      tree.parts directory := by
    intro tree
    rw [parts, start_join (by decide), Path.parts_join (by decide) (by decide),
      ← List.append_assoc, List.dropLast_concat]
    rfl
  -- Before and after, the directory is at the same place.
  have hsame : start = base := by
    have hopened := (hback.isOpen hopen).2
    rw [Store.pathOf, hparts] at hwalk
    exact Except.ok.inj (hwalk.symm.trans hopened)
  have hplace : (tree.insert location (.file bytes)).place? (Path.join directory fileName) =
      some location := by
    refine place?_eq_some.mpr ⟨hcheck, locate_eq_some.mpr ⟨start, part, ?_, ?_⟩, hslash⟩
    · rw [hparts, hsame, hopen.2]
    · exact ⟨hback.parts_eq _ ▸ hlast, hname, hpart, hlocation⟩
  exact ⟨source?_of_place? hplace (by simp [hfound]), hfound⟩

theorem of_save
    (h : (config.save (m := StateM FileTree) directory).run.run tree = (.ok (), next)) :
    ∃ made location, Grows tree made ∧ (∀ base, tree.IsOpen directory base → made = tree) ∧
      (⟨directory⟩ : Store).Accepts made fileName location ∧
      next = made.insert location (.file config.content) := by
  obtain ⟨store, made, hcreate, hwrite⟩ := exists_of_run_bind_eq_ok (of_run_adapt_eq_ok h)
  obtain ⟨rfl, hgrows, -, hsame⟩ := Store.of_create hcreate
  obtain ⟨location, haccepts, rfl⟩ := Store.of_write hwrite
  exact ⟨made, location, hgrows, hsame, haccepts, rfl⟩

theorem of_ofText [Wording] (h : ofText text = .ok config) :
    config.check = .ok () ∧ ofYaml? text = some config := by
  unfold ofText at h
  split at h
  · cases h
  · next found hfound =>
    obtain ⟨u, hcheck, hsame⟩ := exists_of_bind_eq_ok h
    cases hsame
    exact ⟨of_mapError_eq_ok hcheck, hfound⟩

section Steps

variable {m : Type → Type} [Monad m] [MonadFiles m] [Wording]

/-- Loads a configuration from a file that is there. -/
def loadFrom (store : Store) (directory : Text) : ExceptT LoadError m Config := do
  let bytes ← ExceptT.adapt .file (store.read fileName)
  let text ← load.liftExcept ((Utf8.decode bytes).mapError .encoding)
  let config ← load.liftExcept (ofText text)
  if text ≠ config.toYaml then config.save directory
  return config

/-- Loading opens the store, writes the defaults if there is no file, and loads the file. -/
theorem load_eq : load (m := m) directory = (do
    let store ← ExceptT.adapt (.directory directory) (Store.create directory)
    let isFile ← store.contains (m := m) fileName
    if !isFile then do
      ExceptT.adapt .file (store.write fileName (content {}))
      loadFrom store directory
    else loadFrom store directory) := rfl

end Steps

theorem run_liftExcept {σ α : Type} {s : σ} (result : Except LoadError α) :
    (load.liftExcept (m := StateM σ) result).run.run s = (result, s) := rfl

section Reading

variable [Wording] {σ : Type} [MonadFiles (StateM σ)] {s : σ}

/-- The file of a configuration is loaded by reading alone, whatever holds the files. -/
theorem loadFrom_of_content (hcheck : config.check = .ok ())
    (hread : (MonadFiles.read (m := StateM σ) (Path.join directory fileName)).run.run s =
      (.ok config.content, s)) :
    (loadFrom (m := StateM σ) ⟨directory⟩ directory).run.run s = (.ok config, s) := by
  have hbytes : ((⟨directory⟩ : Store).read (m := StateM σ) fileName).run.run s =
      (.ok config.content, s) := hread
  have hdecode : (Utf8.decode config.content).mapError LoadError.encoding = .ok config.toYaml := by
    rw [content, Utf8.decode_encode]
    rfl
  rw [loadFrom, run_bind_of_eq_ok (run_adapt_of_eq_ok hbytes _), hdecode,
    run_bind_of_eq_ok (run_liftExcept _), ofText_toYaml hcheck,
    run_bind_of_eq_ok (run_liftExcept _), if_neg (by simp)]
  rfl

theorem load_of_content (hcheck : config.check = .ok ())
    (hcreate : (MonadFiles.createDirectories (m := StateM σ) directory).run.run s = (.ok (), s))
    (hfile : (MonadFiles.isFile (m := StateM σ) (Path.join directory fileName)).run s = (true, s))
    (hread : (MonadFiles.read (m := StateM σ) (Path.join directory fileName)).run.run s =
      (.ok config.content, s)) :
    (load (m := StateM σ) directory).run.run s = (.ok config, s) := by
  have hopened : (Store.create (m := StateM σ) directory).run.run s = (.ok ⟨directory⟩, s) :=
    run_bind_of_eq_ok hcreate _
  have hfound : ((⟨directory⟩ : Store).contains (m := StateM σ) fileName).run s = (true, s) := hfile
  rw [load_eq, run_bind_of_eq_ok (run_adapt_of_eq_ok hopened _),
    run_bind_of_eq_ok (run_lift_of_eq hfound), if_neg (by decide)]
  exact loadFrom_of_content hcheck hread

theorem check_of_loadFrom {store : Store} {s' : σ}
    (h : (loadFrom (m := StateM σ) store directory).run.run s = (.ok config, s')) :
    config.check = .ok () := by
  obtain ⟨bytes, s₁, -, h⟩ := exists_of_run_bind_eq_ok h
  obtain ⟨text, s₂, -, h⟩ := exists_of_run_bind_eq_ok h
  obtain ⟨found, s₃, htext, h⟩ := exists_of_run_bind_eq_ok h
  rw [run_liftExcept, Prod.mk.injEq] at htext
  have hcheck := (of_ofText htext.1).1
  split_ifs at h with hform
  · obtain ⟨u, s₄, -, hsame⟩ := exists_of_run_bind_eq_ok h
    cases hsame
    exact hcheck
  · cases h
    exact hcheck

/-- The settings of a configuration that is loaded can be used, whatever holds the files. -/
theorem check_of_load {s' : σ}
    (h : (load (m := StateM σ) directory).run.run s = (.ok config, s')) :
    config.check = .ok () := by
  rw [load_eq] at h
  obtain ⟨store, s₁, -, h⟩ := exists_of_run_bind_eq_ok h
  obtain ⟨isFile, s₂, -, h⟩ := exists_of_run_bind_eq_ok h
  split_ifs at h with hmissing
  · obtain ⟨u, s₃, -, h⟩ := exists_of_run_bind_eq_ok h
    exact check_of_loadFrom h
  · exact check_of_loadFrom h

end Reading

section Loading

variable [Wording]

/-- What is stored in a directory is loaded, and the tree is left as it is. -/
theorem Holds.load (hcheck : config.check = .ok ())
    (h : Holds tree directory location config.content) :
    (Config.load (m := StateM FileTree) directory).run.run tree = (.ok config, tree) := by
  obtain ⟨base, hopen⟩ := h.isOpen
  refine load_of_content hcheck (createDirectories_of_isOpen hopen) ?_ ?_
  · exact congrArg (·, tree) h.isFile
  · exact congrArg (·, tree) h.read

/-- A file that could be loaded was there. -/
theorem exists_holds_of_loadFrom
    (h : (loadFrom (m := StateM FileTree) ⟨directory⟩ directory).run.run tree =
      (.ok config, next)) :
    ∃ place bytes, Holds tree directory place bytes := by
  obtain ⟨bytes, tree₁, hread, -⟩ := exists_of_run_bind_eq_ok h
  replace hread := of_run_adapt_eq_ok hread
  rw [Store.run_read, Prod.mk.injEq] at hread
  obtain ⟨place, hholds⟩ := exists_holds_of_read hread.1
  exact ⟨place, bytes, hholds⟩

/-- A file that could be loaded holds a configuration, and is afterwards as saving leaves it. All
else is as it was. -/
theorem of_loadFrom (hholds : Holds tree directory place bytes)
    (h : (loadFrom (m := StateM FileTree) ⟨directory⟩ directory).run.run tree =
      (.ok config, next)) :
    ∃ location text, (place = location ∨ ∃ target, tree.get? location = some (.link target)) ∧
      Utf8.decode bytes = .ok text ∧ ofText text = .ok config ∧
      Holds next directory location config.content ∧
      ∀ other, other ≠ location → next.get? other = tree.get? other := by
  obtain ⟨bytes, tree₁, hread, h⟩ := exists_of_run_bind_eq_ok h
  obtain ⟨text, tree₂, hdecode, h⟩ := exists_of_run_bind_eq_ok h
  obtain ⟨found, tree₃, htext, h⟩ := exists_of_run_bind_eq_ok h
  replace hread := of_run_adapt_eq_ok hread
  rw [Store.run_read, Prod.mk.injEq, Store.pathOf, hholds.read] at hread
  obtain ⟨hread, rfl⟩ := hread
  cases hread
  rw [run_liftExcept, Prod.mk.injEq] at hdecode
  obtain ⟨hdecode, rfl⟩ := hdecode
  rw [run_liftExcept, Prod.mk.injEq] at htext
  obtain ⟨htext, rfl⟩ := htext
  replace hdecode := of_mapError_eq_ok hdecode
  split_ifs at h with hform
  · obtain ⟨u, tree₁, hsave, hsame⟩ := exists_of_run_bind_eq_ok h
    cases hsame
    obtain ⟨base, hopen⟩ := hholds.isOpen
    obtain ⟨made, location, -, hmade, haccepts, rfl⟩ := of_save hsave
    cases hmade base hopen
    obtain ⟨base, hopen⟩ := hholds.exists_isOpen_insert haccepts
    refine ⟨location, text, ?_, hdecode, htext, holds_of_accepts haccepts hopen,
      fun other hother => get?_insert_of_ne hother⟩
    by_cases hlink : ∃ target, tree.get? location = some (.link target)
    · exact .inr hlink
    · refine .inl (Option.some.inj (hholds.source.symm.trans ?_))
      exact source?_of_place? haccepts.place fun target htarget => hlink ⟨target, htarget⟩
  · cases h
    have hbytes : bytes = config.content := by
      rw [content, ← not_not.mp hform, Utf8.encode_of_decode hdecode]
    exact ⟨place, text, .inl rfl, hdecode, htext, hbytes ▸ hholds, fun _ _ => rfl⟩

/-- What loading a configuration does, whatever the file holds before. First the missing directories
are made, and none if the directory is there. The configuration has the settings of the file, which
is missing or else holds the text of a document, and defaults for all others, and all of them can be
used. Afterwards the file holds just what the configuration is written as, and nothing else is
changed; if another file was read than is there now, a link to it was replaced. Loading once more
gives the same configuration and changes nothing. -/
theorem load_settles
    (h : (load (m := StateM FileTree) directory).run.run tree = (.ok config, next)) :
    config.check = .ok () ∧
    ∃ made location, Grows tree made ∧ (∀ base, tree.IsOpen directory base → made = tree) ∧
      Holds next directory location config.content ∧
      ((made.isFile (Path.join directory fileName) = false ∧ config = {} ∧
          (tree.get? location = none ∨ ∃ target, tree.get? location = some (.link target))) ∨
        ∃ place bytes text document, Holds made directory place bytes ∧
          tree.get? place = some (.file bytes) ∧
          (place = location ∨ ∃ target, tree.get? location = some (.link target)) ∧
          Utf8.decode bytes = .ok text ∧ Yaml.document? text = some document ∧
          config.Follows document) ∧
      (∀ other, other ≠ location → next.get? other = made.get? other) ∧
      (load (m := StateM FileTree) directory).run.run next = (.ok config, next) := by
  rw [load_eq] at h
  obtain ⟨store, made, hcreate, h⟩ := exists_of_run_bind_eq_ok h
  obtain ⟨rfl, hgrows, -, hsame⟩ := Store.of_create (of_run_adapt_eq_ok hcreate)
  rw [run_bind_of_eq_ok (run_lift_of_eq Store.run_contains)] at h
  split_ifs at h with hmissing
  · obtain ⟨u, written, hwrite, h⟩ := exists_of_run_bind_eq_ok h
    obtain ⟨location, haccepts, rfl⟩ := Store.of_write (of_run_adapt_eq_ok hwrite)
    obtain ⟨place, bytes, hfound⟩ := exists_holds_of_loadFrom h
    obtain ⟨base, hopen⟩ := hfound.isOpen
    have hholds := holds_of_accepts haccepts hopen
    have hdefault : ({} : Config).check = .ok () := by decide
    have hread : (MonadFiles.read (m := StateM FileTree) (Path.join directory fileName)).run.run
        (made.insert location (.file (content {}))) =
        (.ok (content {}), made.insert location (.file (content {}))) :=
      congrArg (·, made.insert location (.file (content {}))) hholds.read
    rw [loadFrom_of_content hdefault hread] at h
    cases h
    have hfile : made.isFile (Path.join directory fileName) = false := by
      simpa [Store.pathOf] using hmissing
    have hentry : made.get? location = none ∨
        ∃ target, made.get? location = some (.link target) := by
      cases hentry : made.get? location with
      | none => exact .inl rfl
      | some entry =>
        cases entry with
        | directory => exact absurd hentry haccepts.free
        | link target => exact .inr ⟨target, rfl⟩
        | file content =>
          have hsource := source?_of_place? haccepts.place (by simp [hentry])
          have hthere : Holds made directory location content := ⟨hsource, hentry⟩
          rw [hthere.isFile] at hfile
          cases hfile
    refine ⟨hdefault, made, location, hgrows, hsame, hholds, .inl ⟨hfile, rfl, ?_⟩,
      fun other hother => get?_insert_of_ne hother, hholds.load hdefault⟩
    rcases hentry with hnone | ⟨target, hlink⟩
    · exact .inl (hgrows.get?_eq_none hnone)
    · exact .inr ⟨target, hgrows.of_get?_eq_some (by simp) hlink⟩
  · obtain ⟨place, bytes, hholds⟩ := exists_holds_of_loadFrom h
    obtain ⟨location, text, hplace, hdecode, htext, hnext, hothers⟩ := of_loadFrom hholds h
    obtain ⟨hcheck, hyaml⟩ := of_ofText htext
    obtain ⟨document, hdocument, hfollows⟩ := follows_of_ofYaml? hyaml
    refine ⟨hcheck, made, location, hgrows, hsame, hnext, .inr ⟨place, bytes, text, document,
      hholds, hgrows.of_get?_eq_some (by simp) hholds.found, ?_, hdecode, hdocument, hfollows⟩,
      hothers, hnext.load hcheck⟩
    rcases hplace with rfl | ⟨target, hlink⟩
    · exact .inl rfl
    · exact .inr ⟨target, hgrows.of_get?_eq_some (by simp) hlink⟩

end Loading

/-- A file that names one setting, whose value looks like a number, and something else; and a link
to such a file, which is replaced. -/
theorem load_settles_partial_file :
    let _ : Wording := ⟨fun _ => []⟩
    let written := "legacy: [1, 2]\n'default_field': 0x10\n".toList
    let settled := "default_field: '0x10'\n".toList ++
      "listen_addr: '127.0.0.1:8080'\nreject_orphaned_operands: false\n".toList
    let file : Location := ["conf".toList, fileName]
    let old : Location := ["conf".toList, "old.yaml".toList]
    let plain : FileTree :=
      { entries := [(["conf".toList], .directory), (file, .file (Utf8.encode written))] }
    let linked : FileTree := { entries := [(["conf".toList], .directory),
      (file, .link "old.yaml".toList), (old, .file (Utf8.encode written))] }
    let config : Config := { field := "0x10".toList }
    let loaded := fun tree => (load (m := StateM FileTree) "conf".toList).run.run tree
    (∀ tree ∈ [plain, linked], (loaded tree).1 = .ok config ∧
      (loaded tree).2.get? file = some (.file (Utf8.encode settled)) ∧
      loaded (loaded tree).2 = (.ok config, (loaded tree).2)) ∧
    (loaded linked).2.get? old = some (.file (Utf8.encode written)) := by
  intro _ written settled file old plain linked config loaded
  have hloaded : ∀ tree ∈ [plain, linked], (loaded tree).1 = .ok config ∧
      (loaded tree).2.get? file = some (.file (Utf8.encode settled)) := by decide +kernel
  have hold : (loaded linked).2.get? old = some (.file (Utf8.encode written)) := by decide +kernel
  refine ⟨fun tree htree => ?_, hold⟩
  obtain ⟨hconfig, hfile⟩ := hloaded tree htree
  obtain ⟨-, made, location, -, -, -, -, -, hagain⟩ := load_settles (eq_mk_of_fst_eq hconfig)
  exact ⟨hconfig, hfile, hagain⟩

/-- The path of the directory passes the link that is replaced, which led to a directory. -/
example :
    let _ : Wording := ⟨fun _ => []⟩
    let tree : FileTree := { entries := [([['a']], .directory), ([['a'], ['b']], .directory),
      ([['a'], fileName], .link ['b'])] }
    let directory := "/a/config.yaml/..".toList
    let saved := (({} : Config).save (m := StateM FileTree) directory).run.run tree
    let loaded := (load (m := StateM FileTree) directory).run.run saved.2
    saved.1 = .ok () ∧ saved.2.get? [['a'], fileName] = some (.file (content {})) ∧
      loaded.1 = .error (.directory directory .notDirectory) := by
  intro _ tree directory saved loaded
  decide +kernel

end BooleanSearch.Config
