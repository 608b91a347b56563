import BooleanSearch.Proofs.Config.Load
import BooleanSearch.Proofs.Storage.Failures

/-!
# Loads that fail

A configuration that is there is checked before anything is written, and what is written last is put
in place as a whole. So a load that fails has changed nothing, be it for what the file holds or for
an operation that could not be carried out.
-/

namespace BooleanSearch.Config

section Safety

variable {σ : Type} [MonadFiles (StateM σ)] {p : σ → Prop} {directory : Text}

theorem keeps_create
    (hcreate : Keeps p (MonadFiles.createDirectories (m := StateM σ) directory) fun _ => True) :
    Keeps p (Store.create (m := StateM σ) directory) fun store => store = ⟨directory⟩ := by
  apply hcreate.bind
  rintro ⟨⟩ -
  exact fun s hs => ⟨hs, fun store hstore => (Except.ok.inj hstore).symm⟩

omit [MonadFiles (StateM σ)] in
theorem keeps_liftExcept {α : Type} (result : Except LoadError α) :
    Keeps p (load.liftExcept (m := StateM σ) result) fun _ => True := by
  intro s hs
  rw [run_liftExcept]
  exact ⟨hs, fun _ _ => trivial⟩

theorem failsSafe_save {config : Config}
    (hcreate : Keeps p (MonadFiles.createDirectories (m := StateM σ) directory) fun _ => True)
    (hwrite : ∀ content,
      FailsSafe p ((⟨directory⟩ : Store).write (m := StateM σ) fileName content)) :
    FailsSafe p (config.save (m := StateM σ) directory) := by
  apply FailsSafe.adapt
  apply (keeps_create hcreate).bind_failsSafe
  rintro store rfl
  exact hwrite config.content

/-- A load of a file that is there fails safe if saving does so: no failure comes after a write. -/
theorem failsSafe_load [Wording]
    (hcreate : Keeps p (MonadFiles.createDirectories (m := StateM σ) directory) fun _ => True)
    (hfile : ∀ s, p s → ∃ s',
      (MonadFiles.isFile (m := StateM σ) (Path.join directory fileName)).run s = (true, s') ∧ p s')
    (hread : Keeps p (MonadFiles.read (m := StateM σ) (Path.join directory fileName)) fun _ => True)
    (hwrite : ∀ content,
      FailsSafe p ((⟨directory⟩ : Store).write (m := StateM σ) fileName content)) :
    FailsSafe p (load (m := StateM σ) directory) := by
  have hfound : Keeps p (liftM ((⟨directory⟩ : Store).contains (m := StateM σ) fileName) :
      ExceptT LoadError (StateM σ) Bool) fun isFile => isFile = true := by
    intro s hs
    obtain ⟨s', hrun, hs'⟩ := hfile s hs
    have hcontains : ((⟨directory⟩ : Store).contains (m := StateM σ) fileName).run s = (true, s') :=
      hrun
    rw [run_lift_of_eq hcontains]
    exact ⟨hs', fun isFile hvalue => (Except.ok.inj hvalue).symm⟩
  rw [load_eq]
  apply ((keeps_create hcreate).adapt (LoadError.directory directory)).bind_failsSafe
  rintro store rfl
  apply hfound.bind_failsSafe
  rintro isFile rfl
  -- The file is there, so no defaults are written; from here on the only write is the last step.
  rw [if_neg (by decide), loadFrom]
  apply (hread.adapt LoadError.file).bind_failsSafe
  intro bytes _
  apply (keeps_liftExcept (p := p) _).bind_failsSafe
  intro text _
  apply (keeps_liftExcept (p := p) _).bind_failsSafe
  intro config _
  by_cases hform : text ≠ config.toYaml
  · rw [if_pos hform]
    exact (failsSafe_save hcreate hwrite).bind_pure fun _ => config
  · rw [if_neg hform]
    exact fun s hs fault hfault => hs

end Safety

open FileTree

variable {directory : Text} {tree : FileTree} {bytes : Bytes} {error : LoadError}

/-- A load that fails leaves a file that is there, and all else, as it was, whatever the file holds
and whichever operations fail; so no file with a passing name is left either. -/
theorem load_failed [Wording] (h : tree.read (Path.join directory fileName) = .ok bytes) :
    (∀ next, (load (m := StateM FileTree) directory).run.run tree = (.error error, next) →
      next.read (Path.join directory fileName) = .ok bytes ∧ next = tree) ∧
    ∀ failures next,
      (load (m := StateM FaultyTree) directory).run.run ⟨tree, failures⟩ = (.error error, next) →
      next.tree.read (Path.join directory fileName) = .ok bytes ∧ next.tree = tree := by
  obtain ⟨place, hholds⟩ := exists_holds_of_read h
  obtain ⟨base, hopen⟩ := hholds.isOpen
  have hcreate := keeps_createDirectories hopen
  have hread := keeps_read tree (Path.join directory fileName)
  have hfile : tree.isFile (Path.join directory fileName) = true := hholds.isFile
  have hplain : FailsSafe (· = tree) (load (m := StateM FileTree) directory) := by
    apply failsSafe_load hcreate
    · rintro _ rfl
      exact ⟨_, congrArg (·, _) hfile, rfl⟩
    · exact hread
    · intro content
      exact FileTree.failsSafe_write _ _ content tree
  have hfaulty : FailsSafe (fun faulty : FaultyTree => faulty.tree = tree)
      (load (m := StateM FaultyTree) directory) := by
    apply failsSafe_load
    · exact FaultyTree.keeps_attempt hcreate fun _ _ hsame => hsame
    · rintro faulty rfl
      exact ⟨_, congrArg (·, _) hfile, rfl⟩
    · exact FaultyTree.keeps_attempt hread fun _ _ hsame => hsame
    · intro content
      exact FaultyTree.failsSafe_write _ _ content tree
  constructor
  · intro next hloaded
    have hsame : next = tree := by
      simpa only [hloaded] using hplain tree rfl error (by rw [hloaded])
    exact ⟨hsame ▸ h, hsame⟩
  · intro failures next hloaded
    have hsame : next.tree = tree := by
      simpa only [hloaded] using hfaulty ⟨tree, failures⟩ rfl error (by rw [hloaded])
    exact ⟨hsame ▸ h, hsame⟩

/-- A file that holds no text; and one that is to be written in full, but cannot be put in place, or
only seven bytes of it can be written. -/
theorem load_failed_incomplete :
    let _ : Wording := ⟨fun _ => []⟩
    let path := "conf/config.yaml".toList
    let holding : Bytes → FileTree := fun bytes => { entries :=
      [(["conf".toList], .directory), (["conf".toList, fileName], .file bytes)] }
    let bytes := Utf8.encode "default_field: body\n".toList
    let full := FileError.other "No space left on device (os error 28)".toList
    let unreadable := (load (m := StateM FileTree) "conf".toList).run.run (holding [0xFF])
    let after : List (Option Failure) → Except LoadError Config × FaultyTree := fun failures =>
      (load (m := StateM FaultyTree) "conf".toList).run.run ⟨holding bytes, failures⟩
    let unwritten := after [none, none, none, none, some ⟨full, 7⟩]
    let unmoved := after [none, none, none, none, none, some ⟨full, 0⟩]
    (unreadable.1 = .error (.encoding (.invalid 0 1)) ∧
      unreadable.2.read path = .ok [0xFF] ∧ unreadable.2 = holding [0xFF]) ∧
    (unwritten.1 = .error (.file full) ∧
      unwritten.2.tree.read path = .ok bytes ∧ unwritten.2.tree = holding bytes) ∧
    (unmoved.1 = .error (.file full) ∧
      unmoved.2.tree.read path = .ok bytes ∧ unmoved.2.tree = holding bytes) := by
  intro _ path holding bytes full unreadable after unwritten unmoved
  have hread : ∀ bytes, (holding bytes).read (Path.join "conf".toList fileName) = .ok bytes :=
    fun _ => rfl
  have hunreadable : unreadable.1 = .error (.encoding (.invalid 0 1)) := by decide +kernel
  have hunwritten : unwritten.1 = .error (.file full) := by decide +kernel
  have hunmoved : unmoved.1 = .error (.file full) := by decide +kernel
  exact ⟨⟨hunreadable, (load_failed (hread _)).1 _ (eq_mk_of_fst_eq hunreadable)⟩,
    ⟨hunwritten, (load_failed (hread _)).2 _ _ (eq_mk_of_fst_eq hunwritten)⟩,
    ⟨hunmoved, (load_failed (hread _)).2 _ _ (eq_mk_of_fst_eq hunmoved)⟩⟩

end BooleanSearch.Config
