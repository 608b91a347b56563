import BooleanSearch.Proofs.Storage.Writes

/-!
# Stores as maps

Seen from outside a store is a map from places to contents: what is read is what was last written to
the place to which the name leads, over calls of any number and in any order. A write may replace a
link, and then names lead elsewhere than before; as long as none is replaced, all names have the
places that they have at first.
-/

namespace BooleanSearch.Store

/-- A call on a store. -/
inductive Call where
  | write (name : Text) (content : Bytes)
  | read (name : Text)
  | contains (name : Text)

/-- The answer to a call. -/
inductive Answer where
  | written (result : Except FileError Unit)
  | content (result : Except FileError Bytes)
  | found (isFile : Bool)

/-- A call that was made, with the files as they were before it and the answer to it. -/
structure Made where
  before : FileTree
  call : Call
  answer : Answer

/-- Carries out a call. -/
def perform {m : Type → Type} [Monad m] [MonadFiles m] (store : Store) : Call → m Answer
  | .write name content => return .written (← (store.write name content).run)
  | .read name => return .content (← (store.read name).run)
  | .contains name => return .found (← store.contains name)

/-- Carries out calls in turn. -/
def performAll (store : Store) : List Call → StateM FileTree (List Made)
  | [] => return []
  | call :: calls => do
    let before ← get
    let answer ← store.perform call
    return ⟨before, call, answer⟩ :: (← store.performAll calls)

/-- The content that a call put at a location. -/
def putAt? (store : Store) (location : Location) (made : Made) : Option Bytes :=
  match made.call, made.answer with
  | .write name content, .written (.ok ()) =>
    if store.place? made.before name = some location then some content else none
  | _, _ => none

/-- The content that was last put at a location. -/
def lastPut? (store : Store) (location : Location) (history : List Made) : Option Bytes :=
  history.reverse.findSome? (store.putAt? location)

theorem lastPut?_cons (store : Store) (location : Location) (made : Made) (history : List Made) :
    store.lastPut? location (made :: history) =
      (store.lastPut? location history).or (store.putAt? location made) := by
  simp [lastPut?, List.findSome?_append]

open FileTree

variable {store : Store} {tree next last : FileTree} {name : Text} {content : Bytes}
  {location : Location}

theorem content?_insert_file (hroot : location ≠ []) (other : Location) :
    (tree.insert location (.file content)).content? other =
      if location = other then some content else tree.content? other := by
  unfold FileTree.content?
  split_ifs with heq
  · rw [← heq, get?_insert_self hroot]
  · rw [get?_insert_of_ne (Ne.symm heq)]

/-- Whether a tree has the directories of another one, and no other links. -/
structure Inherits (tree next : FileTree) : Prop where
  ways : WaysIn next tree
  directory : ∀ location, tree.get? location = some .directory →
    next.get? location = some .directory

theorem Inherits.refl (tree : FileTree) : Inherits tree tree := ⟨.refl tree, fun _ h => h⟩

theorem Inherits.trans (h : Inherits tree next) (h' : Inherits next last) : Inherits tree last :=
  ⟨h'.ways.trans h.ways, fun _ hentry => h'.directory _ (h.directory _ hentry)⟩

theorem inherits_insert_file (hroot : location ≠ [])
    (hfree : tree.get? location ≠ some .directory) :
    Inherits tree (tree.insert location (.file content)) := by
  refine ⟨waysIn_of_insert_file hroot, fun place hplace => ?_⟩
  have hne : place ≠ location := fun heq => hfree (heq ▸ hplace)
  rw [get?_insert_of_ne hne, hplace]

/-- One call makes no link, and a location holds what it was given or what it held. -/
theorem perform_step (store : Store) (tree : FileTree) (call : Call) :
    ∃ answer next, (store.perform (m := StateM FileTree) call).run tree = (answer, next) ∧
      Inherits tree next ∧ ∀ location, next.content? location =
        (store.putAt? location ⟨tree, call, answer⟩).or (tree.content? location) := by
  cases call with
  | read name => exact ⟨_, tree, rfl, .refl tree, fun _ => rfl⟩
  | contains name => exact ⟨_, tree, rfl, .refl tree, fun _ => rfl⟩
  | write name content =>
    have hrun : (store.perform (m := StateM FileTree) (.write name content)).run tree =
        (.written ((store.write (m := StateM FileTree) name content).run.run tree).1,
          ((store.write (m := StateM FileTree) name content).run.run tree).2) := rfl
    rcases store.write_cases tree name content with
      ⟨location, haccepts, hwrite⟩ | ⟨fault, -, hwrite⟩
    · rw [hwrite] at hrun
      refine ⟨_, _, hrun, inherits_insert_file haccepts.ne_nil haccepts.free, fun other => ?_⟩
      rw [content?_insert_file haccepts.ne_nil]
      dsimp only [putAt?]
      rw [haccepts.place]
      by_cases heq : location = other
      · simp [heq]
      · simp [heq]
    · rw [hwrite] at hrun
      exact ⟨_, tree, hrun, .refl tree, fun _ => rfl⟩

theorem run_performAll_cons (store : Store) (call : Call) (calls : List Call) (tree : FileTree) :
    (store.performAll (call :: calls)).run tree =
      let made := (store.perform (m := StateM FileTree) call).run tree
      let rest := (store.performAll calls).run made.2
      (⟨tree, call, made.1⟩ :: rest.1, rest.2) := rfl

/-- Calls in any number make no link, and a location holds what was last put there or what it held
at first. -/
theorem performAll_run (store : Store) (calls : List Call) (tree : FileTree) :
    ∃ history current, (store.performAll calls).run tree = (history, current) ∧
      history.map Made.call = calls ∧ Inherits tree current ∧
      ∀ location, current.content? location =
        (store.lastPut? location history).or (tree.content? location) := by
  induction calls generalizing tree with
  | nil => exact ⟨[], tree, rfl, rfl, .refl tree, fun _ => rfl⟩
  | cons call calls ih =>
    obtain ⟨answer, next, hrun, hstep, hcontent⟩ := store.perform_step tree call
    obtain ⟨history, current, hruns, hcalls, hsteps, hcontents⟩ := ih next
    have hall : (store.performAll (call :: calls)).run tree =
        (⟨tree, call, answer⟩ :: history, current) := by
      simp only [run_performAll_cons, hrun, hruns]
    refine ⟨_, current, hall, by rw [List.map_cons, hcalls], hstep.trans hsteps, fun location => ?_⟩
    rw [hcontents, hcontent, lastPut?_cons, Option.or_assoc]

/-- All names have the places that they had, unless a link was replaced. -/
theorem Inherits.place?_eq (h : Inherits tree next)
    (hlink : ∀ location target, tree.get? location = some (.link target) →
      next.get? location = some (.link target)) (name : Text) :
    store.place? next name = store.place? tree name ∧
      store.source? next name = store.source? tree name := by
  have hforth : WaysIn tree next := ⟨h.ways.working.symm, h.directory, hlink⟩
  constructor
  · exact Option.ext fun _ => ⟨h.ways.place?, hforth.place?⟩
  · refine Option.ext fun location => ⟨fun hsource => ?_, fun hsource => ?_⟩
    · exact h.ways.source? hsource fun target hentry =>
        get?_ne_link_of_source? hsource target (hlink location target hentry)
    · exact hforth.source? hsource fun target hentry =>
        get?_ne_link_of_source? hsource target (h.ways.link location target hentry)

/-- A store is a map from places to contents, whatever the tree and whatever calls were made. A
write that fails leaves the tree as it was, and one that does not fail puts the content at the place
of the name and changes nothing else; it fails only if there is no room for a new file in the
directory of the store, or the name has no place, or a directory stands at that place. What is read
under a name is the content that was last put at the place to which the name leads, or else what
stood there at first; and a file is there just in that case. A name leads to its own place unless
that is the place of a link. All names have the places that they had at first, unless a link of the
tree was replaced. -/
theorem refines_map (store : Store) (tree : FileTree) (calls : List Call) :
    let run := (store.performAll calls).run tree
    let history := run.1
    let current := run.2
    let content? : Location → Option Bytes := fun location =>
      (store.lastPut? location history).or (tree.content? location)
    history.map Made.call = calls ∧
    (∀ location, current.content? location = content? location) ∧
    (∀ name content,
      (∃ location next, store.Accepts current name location ∧
        (store.write (m := StateM FileTree) name content).run.run current = (.ok (), next) ∧
        next.get? location = some (.file content) ∧
        ∀ other, other ≠ location → next.get? other = current.get? other) ∨
      (∃ fault, (∀ location, ¬ store.Accepts current name location) ∧
        (store.write (m := StateM FileTree) name content).run.run current =
          (.error fault, current))) ∧
    (∀ name, ∃ result,
      (store.read (m := StateM FileTree) name).run.run current = (result, current) ∧
      result.toOption = (store.source? current name).bind content?) ∧
    (∀ name, (store.contains (m := StateM FileTree) name).run current =
      (((store.source? current name).bind content?).isSome, current)) ∧
    (∀ name location, store.place? current name = some location →
      (∀ target, current.get? location ≠ some (.link target)) →
      store.source? current name = some location) ∧
    ((∀ location target, tree.get? location = some (.link target) →
        current.get? location = some (.link target)) →
      ∀ name, store.place? current name = store.place? tree name ∧
        store.source? current name = store.source? tree name) := by
  obtain ⟨history, current, hrun, hcalls, hinherits, hcontent⟩ := store.performAll_run calls tree
  have hcurrent : current.content? = fun location =>
      (store.lastPut? location history).or (tree.content? location) := funext hcontent
  intro run
  simp only [run, hrun]
  refine ⟨hcalls, hcontent, fun name content => ?_, fun name => ?_, fun name => ?_,
    fun name location hplace hlink => source?_of_place? hplace hlink,
    fun hlink name => hinherits.place?_eq hlink name⟩
  · rcases store.write_cases current name content with
      ⟨location, haccepts, hwrite⟩ | ⟨fault, hnot, hwrite⟩
    · refine .inl ⟨location, _, haccepts, hwrite, get?_insert_self haccepts.ne_nil,
        fun other hother => ?_⟩
      exact get?_insert_of_ne hother
    · exact .inr ⟨fault, hnot, hwrite⟩
  · refine ⟨_, run_read, ?_⟩
    rw [toOption_read, hcurrent]
  · rw [run_contains, isFile_pathOf, hcurrent]

/-- A write replaces a link, and what the link led to is left as it was. -/
example :
    let tree : FileTree := { entries := [(["conf".toList], .directory),
      (["conf".toList, ['a']], .link ['b']), (["conf".toList, ['b']], .file [1])] }
    let store : Store := ⟨"conf".toList⟩
    let run := (store.performAll [.write ['a'] [2]]).run tree
    tree.read "/conf/a".toList = .ok [1] ∧ run.2.read "conf/a".toList = .ok [2] ∧
      run.2.read "conf/b".toList = .ok [1] := by
  decide +kernel

end BooleanSearch.Store
