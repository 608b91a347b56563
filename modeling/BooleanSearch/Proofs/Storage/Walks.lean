import BooleanSearch.Proofs.Result
import BooleanSearch.Proofs.Storage.Paths
import BooleanSearch.Storage.FileTree
import Mathlib.Tactic.SplitIfs

/-!
# Following paths

Where parts lead is told by the directories and links on their way. Parts that lead somewhere in one
tree lead there in any other one that has the same directories and links on this way.
-/

namespace BooleanSearch.FileTree

variable {tree next : FileTree} {m n : Nat} {location place other base : Location} {part : Text}
  {parts front more : List Text}

/-- Whether parts lead from a location to another one by way of at most so many links. No link
stands where they end, but there need not be an entry. -/
inductive Leads (tree : FileTree) : Nat → Location → List Text → Location → Prop
  | nil {n : Nat} {location : Location} : Leads tree n location [] location
  | here {n : Nat} {location place : Location} {parts : List Text}
      (h : Leads tree n location parts place) : Leads tree n location (Path.here :: parts) place
  | above {n : Nat} {location place : Location} {parts : List Text}
      (h : Leads tree n location.dropLast parts place) :
      Leads tree n location (Path.above :: parts) place
  | into {n : Nat} {location place : Location} {part : Text} {parts : List Text}
      (hname : Path.isName part = true) (hcheck : Path.checkName part = .ok ())
      (hentry : tree.get? (location ++ [part]) = some .directory)
      (h : Leads tree n (location ++ [part]) parts place) :
      Leads tree n location (part :: parts) place
  | link {n : Nat} {location place : Location} {part target : Text} {parts : List Text}
      (hname : Path.isName part = true) (hcheck : Path.checkName part = .ok ())
      (hentry : tree.get? (location ++ [part]) = some (.link target))
      (h : Leads tree n (linkStart location target) (Path.route target ++ parts) place) :
      Leads tree (n + 1) location (part :: parts) place
  | last {n : Nat} {location : Location} {part : Text}
      (hname : Path.isName part = true) (hcheck : Path.checkName part = .ok ())
      (hentry : ∀ target, tree.get? (location ++ [part]) ≠ some (.link target)) :
      Leads tree n location [part] (location ++ [part])

variable {handOn : Location → List Text → Except FileError Location}

theorem follow_here :
    tree.follow handOn location (Path.here :: parts) = tree.follow handOn location parts := by
  rw [follow, if_pos rfl]

theorem follow_above :
    tree.follow handOn location (Path.above :: parts) =
      tree.follow handOn location.dropLast parts := by
  rw [follow, if_neg (by decide), if_pos rfl]

theorem follow_name (hname : Path.isName part = true) :
    tree.follow handOn location (part :: parts) = (do
      Path.checkName part
      match tree.get? (location ++ [part]) with
      | some .directory => tree.follow handOn (location ++ [part]) parts
      | some (.link target) => handOn (linkStart location target) (Path.route target ++ parts)
      | some (.file _) => if parts.isEmpty then .ok (location ++ [part]) else .error .notDirectory
      | none => if parts.isEmpty then .ok (location ++ [part]) else .error .notFound) := by
  obtain ⟨hhere, habove⟩ : part ≠ Path.here ∧ part ≠ Path.above := by
    simpa [Path.isName] using hname
  rw [follow, if_neg hhere]
  exact if_neg habove

theorem leads_of_follow
    (hhand : ∀ location parts, handOn location parts = .ok place →
      ∃ m, n = m + 1 ∧ Leads tree m location parts place)
    (h : tree.follow handOn location parts = .ok place) : Leads tree n location parts place := by
  induction parts generalizing location with
  | nil =>
    cases h
    exact .nil
  | cons part parts ih =>
    rcases Path.part_cases part with rfl | rfl | hname
    · rw [follow_here] at h
      exact .here (ih h)
    · rw [follow_above] at h
      exact .above (ih h)
    · rw [follow_name hname] at h
      obtain ⟨u, hcheck, h⟩ := exists_of_bind_eq_ok h
      split at h
      · next hentry => exact .into hname hcheck hentry (ih h)
      · next target hentry =>
        obtain ⟨m, rfl, h⟩ := hhand _ _ h
        exact .link hname hcheck hentry h
      all_goals
        next hentry =>
        cases parts with
        | nil =>
          cases h
          exact .last hname hcheck (by simp [hentry])
        | cons part parts => cases h

theorem leads_of_resolve (h : tree.resolve n location parts = .ok place) :
    Leads tree n location parts place := by
  induction n generalizing location parts with
  | zero =>
    rw [resolve] at h
    refine leads_of_follow (fun _ _ hrest => ?_) h
    cases hrest
  | succ n ih =>
    rw [resolve] at h
    exact leads_of_follow (fun _ _ hrest => ⟨n, rfl, ih hrest⟩) h

theorem exists_resolve_eq_follow (tree : FileTree) (n : Nat) :
    ∃ handOn, tree.resolve n = tree.follow handOn := by
  cases n with
  | zero => exact ⟨_, rfl⟩
  | succ n => exact ⟨_, rfl⟩

theorem Leads.resolve_eq (h : Leads tree n location parts place) :
    tree.resolve n location parts = .ok place := by
  induction h with
  | @nil n location =>
    obtain ⟨handOn, hn⟩ := exists_resolve_eq_follow tree n
    rw [hn, follow]
  | @here n location place parts h ih =>
    obtain ⟨handOn, hn⟩ := exists_resolve_eq_follow tree n
    rw [hn, follow_here, ← hn, ih]
  | @above n location place parts h ih =>
    obtain ⟨handOn, hn⟩ := exists_resolve_eq_follow tree n
    rw [hn, follow_above, ← hn, ih]
  | @into n location place part parts hname hcheck hentry h ih =>
    obtain ⟨handOn, hn⟩ := exists_resolve_eq_follow tree n
    rw [hn] at ih ⊢
    rw [follow_name hname, hcheck, hentry]
    exact ih
  | @link n location place part target parts hname hcheck hentry h ih =>
    rw [resolve, follow_name hname, hcheck, hentry]
    exact ih
  | @last n location part hname hcheck hentry =>
    obtain ⟨handOn, hn⟩ := exists_resolve_eq_follow tree n
    rw [hn, follow_name hname, hcheck]
    cases hfound : tree.get? (location ++ [part]) with
    | none => rfl
    | some entry =>
      cases entry with
      | directory => rfl
      | file content => rfl
      | link target => exact absurd hfound (hentry target)

theorem resolve_eq_ok_iff :
    tree.resolve n location parts = .ok place ↔ Leads tree n location parts place :=
  ⟨leads_of_resolve, Leads.resolve_eq⟩

/-- Whether a directory stands at a location and at each one on the way to it. -/
def IsRooted (tree : FileTree) (location : Location) : Prop :=
  ∀ other, other <+: location → tree.get? other = some .directory

namespace IsRooted

theorem root (tree : FileTree) : tree.IsRooted [] := by
  intro other hother
  rw [List.prefix_nil.mp hother]
  rfl

theorem get? (h : tree.IsRooted location) : tree.get? location = some .directory :=
  h location List.prefix_rfl

theorem dropLast (h : tree.IsRooted location) : tree.IsRooted location.dropLast :=
  fun other hother => h other (hother.trans (List.dropLast_prefix location))

theorem concat (h : tree.IsRooted location)
    (hentry : tree.get? (location ++ [part]) = some .directory) :
    tree.IsRooted (location ++ [part]) := by
  intro other hother
  rcases List.prefix_concat_iff.mp hother with rfl | hother
  · exact hentry
  · exact h other hother

theorem linkStart (h : tree.IsRooted location) (target : Text) :
    tree.IsRooted (linkStart location target) := by
  unfold FileTree.linkStart
  split
  · exact root tree
  · exact h

end IsRooted

namespace Leads

theorem of_le (h : Leads tree n location parts place) (hle : n ≤ m) :
    Leads tree m location parts place := by
  induction h generalizing m with
  | nil => exact .nil
  | here h ih => exact .here (ih hle)
  | above h ih => exact .above (ih hle)
  | into hname hcheck hentry h ih => exact .into hname hcheck hentry (ih hle)
  | link hname hcheck hentry h ih =>
    cases m with
    | zero => cases hle
    | succ m => exact .link hname hcheck hentry (ih (Nat.le_of_succ_le_succ hle))
  | last hname hcheck hentry => exact .last hname hcheck hentry

/-- Parts lead to one place only. -/
theorem unique (h : Leads tree m location parts place) (h' : Leads tree n location parts other) :
    place = other := by
  have hplace := (h.of_le (Nat.le_max_left m n)).resolve_eq
  have hother := (h'.of_le (Nat.le_max_right m n)).resolve_eq
  exact Except.ok.inj (hplace.symm.trans hother)

/-- A way may be broken off before any of its parts, in a directory. -/
theorem of_append (h : Leads tree n location (front ++ part :: more) place) :
    ∃ base, Leads tree n location (front ++ [Path.here]) base ∧
      Leads tree n base (part :: more) place := by
  generalize hparts : front ++ part :: more = parts at h
  induction h generalizing front with
  | nil => simp at hparts
  | here h ih =>
    cases front with
    | nil =>
      cases hparts
      exact ⟨_, .here .nil, .here h⟩
    | cons first front =>
      cases hparts
      obtain ⟨base, hfront, hmore⟩ := ih rfl
      exact ⟨base, .here hfront, hmore⟩
  | above h ih =>
    cases front with
    | nil =>
      cases hparts
      exact ⟨_, .here .nil, .above h⟩
    | cons first front =>
      cases hparts
      obtain ⟨base, hfront, hmore⟩ := ih rfl
      exact ⟨base, .above hfront, hmore⟩
  | into hname hcheck hentry h ih =>
    cases front with
    | nil =>
      cases hparts
      exact ⟨_, .here .nil, .into hname hcheck hentry h⟩
    | cons first front =>
      cases hparts
      obtain ⟨base, hfront, hmore⟩ := ih rfl
      exact ⟨base, .into hname hcheck hentry hfront, hmore⟩
  | link hname hcheck hentry h ih =>
    cases front with
    | nil =>
      cases hparts
      exact ⟨_, .here .nil, .link hname hcheck hentry h⟩
    | cons first front =>
      cases hparts
      obtain ⟨base, hfront, hmore⟩ := ih (List.append_assoc _ front _)
      rw [List.append_assoc] at hfront
      exact ⟨base, .link hname hcheck hentry hfront, hmore.of_le (Nat.le_succ _)⟩
  | last hname hcheck hentry =>
    cases front with
    | nil =>
      cases hparts
      exact ⟨_, .here .nil, .last hname hcheck hentry⟩
    | cons first front => simp at hparts

/-- A way into a directory may be gone on from there. -/
theorem append (h : Leads tree n location (front ++ [Path.here]) base)
    (hmore : Leads tree m base more place) : Leads tree (n + m) location (front ++ more) place := by
  generalize hparts : front ++ [Path.here] = parts at h
  induction h generalizing front with
  | nil => simp at hparts
  | @here n location base parts h ih =>
    cases front with
    | nil =>
      cases hparts
      cases h
      exact hmore.of_le (Nat.le_add_left m n)
    | cons first front =>
      cases hparts
      exact .here (ih hmore rfl)
  | above h ih =>
    cases front with
    | nil => cases hparts
    | cons first front =>
      cases hparts
      exact .above (ih hmore rfl)
  | into hname hcheck hentry h ih =>
    cases front with
    | nil =>
      cases hparts
      cases hname
    | cons first front =>
      cases hparts
      exact .into hname hcheck hentry (ih hmore rfl)
  | @link n location base first target rest hname hcheck hentry h ih =>
    cases front with
    | nil =>
      cases hparts
      cases hname
    | cons first front =>
      cases hparts
      have hall := ih hmore (List.append_assoc _ front _)
      rw [List.append_assoc] at hall
      rw [Nat.add_right_comm]
      exact .link hname hcheck hentry hall
  | last hname hcheck hentry =>
    cases front with
    | nil =>
      cases hparts
      cases hname
    | cons first front => simp at hparts

/-- A way from below directories into a directory ends below directories, and it does without its
last part. -/
theorem directories (hlocation : tree.IsRooted location)
    (h : Leads tree n location (front ++ [Path.here]) place) :
    Leads tree n location front place ∧ tree.IsRooted place := by
  generalize hparts : front ++ [Path.here] = parts at h
  induction h generalizing front with
  | nil => simp at hparts
  | here h ih =>
    cases front with
    | nil =>
      cases hparts
      cases h
      exact ⟨.nil, hlocation⟩
    | cons first front =>
      cases hparts
      obtain ⟨hfront, hplace⟩ := ih hlocation rfl
      exact ⟨.here hfront, hplace⟩
  | @above n location place parts h ih =>
    cases front with
    | nil => cases hparts
    | cons first front =>
      cases hparts
      obtain ⟨hfront, hplace⟩ := ih hlocation.dropLast rfl
      exact ⟨.above hfront, hplace⟩
  | into hname hcheck hentry h ih =>
    cases front with
    | nil =>
      cases hparts
      cases hname
    | cons first front =>
      cases hparts
      obtain ⟨hfront, hplace⟩ := ih (hlocation.concat hentry) rfl
      exact ⟨.into hname hcheck hentry hfront, hplace⟩
  | @link n location place first target rest hname hcheck hentry h ih =>
    cases front with
    | nil =>
      cases hparts
      cases hname
    | cons first front =>
      cases hparts
      obtain ⟨hfront, hplace⟩ :=
        ih (hlocation.linkStart _) (List.append_assoc _ front _)
      exact ⟨.link hname hcheck hentry hfront, hplace⟩
  | last hname hcheck hentry =>
    cases front with
    | nil =>
      cases hparts
      cases hname
    | cons first front => simp at hparts

/-- No link stands where a way ends. -/
theorem get?_ne_link (hlocation : tree.IsRooted location)
    (h : Leads tree n location parts place) (target : Text) :
    tree.get? place ≠ some (.link target) := by
  induction h with
  | @nil n location => simp [hlocation.get?]
  | here h ih => exact ih hlocation
  | @above n location place parts h ih =>
    exact ih hlocation.dropLast
  | into hname hcheck hentry h ih => exact ih (hlocation.concat hentry)
  | link hname hcheck hentry h ih => exact ih (hlocation.linkStart _)
  | last hname hcheck hentry => exact hentry target

/-- Parts lead to the same place in a tree that has the same directories, and the same links as far
as they lead to this place. -/
theorem mono (h : Leads tree n location parts place)
    (hdirectory : ∀ other, tree.get? other = some .directory → next.get? other = some .directory)
    (hlink : ∀ other part target m rest, tree.get? (other ++ [part]) = some (.link target) →
      Leads tree m (linkStart other target) (Path.route target ++ rest) place →
      next.get? (other ++ [part]) = some (.link target))
    (hend : ∀ target, next.get? place ≠ some (.link target)) :
    Leads next n location parts place := by
  induction h with
  | nil => exact .nil
  | here h ih => exact .here (ih hlink hend)
  | above h ih => exact .above (ih hlink hend)
  | into hname hcheck hentry h ih =>
    exact .into hname hcheck (hdirectory _ hentry) (ih hlink hend)
  | link hname hcheck hentry h ih =>
    exact .link hname hcheck (hlink _ _ _ _ _ hentry h) (ih hlink hend)
  | last hname hcheck hentry => exact .last hname hcheck hend

end Leads

theorem walk_eq_ok :
    tree.walk parts = .ok base ↔ Leads tree linkLimit [] (parts ++ [Path.here]) base :=
  resolve_eq_ok_iff

theorem isRooted_of_walk (h : tree.walk parts = .ok base) : tree.IsRooted base :=
  ((walk_eq_ok.mp h).directories (.root tree)).2

/-- What comes before a part of a way to some place leads into a directory. -/
theorem exists_walk_of_leads (h : Leads tree linkLimit [] (front ++ part :: more) place) :
    ∃ base, tree.walk front = .ok base ∧ Leads tree linkLimit base (part :: more) place := by
  obtain ⟨base, hfront, hmore⟩ := h.of_append
  exact ⟨base, walk_eq_ok.mpr hfront, hmore⟩

theorem leads_append_of_walk (h : tree.walk front = .ok base)
    (hmore : Leads tree 0 base more place) : Leads tree linkLimit [] (front ++ more) place :=
  (walk_eq_ok.mp h).append hmore

/-- What leads on from the place of an entry that is no directory leads into no directory. -/
theorem Leads.get?_eq_directory (hlocation : tree.IsRooted location)
    (h : Leads tree m location front place) (hmore : Leads tree n location (front ++ more) base)
    (hbase : tree.get? base = some .directory) : tree.get? place = some .directory := by
  cases more with
  | nil =>
    rw [List.append_nil] at hmore
    rw [h.unique hmore, hbase]
  | cons part more =>
    obtain ⟨between, hfront, -⟩ := hmore.of_append
    obtain ⟨hbetween, hrooted⟩ := hfront.directories hlocation
    rw [h.unique hbetween, hrooted.get?]

theorem locate_eq_some :
    tree.locate parts = .ok (some location) ↔
      ∃ base part, tree.walk parts.dropLast = .ok base ∧ parts.getLast? = some part ∧
        Path.isName part = true ∧ Path.checkName part = .ok () ∧ location = base ++ [part] := by
  constructor
  · intro h
    obtain ⟨base, hwalk, hlast⟩ := exists_of_bind_eq_ok h
    cases hpart : parts.getLast? with
    | none => simp [hpart, pure, Except.pure] at hlast
    | some part =>
      cases hname : Path.isName part with
      | false => simp [hpart, hname, pure, Except.pure] at hlast
      | true =>
        simp only [hpart, hname, if_true] at hlast
        obtain ⟨u, hcheck, hplace⟩ := exists_of_bind_eq_ok hlast
        cases hplace
        exact ⟨base, part, hwalk, rfl, hname, hcheck, rfl⟩
  · rintro ⟨base, part, hwalk, hpart, hname, hcheck, rfl⟩
    simp [locate, hwalk, hpart, hname, hcheck, bind, Except.bind, pure, Except.pure]

/-- Whether the directories and links of a tree are those of another one. -/
structure WaysIn (tree next : FileTree) : Prop where
  working : next.working = tree.working
  directory : ∀ location, tree.get? location = some .directory →
    next.get? location = some .directory
  link : ∀ location target, tree.get? location = some (.link target) →
    next.get? location = some (.link target)

namespace WaysIn

theorem refl (tree : FileTree) : WaysIn tree tree := ⟨rfl, fun _ h => h, fun _ _ h => h⟩

theorem trans {last : FileTree} (h : WaysIn tree next) (h' : WaysIn next last) :
    WaysIn tree last :=
  ⟨h'.working.trans h.working, fun _ hentry => h'.directory _ (h.directory _ hentry),
    fun _ _ hentry => h'.link _ _ (h.link _ _ hentry)⟩

theorem start_eq (h : WaysIn tree next) (path : Text) : next.start path = tree.start path := by
  rw [start, start, h.working]

theorem parts_eq (h : WaysIn tree next) (path : Text) : next.parts path = tree.parts path := by
  rw [parts, parts, h.start_eq]

theorem leads (h : WaysIn tree next) (hleads : Leads tree n location parts place)
    (hend : ∀ target, next.get? place ≠ some (.link target)) :
    Leads next n location parts place :=
  hleads.mono h.directory (fun _ _ target _ _ hentry _ => h.link _ target hentry) hend

theorem walk (h : WaysIn tree next) (hwalk : tree.walk parts = .ok base) :
    next.walk parts = .ok base := by
  rw [walk_eq_ok] at hwalk ⊢
  refine h.leads hwalk ?_
  simp [h.directory base (isRooted_of_walk (walk_eq_ok.mpr hwalk)).get?]

theorem locate (h : WaysIn tree next) (hlocate : tree.locate parts = .ok (some location)) :
    next.locate parts = .ok (some location) := by
  rw [locate_eq_some] at hlocate ⊢
  obtain ⟨base, part, hwalk, hlast⟩ := hlocate
  exact ⟨base, part, h.walk hwalk, hlast⟩

end WaysIn

section Paths

variable {path : Text}

/-- Where a file stands or would stand that is put at a path: the last part of the path is a name in
a directory. -/
def place? (tree : FileTree) (path : Text) : Option Location :=
  match Path.check path, tree.locate (tree.parts path) with
  | .ok (), .ok (some location) => if Path.endsInSlash path then none else some location
  | _, _ => none

theorem place?_eq_some :
    tree.place? path = some location ↔
      Path.check path = .ok () ∧ tree.locate (tree.parts path) = .ok (some location) ∧
        Path.endsInSlash path = false := by
  unfold place?
  split
  · next hcheck hlocate => simp [hcheck, hlocate, and_comm]
  · next hnot =>
    simp only [reduceCtorEq, false_iff]
    rintro ⟨hcheck, hlocate, -⟩
    exact hnot _ hcheck hlocate

theorem place?_ne_nil (h : tree.place? path = some location) : location ≠ [] := by
  obtain ⟨base, part, -, -, -, -, rfl⟩ := locate_eq_some.mp (place?_eq_some.mp h).2.1
  simp

/-- Where a path leads, be there a file or not. -/
def source? (tree : FileTree) (path : Text) : Option Location := (tree.locationAt path).toOption

theorem source?_eq_some :
    tree.source? path = some location ↔
      Path.check path = .ok () ∧
        Leads tree linkLimit [] (tree.start path ++ Path.route path) location := by
  rw [source?, ← resolve_eq_ok_iff]
  constructor
  · intro h
    obtain ⟨u, hcheck, hresolve⟩ := exists_of_bind_eq_ok (eq_ok_of_toOption_eq_some h)
    exact ⟨hcheck, hresolve⟩
  · rintro ⟨hcheck, hresolve⟩
    rw [locationAt, hcheck]
    exact congrArg Except.toOption hresolve

theorem get?_ne_link_of_source? (h : tree.source? path = some location) (target : Text) :
    tree.get? location ≠ some (.link target) :=
  (source?_eq_some.mp h).2.get?_ne_link (.root tree) target

theorem WaysIn.place? (h : WaysIn tree next) (hplace : tree.place? path = some location) :
    next.place? path = some location := by
  rw [place?_eq_some] at hplace ⊢
  rw [h.parts_eq]
  exact ⟨hplace.1, h.locate hplace.2.1, hplace.2.2⟩

theorem WaysIn.source? (h : WaysIn tree next) (hsource : tree.source? path = some location)
    (hend : ∀ target, next.get? location ≠ some (.link target)) :
    next.source? path = some location := by
  rw [source?_eq_some] at hsource ⊢
  rw [h.start_eq]
  exact ⟨hsource.1, h.leads hsource.2 hend⟩

theorem exists_of_place? (h : tree.place? path = some location) :
    ∃ front base part, tree.start path ++ Path.route path = front ++ [part] ∧
      tree.walk front = .ok base ∧ Path.isName part = true ∧ Path.checkName part = .ok () ∧
      location = base ++ [part] := by
  obtain ⟨-, hlocate, hslash⟩ := place?_eq_some.mp h
  obtain ⟨base, part, hwalk, hlast, hname, hcheck, hlocation⟩ := locate_eq_some.mp hlocate
  refine ⟨(tree.parts path).dropLast, base, part, ?_, hwalk, hname, hcheck, hlocation⟩
  rw [List.dropLast_append_getLast? part hlast, Path.route, hslash]
  exact congrArg _ (List.append_nil _)

/-- A path whose last name is not that of a link leads to the place of that name. -/
theorem source?_of_place? (hplace : tree.place? path = some location)
    (hlink : ∀ target, tree.get? location ≠ some (.link target)) :
    tree.source? path = some location := by
  obtain ⟨front, base, part, hparts, hwalk, hname, hcheck, rfl⟩ := exists_of_place? hplace
  refine source?_eq_some.mpr ⟨(place?_eq_some.mp hplace).1, ?_⟩
  rw [hparts]
  exact leads_append_of_walk hwalk (.last hname hcheck hlink)

/-- A path whose last name is that of a link leads where the link leads. -/
theorem leads_of_link (hplace : tree.place? path = some location)
    (hsource : tree.source? path = some place) {target : Text}
    (hlink : tree.get? location = some (.link target)) :
    ∃ base part n, location = base ++ [part] ∧ tree.IsRooted base ∧
      Leads tree n (linkStart base target) (Path.route target) place := by
  obtain ⟨front, base, part, hparts, hwalk, hname, -, rfl⟩ := exists_of_place? hplace
  have hleads := (source?_eq_some.mp hsource).2
  rw [hparts] at hleads
  obtain ⟨base', hwalk', hmore⟩ := exists_walk_of_leads hleads
  cases hwalk.symm.trans hwalk'
  cases hmore with
  | here => cases hname
  | above => cases hname
  | into _ _ hentry => cases hlink.symm.trans hentry
  | link _ _ hentry h =>
    cases hlink.symm.trans hentry
    rw [List.append_nil] at h
    exact ⟨base, part, _, rfl, isRooted_of_walk hwalk, h⟩
  | last _ _ hentry => exact absurd hlink (hentry target)

end Paths

/-- The content of the file at a location. -/
def content? (tree : FileTree) (location : Location) : Option Bytes :=
  match tree.get? location with
  | some (.file content) => some content
  | _ => none

theorem content?_eq_some {content : Bytes} :
    tree.content? location = some content ↔ tree.get? location = some (.file content) := by
  unfold content?
  split
  · next h => simp [h]
  · next hnot => simpa using fun h => hnot _ h

/-- What is read at a path is the content of the file to which it leads. -/
theorem toOption_read {path : Text} :
    (tree.read path).toOption = (tree.source? path).bind tree.content? := by
  cases hlocation : tree.locationAt path with
  | error fault => simp [read, source?, hlocation, bind, Except.bind, Except.toOption]
  | ok location =>
    cases hentry : tree.get? location with
    | none => simp [read, source?, content?, hlocation, hentry, bind, Except.bind, Except.toOption]
    | some entry =>
      cases entry <;> simp [read, source?, content?, hlocation, hentry, bind, Except.bind, pure,
        Except.pure, Except.toOption]

theorem isFile_eq_isSome_read {path : Text} :
    tree.isFile path = (tree.read path).toOption.isSome := by
  rw [toOption_read, isFile, source?]
  cases (tree.locationAt path).toOption with
  | none => rfl
  | some location =>
    simp only [Option.bind_some, content?]
    cases tree.get? location with
    | none => rfl
    | some entry => cases entry <;> rfl

end BooleanSearch.FileTree
