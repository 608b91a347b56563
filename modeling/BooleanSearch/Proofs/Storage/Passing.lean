import BooleanSearch.Proofs.Storage.Walks
import Mathlib.Data.List.GetD
import Mathlib.Data.List.Nodup
import Mathlib.Data.List.Perm.Subperm

/-!
# Passing files

A new file gets a passing name that is free in its directory. Until it is moved it stands beside all
other files: nothing is changed by it but the one entry, and no path leads elsewhere.
-/

namespace BooleanSearch.FileTree

variable {tree fresh : FileTree} {base location : Location} {directory name : Text}
  {names : List Text} {content : Bytes} {target : Text} {k m n : Nat}

section Names

theorem getD_passingLetters_mem (h : n < 62) : passingLetters.getD n '0' ∈ passingLetters := by
  have hlength : passingLetters.length = 62 := by decide
  rw [List.getD_eq_getElem _ _ (hlength ▸ h)]
  exact List.getElem_mem _

theorem getD_passingLetters_injective (hm : m < 62) (hn : n < 62)
    (h : passingLetters.getD m '0' = passingLetters.getD n '0') : m = n := by
  have hlength : passingLetters.length = 62 := by decide
  have hnodup : passingLetters.Nodup := by decide
  rw [List.getD_eq_getElem _ _ (hlength ▸ hm), List.getD_eq_getElem _ _ (hlength ▸ hn)] at h
  exact (hnodup.getElem_inj_iff).mp h

theorem mem_passingLetters_of_mem_spelled {c : Char} (h : c ∈ spelled k n) :
    c ∈ passingLetters := by
  induction k generalizing n with
  | zero => cases h
  | succ k ih =>
    rcases List.mem_cons.mp h with rfl | h
    · exact getD_passingLetters_mem (Nat.mod_lt n (by decide))
    · exact ih h

/-- So many letters and digits tell all numbers apart that they can stand for. -/
theorem spelled_injective (hm : m < Nat.pow 62 k) (hn : n < Nat.pow 62 k)
    (h : spelled k m = spelled k n) : m = n := by
  induction k generalizing m n with
  | zero =>
    have hpow : Nat.pow 62 0 = 1 := rfl
    omega
  | succ k ih =>
    obtain ⟨hhead, htail⟩ := List.cons.inj h
    have hlow : m % 62 = n % 62 :=
      getD_passingLetters_injective (Nat.mod_lt m (by decide)) (Nat.mod_lt n (by decide)) hhead
    have hpow : Nat.pow 62 (k + 1) = Nat.pow 62 k * 62 := rfl
    have hhigh : m / 62 = n / 62 := ih (Nat.div_lt_of_lt_mul (by omega))
      (Nat.div_lt_of_lt_mul (by omega)) htail
    omega

theorem passingName_injective (hm : m < passingNames) (hn : n < passingNames)
    (h : passingName m = passingName n) : m = n :=
  spelled_injective hm hn (List.append_cancel_left h)

theorem length_encode_spelled (k n : Nat) : (Utf8.encode (spelled k n)).length = k := by
  have hall : passingLetters.all (fun c => (String.utf8EncodeChar c).length = 1) = true := by
    decide
  have hsingle : ∀ c ∈ passingLetters, (String.utf8EncodeChar c).length = 1 := by
    simpa using hall
  induction k generalizing n with
  | zero => rfl
  | succ k ih =>
    have hhead := hsingle _ (getD_passingLetters_mem (Nat.mod_lt n (by decide)))
    have htail : (List.flatMap String.utf8EncodeChar (spelled k (n / 62))).length = k := ih _
    rw [spelled, Utf8.encode, List.flatMap_cons, List.length_append, hhead, htail, Nat.add_comm]

/-- All passing names can be put into the path of a file, or none. -/
theorem check_pathIn_congr (tree : FileTree) (directory : Text) (m n : Nat) :
    Path.check (tree.pathIn directory (passingName m)) = .ok () ↔
      Path.check (tree.pathIn directory (passingName n)) = .ok () := by
  have hname : ∀ n, Path.isAbsolute (passingName n) = false ∧ '\x00' ∉ passingName n ∧
      passingName n ≠ [] := by
    intro n
    refine ⟨rfl, fun hmem => ?_, by simp [passingName]⟩
    rcases List.mem_append.mp hmem with hfront | hspelled
    · exact absurd hfront (by decide)
    · exact absurd (mem_passingLetters_of_mem_spelled hspelled) (by decide)
  refine Path.check_join_congr (hname m) (hname n) ?_
  simp only [passingName, Path.length_encode_append, length_encode_spelled]

end Names

/-- An entry that is found is one of the list. -/
theorem mem_of_get? (hroot : location ≠ []) (h : tree.get? location ≠ none) :
    location ∈ tree.entries.map Prod.fst := by
  cases location with
  | nil => exact absurd rfl hroot
  | cons head rest =>
    by_contra hmem
    refine h (List.lookup_eq_none_iff.mpr fun entry hentry => ?_)
    by_contra heq
    have heq : head :: rest = entry.1 := by simpa using heq
    exact hmem (heq ▸ List.mem_map_of_mem hentry)

/-- If there are more passing names than entries, one of those that are tried is free in any
directory. -/
theorem exists_free_of_lt (base : Location) (h : tree.entries.length < passingNames) :
    ∃ n < tree.entries.length + 1, tree.get? (base ++ [passingName n]) = none := by
  by_contra hnone
  have htaken : ∀ n < tree.entries.length + 1, tree.get? (base ++ [passingName n]) ≠ none :=
    fun n hn hfree => hnone ⟨n, hn, hfree⟩
  have hnodup : ((List.range (tree.entries.length + 1)).map
      fun n => base ++ [passingName n]).Nodup := by
    refine List.Nodup.map_on (fun m hm n hn heq => ?_) List.nodup_range
    rw [List.mem_range] at hm hn
    exact passingName_injective (by omega) (by omega)
      (List.singleton_inj.mp (List.append_cancel_left heq))
  have hsubset : ((List.range (tree.entries.length + 1)).map
      fun n => base ++ [passingName n]) ⊆ tree.entries.map Prod.fst := by
    intro place hplace
    obtain ⟨n, hn, rfl⟩ := List.mem_map.mp hplace
    exact mem_of_get? (by simp) (htaken n (List.mem_range.mp hn))
  have hlength := (hnodup.subperm hsubset).length_le
  simp only [List.length_map, List.length_range] at hlength
  omega

/-- Whether a new file can be made in the directory at a path: its path can be followed, and a
passing name is free. -/
def HasRoom (tree : FileTree) (directory : Text) : Prop :=
  ∃ base, tree.walk (tree.parts directory) = .ok base ∧ ∃ n < passingNames,
    Path.check (tree.pathIn directory (passingName n)) = .ok () ∧
      tree.get? (base ++ [passingName n]) = none

theorem createNew_eq_ok : tree.createNew directory name = .ok fresh ↔
    ∃ base, tree.walk (tree.parts directory) = .ok base ∧
      Path.check (tree.pathIn directory name) = .ok () ∧ tree.get? (base ++ [name]) = none ∧
      fresh = tree.insert (base ++ [name]) (.file []) := by
  constructor
  · intro h
    obtain ⟨u, hcheck, h⟩ := exists_of_bind_eq_ok h
    obtain ⟨base, hwalk, h⟩ := exists_of_bind_eq_ok h
    dsimp only at h
    split at h
    · cases h
    · next hfree =>
      cases h
      exact ⟨base, hwalk, hcheck, by simpa using hfree, rfl⟩
  · rintro ⟨base, hwalk, hcheck, hfree, rfl⟩
    simp [createNew, hcheck, hwalk, hfree, bind, Except.bind, pure, Except.pure]

theorem of_createFirst (h : tree.createFirst directory names = .ok (name, fresh)) :
    name ∈ names ∧ tree.createNew directory name = .ok fresh := by
  induction names with
  | nil => cases h
  | cons first names ih =>
    rw [createFirst] at h
    split at h
    · next made hmade =>
      cases h
      exact ⟨List.mem_cons_self, hmade⟩
    · obtain ⟨hmem, hmade⟩ := ih h
      exact ⟨List.mem_cons_of_mem first hmem, hmade⟩
    · cases h

/-- One of some names is free, if the path of each of them can be followed. -/
theorem exists_createFirst (hwalk : tree.walk (tree.parts directory) = .ok base)
    (hcheck : ∀ name ∈ names, Path.check (tree.pathIn directory name) = .ok ())
    (hfree : ∃ name ∈ names, tree.get? (base ++ [name]) = none) :
    ∃ made, tree.createFirst directory names = .ok made := by
  induction names with
  | nil =>
    obtain ⟨name, hname, -⟩ := hfree
    cases hname
  | cons first names ih =>
    have hfirst := hcheck first List.mem_cons_self
    rw [createFirst]
    cases hentry : tree.get? (base ++ [first]) with
    | none =>
      rw [createNew_eq_ok.mpr ⟨base, hwalk, hfirst, hentry, rfl⟩]
      exact ⟨_, rfl⟩
    | some entry =>
      have htaken : tree.createNew directory first = .error .alreadyExists := by
        simp [createNew, hfirst, hwalk, hentry, bind, Except.bind]
      rw [htaken]
      refine ih (fun name hname => hcheck name (List.mem_cons_of_mem first hname)) ?_
      obtain ⟨name, hname, hnone⟩ := hfree
      rcases List.mem_cons.mp hname with rfl | hname
      · rw [hentry] at hnone
        cases hnone
      · exact ⟨name, hname, hnone⟩

/-- Whether a tree is another one with a file of this name more in the directory at a path. -/
def Beside (tree : FileTree) (directory name : Text) (content : Bytes) (fresh : FileTree) : Prop :=
  ∃ base, tree.walk (tree.parts directory) = .ok base ∧ tree.get? (base ++ [name]) = none ∧
    fresh = tree.insert (base ++ [name]) (.file content)

/-- A new file stands where nothing stood. -/
theorem of_createFresh (h : tree.createFresh directory = .ok (name, fresh)) :
    tree.HasRoom directory ∧ tree.Beside directory name [] fresh := by
  obtain ⟨hmem, hmade⟩ := of_createFirst h
  obtain ⟨n, hn, rfl⟩ := List.mem_map.mp hmem
  obtain ⟨base, hwalk, hcheck, hfree, rfl⟩ := createNew_eq_ok.mp hmade
  have hn : n < passingNames :=
    Nat.lt_of_lt_of_le (List.mem_range.mp hn) (Nat.min_le_right _ _)
  exact ⟨⟨base, hwalk, n, hn, hcheck, hfree⟩, base, hwalk, hfree, rfl⟩

theorem HasRoom.exists_createFresh (h : tree.HasRoom directory) :
    ∃ made, tree.createFresh directory = .ok made := by
  obtain ⟨base, hwalk, n, hn, hcheck, hfree⟩ := h
  refine exists_createFirst hwalk (fun name hname => ?_) ?_
  · obtain ⟨m, -, rfl⟩ := List.mem_map.mp hname
    exact (tree.check_pathIn_congr directory m n).mpr hcheck
  · -- One of the names that are tried is free, be it for lack of entries or as one of all names.
    obtain ⟨m, hm, hfree⟩ : ∃ m < min (tree.entries.length + 1) passingNames,
        tree.get? (base ++ [passingName m]) = none := by
      by_cases hmany : tree.entries.length < passingNames
      · obtain ⟨m, hm, hfree⟩ := exists_free_of_lt base hmany
        exact ⟨m, Nat.lt_min.mpr ⟨hm, by omega⟩, hfree⟩
      · exact ⟨n, Nat.lt_min.mpr ⟨by omega, hn⟩, hfree⟩
    exact ⟨_, List.mem_map_of_mem (List.mem_range.mpr hm), hfree⟩

theorem erase_insert {entry : Entry} (h : tree.get? location = none) :
    (tree.insert location entry).erase location = tree := by
  have hne : ∀ entry ∈ tree.entries, entry.1 ≠ location := by
    intro entry hentry heq
    cases location with
    | nil => cases h
    | cons head rest =>
      have hnot := List.lookup_eq_none_iff.mp h entry hentry
      simp [heq] at hnot
  have hfilter : tree.entries.filter (fun entry => entry.1 ≠ location) = tree.entries :=
    List.filter_eq_self.mpr fun entry hentry => by simpa using hne entry hentry
  have hself : (tree.erase location).entries = tree.entries := hfilter
  rw [insert, erase, List.filter_cons_of_neg (by simp), hself, hfilter]

theorem insert_insert {entry other : Entry} :
    (tree.insert location entry).insert location other = tree.insert location other := by
  simp [insert, erase, List.filter_filter]

/-- The ways of a tree are not cut off by a file that is put where no directory and no link
stands. -/
theorem waysIn_insert_file (hdirectory : tree.get? location ≠ some .directory)
    (hlink : ∀ target, tree.get? location ≠ some (.link target)) :
    WaysIn tree (tree.insert location (.file content)) := by
  refine ⟨rfl, fun place hplace => ?_, fun place target hplace => ?_⟩
  · have hne : place ≠ location := fun heq => hdirectory (heq ▸ hplace)
    rw [get?_insert_of_ne hne, hplace]
  · have hne : place ≠ location := fun heq => hlink target (heq ▸ hplace)
    rw [get?_insert_of_ne hne, hplace]

theorem waysIn_of_insert_file (hroot : location ≠ []) :
    WaysIn (tree.insert location (.file content)) tree := by
  refine ⟨rfl, fun place hplace => ?_, fun place target hplace => ?_⟩
  all_goals
    by_cases heq : place = location
    · rw [heq, get?_insert_self hroot] at hplace
      cases hplace
    · rwa [get?_insert_of_ne heq] at hplace

/-- A file takes its place under another name, where no directory stands. -/
theorem of_move {moved : FileTree} (h : tree.move directory name target = .ok moved) :
    ∃ base location content, tree.walk (tree.parts directory) = .ok base ∧
      tree.place? target = some location ∧ tree.get? location ≠ some .directory ∧
      tree.get? (base ++ [name]) = some (.file content) ∧
      moved = (tree.erase (base ++ [name])).insert location (.file content) := by
  obtain ⟨base, hwalk, h⟩ := exists_of_bind_eq_ok h
  obtain ⟨u, hcheck, h⟩ := exists_of_bind_eq_ok h
  obtain ⟨place, hlocate, h⟩ := exists_of_bind_eq_ok h
  cases place with
  | none => cases h
  | some location =>
    dsimp only at h
    split at h
    · cases h
    next hslash =>
    split at h
    · cases h
    split at h
    · cases h
    · next content hsource hfree =>
      cases h
      exact ⟨base, location, content, hwalk,
        place?_eq_some.mpr ⟨hcheck, hlocate, by simpa using hslash⟩, hfree, hsource, rfl⟩
    · cases h

theorem move_eq_ok (hwalk : tree.walk (tree.parts directory) = .ok base)
    (hplace : tree.place? target = some location) (hfree : tree.get? location ≠ some .directory)
    (hsource : tree.get? (base ++ [name]) = some (.file content)) :
    tree.move directory name target =
      .ok ((tree.erase (base ++ [name])).insert location (.file content)) := by
  obtain ⟨hcheck, hlocate, hslash⟩ := place?_eq_some.mp hplace
  have hbeside : location <+: base ++ [name] → location = base ++ [name] := by
    intro hprefix
    rcases List.prefix_concat_iff.mp hprefix with heq | hprefix
    · exact heq
    · exact absurd (isRooted_of_walk hwalk location hprefix) hfree
  rw [move, hwalk]
  cases hentry : tree.get? location with
  | none =>
    simpa [hcheck, hlocate, hslash, hentry, hsource, bind, Except.bind, pure, Except.pure]
      using hbeside
  | some entry =>
    cases entry with
    | directory => exact absurd hentry hfree
    | file old =>
      simpa [hcheck, hlocate, hslash, hentry, hsource, bind, Except.bind, pure, Except.pure]
        using hbeside
    | link target =>
      simpa [hcheck, hlocate, hslash, hentry, hsource, bind, Except.bind, pure, Except.pure]
        using hbeside

namespace Beside

theorem ways (h : tree.Beside directory name content fresh) :
    WaysIn tree fresh ∧ WaysIn fresh tree := by
  obtain ⟨base, -, hnone, rfl⟩ := h
  exact ⟨waysIn_insert_file (by simp [hnone]) (by simp [hnone]), waysIn_of_insert_file (by simp)⟩

theorem append (h : tree.Beside directory name content fresh) (more : Bytes) :
    ∃ written, fresh.append directory name more = .ok written ∧
      tree.Beside directory name (content ++ more) written := by
  obtain ⟨hways, -⟩ := h.ways
  obtain ⟨base, hwalk, hnone, rfl⟩ := h
  refine ⟨_, ?_, base, hwalk, hnone, rfl⟩
  have hfound : (tree.insert (base ++ [name]) (.file content)).get? (base ++ [name]) =
      some (.file content) := get?_insert_self (by simp)
  rw [FileTree.append, hways.parts_eq, hways.walk hwalk]
  simp only [bind, Except.bind, hfound, insert_insert]
  rfl

/-- Nothing is left of a passing file that is removed. -/
theorem remove (h : tree.Beside directory name content fresh) :
    fresh.remove directory name = tree := by
  obtain ⟨hways, -⟩ := h.ways
  obtain ⟨base, hwalk, hnone, rfl⟩ := h
  rw [FileTree.remove, hways.parts_eq, hways.walk hwalk]
  exact erase_insert hnone

/-- All that can come of moving a passing file: it takes its place, or there is none for it. -/
theorem move_cases (h : tree.Beside directory name content fresh) (target : Text) :
    (∃ location, tree.place? target = some location ∧ tree.get? location ≠ some .directory ∧
      fresh.move directory name target = .ok (tree.insert location (.file content))) ∨
    ∃ fault, (∀ location, tree.place? target = some location →
        tree.get? location = some .directory) ∧
      fresh.move directory name target = .error fault := by
  obtain ⟨hforth, hback⟩ := h.ways
  obtain ⟨base, hwalk, hnone, rfl⟩ := h
  have hsource : (tree.insert (base ++ [name]) (.file content)).get? (base ++ [name]) =
      some (.file content) := get?_insert_self (by simp)
  have hwalk' : (tree.insert (base ++ [name]) (.file content)).walk (tree.parts directory) =
      .ok base := hforth.walk hwalk
  cases hmove : (tree.insert (base ++ [name]) (.file content)).move directory name target with
  | ok moved =>
    obtain ⟨start, location, found, hstart, hplace, hfree, hfound, rfl⟩ := of_move hmove
    rw [hforth.parts_eq] at hstart
    cases hwalk'.symm.trans hstart
    cases hsource.symm.trans hfound
    refine .inl ⟨location, hback.place? hplace, fun hdirectory => ?_, by rw [erase_insert hnone]⟩
    exact hfree (hforth.directory location hdirectory)
  | error fault =>
    refine .inr ⟨fault, fun location hplace => ?_, rfl⟩
    by_contra hfree
    rw [move_eq_ok (hforth.parts_eq directory ▸ hwalk') (hforth.place? hplace)
      (fun hdirectory => hfree (hback.directory location hdirectory)) hsource] at hmove
    cases hmove

end Beside

end BooleanSearch.FileTree
