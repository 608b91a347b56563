import BooleanSearch.Storage.Path
import Mathlib.Data.List.Basic
import Mathlib.Tactic.SplitIfs

/-!
# Paths

The path of an entry of a directory has the parts of the directory and the name of the entry.
-/

namespace BooleanSearch

theorem Text.splitAt_ne_nil (separator : Char) (t : Text) : splitAt separator t ≠ [] := by
  cases t with
  | nil => exact List.cons_ne_nil _ _
  | cons c t =>
    rw [splitAt]
    split
    · exact List.cons_ne_nil _ _
    · split <;> exact List.cons_ne_nil _ _

theorem Text.splitAt_append_cons (separator : Char) (a b : Text) :
    splitAt separator (a ++ separator :: b) = splitAt separator a ++ splitAt separator b := by
  induction a with
  | nil => simp [splitAt]
  | cons c a ih =>
    rw [List.cons_append]
    by_cases hc : c = separator
    · rw [splitAt, if_pos hc, splitAt, if_pos hc, ih, List.cons_append]
    · obtain ⟨piece, pieces, ha⟩ := List.exists_cons_of_ne_nil (splitAt_ne_nil separator a)
      rw [splitAt, if_neg hc, splitAt, if_neg hc, ih, ha]
      rfl

theorem Text.splitAt_of_notMem {separator : Char} {t : Text} (h : separator ∉ t) :
    splitAt separator t = [t] := by
  induction t with
  | nil => rfl
  | cons c t ih =>
    rw [List.mem_cons, not_or] at h
    have hc : ¬ c = separator := fun heq => h.1 heq.symm
    rw [splitAt, if_neg hc, ih h.2]

namespace Path

theorem part_cases (part : Text) :
    part = here ∨ part = above ∨ isName part = true := by
  by_cases hhere : part = here
  · exact .inl hhere
  by_cases habove : part = above
  · exact .inr (.inl habove)
  · exact .inr (.inr (by simp [isName, hhere, habove]))

theorem isAbsolute_of_notMem {name : Text} (hname : '/' ∉ name) : isAbsolute name = false := by
  have hhead : name.head? ≠ some '/' := by
    intro hfirst
    exact hname (List.mem_of_mem_head? hfirst)
  simpa [isAbsolute] using hhead

theorem isAbsolute_join {directory name : Text} (hname : isAbsolute name = false) :
    isAbsolute (join directory name) = isAbsolute directory := by
  rw [join, if_neg (by simp [hname])]
  cases directory with
  | nil => exact hname
  | cons c directory => split <;> rfl

/-- The parts of the path of an entry of a directory. -/
theorem parts_join {directory name : Text} (hne : name ≠ []) (hname : '/' ∉ name) :
    parts (join directory name) = parts directory ++ [name] := by
  have hpart : parts name = [name] := by
    rw [parts, Text.splitAt_of_notMem hname, List.filter_cons_of_pos (by simpa using hne)]
    rfl
  have hbeside : ∀ directory, parts (directory ++ '/' :: name) = parts directory ++ [name] := by
    intro directory
    rw [← hpart, parts, Text.splitAt_append_cons, List.filter_append, parts, parts]
  rw [join, if_neg (by simp [isAbsolute_of_notMem hname])]
  by_cases hempty : directory = []
  · subst hempty
    exact hpart
  by_cases hslash : endsInSlash directory = true
  · have hlast : directory.getLast? = some '/' := by simpa [endsInSlash] using hslash
    obtain ⟨front, rfl⟩ := List.getLast?_eq_some_iff.mp hlast
    have hsame : parts (front ++ ['/']) = parts front := by
      rw [parts, Text.splitAt_append_cons, List.filter_append, parts]
      exact List.append_nil _
    rw [if_pos (by simp [hslash]), List.append_assoc, List.singleton_append, hbeside, hsame]
  · rw [if_neg (by simp [hempty, hslash]), hbeside]

theorem route_join {directory name : Text} (hne : name ≠ []) (hname : '/' ∉ name) :
    route (join directory name) = parts (join directory name) := by
  have hlast : (join directory name).getLast? = name.getLast? := by
    rw [join]
    split
    · rfl
    · split
      · exact List.getLast?_append_of_ne_nil directory hne
      · rw [List.getLast?_append_of_ne_nil directory (List.cons_ne_nil _ _),
          List.getLast?_cons_of_ne_nil hne]
  have hslash : name.getLast? ≠ some '/' := fun h => hname (List.mem_of_getLast? h)
  rw [route, endsInSlash, hlast, if_neg (by simpa using hslash)]
  exact List.append_nil _

/-- What stands before a name in the path of an entry of a directory. -/
theorem exists_join_eq (directory : Text) : ∃ front, (directory ≠ [] → directory <+: front) ∧
    ∀ name, isAbsolute name = false → join directory name = front ++ name := by
  by_cases hslash : (directory.isEmpty || endsInSlash directory) = true
  · refine ⟨directory, fun _ => List.prefix_rfl, fun name hname => ?_⟩
    rw [join, if_neg (by simp [hname]), if_pos hslash]
  · refine ⟨directory ++ ['/'], fun _ => List.prefix_append _ _, fun name hname => ?_⟩
    rw [join, if_neg (by simp [hname]), if_neg hslash, List.append_assoc]
    rfl

theorem check_eq_ok {path : Text} :
    check path = .ok () ↔ '\x00' ∉ path ∧ path ≠ [] ∧ (Utf8.encode path).length ≤ 4095 := by
  rw [check]
  split_ifs with hnull hempty hlong
  · simpa using fun hnot => absurd hnull (by simpa using hnot)
  · simpa using fun _ hnot => absurd hempty (by simpa using hnot)
  · simpa using fun _ _ => hlong
  · simp_all

theorem length_encode_append (a b : Text) :
    (Utf8.encode (a ++ b)).length = (Utf8.encode a).length + (Utf8.encode b).length := by
  rw [Utf8.encode, List.flatMap_append, List.length_append, Utf8.encode, Utf8.encode]

/-- A directory of which an entry has a path that can be followed has one itself. -/
theorem check_of_check_join {directory name : Text} (hname : isAbsolute name = false)
    (hne : directory ≠ []) (h : check (join directory name) = .ok ()) :
    check directory = .ok () := by
  obtain ⟨front, hfront, hjoin⟩ := exists_join_eq directory
  obtain ⟨rest, rfl⟩ := hfront hne
  rw [hjoin name hname, check_eq_ok, length_encode_append, length_encode_append] at h
  obtain ⟨hnull, -, hlength⟩ := h
  refine check_eq_ok.mpr ⟨fun hmem => hnull ?_, hne, by omega⟩
  simp [hmem]

/-- A path that can be followed from a directory can be followed. -/
theorem check_of_check_join_right {directory path : Text} (hne : path ≠ [])
    (h : check (join directory path) = .ok ()) : check path = .ok () := by
  obtain ⟨front, hjoin⟩ : ∃ front, join directory path = front ++ path := by
    cases hpath : isAbsolute path with
    | true => exact ⟨[], by rw [join, if_pos hpath, List.nil_append]⟩
    | false =>
      obtain ⟨front, -, hjoin⟩ := exists_join_eq directory
      exact ⟨front, hjoin path hpath⟩
  rw [hjoin, check_eq_ok, length_encode_append] at h
  obtain ⟨hnull, -, hlength⟩ := h
  refine check_eq_ok.mpr ⟨fun hmem => hnull ?_, hne, by omega⟩
  simp [hmem]

/-- Whether the path of an entry of a directory can be followed hangs on the length of its name. -/
theorem check_join_congr {directory name other : Text}
    (hname : isAbsolute name = false ∧ '\x00' ∉ name ∧ name ≠ [])
    (hother : isAbsolute other = false ∧ '\x00' ∉ other ∧ other ≠ [])
    (hlength : (Utf8.encode name).length = (Utf8.encode other).length) :
    check (join directory name) = .ok () ↔ check (join directory other) = .ok () := by
  obtain ⟨front, -, hjoin⟩ := exists_join_eq directory
  rw [hjoin name hname.1, hjoin other hother.1, check_eq_ok, check_eq_ok, length_encode_append,
    length_encode_append, hlength]
  simp [hname, hother]

end Path

end BooleanSearch
