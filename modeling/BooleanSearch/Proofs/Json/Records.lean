import BooleanSearch.Json.Record
import BooleanSearch.Proofs.Json.Strings

/-!
# Records as JSON

The reader of records takes the members of an object that is written over several lines one by one.
-/

namespace BooleanSearch.Json

/-- The text of a member is read from its writing after the colon. -/
theorem entry_stringText (slot : Slot) (place text rest : Text) :
    entry slot place (' ' :: (stringText text ++ rest)) = .ok (some text, rest) := by
  have hskip : skipSpace (' ' :: (stringText text ++ rest)) =
      '"' :: (text.flatMap escapedChar ++ '"' :: rest) := by
    simp [skipSpace, isSpace, stringText]
  have hread := stringRest?_flatMap_escapedChar text rest
  simp only [entry, hskip, hread, required]
  rfl

/-- One member of an object, written on a line of its own after a comma unless it is the first. -/
theorem readMembers_member {slots : List Slot} {slot : Slot} {found : Found} {key : Text}
    (hslot : slots.find? (fun slot => slot.key == key) = some slot)
    (hfresh : found.any (fun entry => entry.1 == key) = false) (steps : Nat) (first : Bool)
    (text rest : Text) :
    readMembers slots (steps + 1) first found
        ((if first then [] else [',']) ++ (newLine 1 ++ (stringText key ++
          (':' :: ' ' :: (stringText text ++ rest))))) =
      readMembers slots steps false ((key, some text) :: found) rest := by
  have hline : skipSpace (newLine 1 ++ (stringText key ++
      (':' :: ' ' :: (stringText text ++ rest)))) =
      '"' :: (key.flatMap escapedChar ++ '"' :: (':' :: ' ' :: (stringText text ++ rest))) := by
    rw [skipSpace_member]
    simp [stringText]
  have hkey := stringRest?_flatMap_escapedChar key (':' :: ' ' :: (stringText text ++ rest))
  have hcolon : skipSpace (':' :: ' ' :: (stringText text ++ rest)) =
      ':' :: ' ' :: (stringText text ++ rest) := skipSpace_cons (by decide) _
  have hentry := entry_stringText slot key text rest
  cases first with
  | true =>
    simp [readMembers, hline, hkey, hcolon, hentry, hslot, hfresh, required, bind, Except.bind,
      pure, Except.pure]
  | false =>
    have hcomma : skipSpace (',' :: (newLine 1 ++ (stringText key ++
        (':' :: ' ' :: (stringText text ++ rest))))) =
        ',' :: (newLine 1 ++ (stringText key ++ (':' :: ' ' :: (stringText text ++ rest)))) :=
      skipSpace_cons (by decide) _
    simp [readMembers, hcomma, hline, hkey, hcolon, hentry, hslot, hfresh, required, bind,
      Except.bind, pure, Except.pure]

theorem readMembers_end (slots : List Slot) (steps : Nat) (first : Bool) (found : Found) :
    readMembers slots (steps + 1) first found (newLine 0 ++ ['\x7d']) = .ok found := by
  have hskip : skipSpace (newLine 0 ++ ['\x7d']) = ['\x7d'] := by
    rw [skipSpace_newLine_append]
    exact skipSpace_cons (by decide) []
  simp [readMembers, hskip, pure, Except.pure]

/-- The entries of a record as they are found, the last one first. -/
def Found.ofTexts (entries : List (Text × Text)) : Found :=
  entries.reverse.map fun entry => (entry.1, some entry.2)

/-- The members of the object that is written of a record. -/
def ofTexts (entries : List (Text × Text)) : List (Text × Json) :=
  entries.map fun entry => (entry.1, .string entry.2)

theorem Found.ofTexts_cons (key text : Text) (entries : List (Text × Text)) :
    Found.ofTexts ((key, text) :: entries) = Found.ofTexts entries ++ [(key, some text)] := by
  simp [Found.ofTexts]

variable {slots : List Slot}

/-- The members after the first are read in turn, as long as no key is met twice. -/
theorem readMembers_prettyMembers {entries : List (Text × Text)} (found : Found)
    (hslots : ∀ entry ∈ entries, (slots.find? fun slot => slot.key == entry.1).isSome)
    (hkeys : (entries.map Prod.fst ++ found.map Prod.fst).Nodup) (steps : Nat) :
    readMembers slots (steps + entries.length + 1) false found
        (prettyMembers 1 (ofTexts entries) ++ (newLine 0 ++ ['\x7d'])) =
      .ok (Found.ofTexts entries ++ found) := by
  -- on the entries; a key that was found moves from those still to be read to those found
  induction entries generalizing found with
  | nil => exact readMembers_end slots steps false found
  | cons entry entries ih =>
    obtain ⟨key, text⟩ := entry
    obtain ⟨slot, hslot⟩ := Option.isSome_iff_exists.mp (hslots _ List.mem_cons_self)
    obtain ⟨hnew, -⟩ := List.nodup_cons.mp hkeys
    have hfresh : found.any (fun entry => entry.1 == key) = false := by
      rw [List.any_eq_false]
      intro entry hentry heq
      have hmem := List.mem_map_of_mem (f := Prod.fst) hentry
      rw [beq_iff_eq.mp heq] at hmem
      exact hnew (List.mem_append_right _ hmem)
    have hmember := readMembers_member hslot hfresh (steps + entries.length + 1) false text
      (prettyMembers 1 (ofTexts entries) ++ (newLine 0 ++ ['\x7d']))
    have hread := ih ((key, some text) :: found)
      (fun entry hentry => hslots entry (List.mem_cons_of_mem _ hentry))
      (List.perm_middle.nodup_iff.mpr hkeys)
    rw [Found.ofTexts_cons, List.append_assoc, List.singleton_append, ← hread, ← hmember]
    simp [ofTexts, prettyMembers, prettyAt, Nat.add_assoc]

theorem length_le_prettyMembers (level : Nat) (members : List (Text × Json)) :
    members.length ≤ (prettyMembers level members).length := by
  induction members with
  | nil => exact Nat.zero_le _
  | cons member members ih =>
    simp only [prettyMembers, List.length_append, List.length_cons]
    omega

/-- A record is read from the object that is written of its entries. -/
theorem readRecord_pretty {shape : Shape} {key text : Text} {entries : List (Text × Text)}
    (hslots : ∀ entry ∈ (key, text) :: entries,
      (shape.slots.find? fun slot => slot.key == entry.1).isSome)
    (hkeys : (((key, text) :: entries).map Prod.fst).Nodup)
    (hfull : missing? shape.slots (Found.ofTexts ((key, text) :: entries)) = none) :
    readRecord shape (object (ofTexts ((key, text) :: entries))).pretty =
      .ok (Found.ofTexts ((key, text) :: entries)) := by
  obtain ⟨slot, hslot⟩ := Option.isSome_iff_exists.mp (hslots _ List.mem_cons_self)
  have hcount := length_le_prettyMembers 1 (ofTexts entries)
  generalize hrest : newLine 1 ++ (stringText key ++ (':' :: ' ' :: (stringText text ++
    (prettyMembers 1 (ofTexts entries) ++ (newLine 0 ++ ['\x7d']))))) = rest
  have hpretty : (object (ofTexts ((key, text) :: entries))).pretty = '\x7b' :: rest := by
    rw [← hrest]
    simp [ofTexts, pretty, prettyAt]
  obtain ⟨steps, hsteps⟩ : ∃ n, rest.length = n + entries.length + 1 := by
    refine ⟨rest.length - entries.length - 1, ?_⟩
    have hmap : (ofTexts entries).length = entries.length := List.length_map _
    have hlength := congrArg List.length hrest
    simp only [newLine, List.length_append, List.length_cons] at hlength
    omega
  have hread : readMembers shape.slots (rest.length + 1) true [] rest =
      .ok (Found.ofTexts ((key, text) :: entries)) := by
    have hfresh : ([] : Found).any (fun entry => entry.1 == key) = false := rfl
    have hmember := readMembers_member hslot hfresh (steps + entries.length + 1) true text
      (prettyMembers 1 (ofTexts entries) ++ (newLine 0 ++ ['\x7d']))
    have hmembers := readMembers_prettyMembers [(key, some text)]
      (fun entry hentry => hslots entry (List.mem_cons_of_mem _ hentry))
      (List.perm_middle.nodup_iff.mpr (by simpa using hkeys)) steps
    rw [Found.ofTexts_cons, hsteps, ← hmembers, ← hmember, ← hrest]
    rfl
  have hskip : skipSpace ('\x7b' :: rest) = '\x7b' :: rest := skipSpace_cons (by decide) rest
  simp only [readRecord, hpretty, hskip, hread, bind, Except.bind, hfull]
  rfl

end BooleanSearch.Json
