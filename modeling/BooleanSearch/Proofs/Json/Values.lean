import BooleanSearch.Json.Reader
import BooleanSearch.Proofs.Json.Strings

/-!
# Values as JSON

A value that is written over several lines is read back as itself, whatever follows it. Numbers are
left out: a numeral ends where the text after it lets it end.
-/

namespace BooleanSearch.Json

mutual

/-- Whether no number stands in a value. -/
def isNumberless : Json → Bool
  | .number _ => false
  | .array items => areNumberless items
  | .object members => haveNoNumber members
  | _ => true

/-- Whether no number stands in the items of an array. -/
def areNumberless : List Json → Bool
  | [] => true
  | item :: items => item.isNumberless && areNumberless items

/-- Whether no number stands in the members of an object. -/
def haveNoNumber : List (Text × Json) → Bool
  | [] => true
  | (_, value) :: members => value.isNumberless && haveNoNumber members

end

theorem value?_newLine_append (unpaired : Unpaired) (depth level : Nat) (t : Text) :
    value? unpaired depth (newLine level ++ t) = value? unpaired depth t := by
  cases depth with
  | zero => rfl
  | succ depth => simp only [value?, skipSpace_newLine_append]

theorem value?_space (unpaired : Unpaired) (depth : Nat) (t : Text) :
    value? unpaired depth (' ' :: t) = value? unpaired depth t := by
  have hskip : skipSpace (' ' :: t) = skipSpace t := rfl
  cases depth with
  | zero => rfl
  | succ depth => simp only [value?, hskip]

/-- What a value starts with ends no array and is no white space. -/
theorem exists_prettyAt_eq_cons (level : Nat) {value : Json} (h : value.isNumberless = true) :
    ∃ c t, prettyAt level value = c :: t ∧ c ≠ ']' ∧ isSpace c = false := by
  cases value with
  | number n => cases h
  | null => exact ⟨'n', _, rfl, by decide, by decide⟩
  | boolean b =>
    cases b
    · exact ⟨'f', _, rfl, by decide, by decide⟩
    · exact ⟨'t', _, rfl, by decide, by decide⟩
  | string t => exact ⟨'"', _, rfl, by decide, by decide⟩
  | array items =>
    refine ⟨'[', ?_⟩
    cases items <;> exact ⟨_, rfl, by decide, by decide⟩
  | object members =>
    refine ⟨'\x7b', ?_⟩
    cases members <;> exact ⟨_, rfl, by decide, by decide⟩

theorem length_newLine (level : Nat) : (newLine level).length = 2 * level + 1 := by
  simp [newLine]

section Steps

variable {unpaired : Unpaired} {depth : Nat} {t t' t'' rest : Text}

theorem value?_array (h : (skipSpace t).head? ≠ some ']') :
    value? unpaired (depth + 1) ('[' :: t) =
      (items? unpaired depth t).map fun (items, rest) => (.array items, rest) := by
  have hopen : skipSpace ('[' :: t) = '[' :: t := skipSpace_cons (by decide) t
  cases hskip : skipSpace t with
  | nil => simp [value?, hopen, hskip]
  | cons c rest =>
    have hc : c ≠ ']' := by simpa [hskip] using h
    simp [value?, hopen, hskip, hc]

theorem value?_object (h : (skipSpace t).head? ≠ some '\x7d') :
    value? unpaired (depth + 1) ('\x7b' :: t) =
      (members? unpaired depth t).map fun (members, rest) => (.object members, rest) := by
  have hopen : skipSpace ('\x7b' :: t) = '\x7b' :: t := skipSpace_cons (by decide) t
  cases hskip : skipSpace t with
  | nil => simp [value?, hopen, hskip]
  | cons c rest =>
    have hc : c ≠ '\x7d' := by simpa [hskip] using h
    simp [value?, hopen, hskip, hc]

variable {value : Json} {key : Text}

theorem items?_last (hitem : value? unpaired depth t = some (value, t'))
    (hend : skipSpace t' = ']' :: t'') :
    items? unpaired (depth + 1) t = some ([value], t'') := by
  simp [items?, hitem, hend]

theorem items?_next (hitem : value? unpaired depth t = some (value, t'))
    (hcomma : skipSpace t' = ',' :: t'') :
    items? unpaired (depth + 1) t =
      (items? unpaired depth t'').map fun (items, rest) => (value :: items, rest) := by
  simp only [items?, hitem, hcomma, Option.bind_eq_bind, Option.bind_some]
  cases items? unpaired depth t'' <;> rfl

theorem members?_last (hkey : skipSpace t = stringText key ++ (':' :: t'))
    (hvalue : value? .refused depth t' = some (value, t''))
    (hend : skipSpace t'' = '\x7d' :: rest) :
    members? .refused (depth + 1) t = some ([(key, value)], rest) := by
  have hread := stringRest?_flatMap_escapedChar key (':' :: t')
  have hcolon : skipSpace (':' :: t') = ':' :: t' := skipSpace_cons (by decide) t'
  simp [members?, hkey, stringText, hread, hcolon, hvalue, hend]

theorem members?_next (hkey : skipSpace t = stringText key ++ (':' :: t'))
    (hvalue : value? .refused depth t' = some (value, t''))
    (hcomma : skipSpace t'' = ',' :: rest) :
    members? .refused (depth + 1) t =
      (members? .refused depth rest).map
        fun (members, rest) => ((key, value) :: members, rest) := by
  have hread := stringRest?_flatMap_escapedChar key (':' :: t')
  have hcolon : skipSpace (':' :: t') = ':' :: t' := skipSpace_cons (by decide) t'
  simp only [members?, hkey, stringText, List.cons_append, List.append_assoc, List.nil_append,
    hread, hcolon, hvalue, hcomma, Option.bind_eq_bind, Option.bind_some]
  cases members? .refused depth rest <;> rfl

end Steps

mutual

/-- Reading undoes writing, in as many steps as the value has characters and one more. -/
theorem value?_prettyAt (rest : Text) : ∀ (value : Json) (level depth : Nat),
    value.isNumberless = true → (prettyAt level value).length ≤ depth →
      value? .refused (depth + 1) (prettyAt level value ++ rest) = some (value, rest)
  | .number _, _, _, h, _ => by cases h
  | .null, _, _, _, _ => rfl
  | .boolean true, _, _, _, _ => rfl
  | .boolean false, _, _, _, _ => rfl
  | .string t, _, depth, _, _ => by
    have hread := stringRest?_flatMap_escapedChar t rest
    simp [prettyAt, stringText, value?, skipSpace_cons (c := '"') (by decide), hread]
  | .array [], _, _, _, _ => rfl
  | .array (item :: items), level, depth, h, hdepth => by
    obtain ⟨hitem, hitems⟩ : item.isNumberless = true ∧ areNumberless items = true := by
      simpa [isNumberless, areNumberless] using h
    simp only [prettyAt, List.length_cons, List.length_append, length_newLine] at hdepth
    obtain ⟨depth, rfl⟩ : ∃ d, depth = d + 1 := ⟨depth - 1, by omega⟩
    have hread := items?_prettyItems rest items item level depth hitem hitems (by omega)
    obtain ⟨c, t, hc, hbracket, hspace⟩ := exists_prettyAt_eq_cons (level + 1) hitem
    have hpretty : prettyAt level (.array (item :: items)) ++ rest = '[' :: (newLine (level + 1) ++
        (prettyAt (level + 1) item ++ (prettyItems (level + 1) items ++
          (newLine level ++ ']' :: rest)))) := by
      simp [prettyAt]
    rw [hpretty, value?_array, hread]
    · rfl
    · rw [skipSpace_newLine_append, hc, List.cons_append, skipSpace_cons hspace]
      simpa using hbracket
  | .object [], _, _, _, _ => rfl
  | .object ((key, value) :: members), level, depth, h, hdepth => by
    obtain ⟨hvalue, hmembers⟩ : value.isNumberless = true ∧ haveNoNumber members = true := by
      simpa [isNumberless, haveNoNumber] using h
    simp only [prettyAt, List.length_cons, List.length_append, length_newLine] at hdepth
    obtain ⟨depth, rfl⟩ : ∃ d, depth = d + 1 := ⟨depth - 1, by omega⟩
    have hread := members?_prettyMembers rest members key value level depth hvalue hmembers
      (by omega)
    have hpretty : prettyAt level (.object ((key, value) :: members)) ++ rest =
        '\x7b' :: (newLine (level + 1) ++ (stringText key ++ (':' :: ' ' ::
          (prettyAt (level + 1) value ++ (prettyMembers (level + 1) members ++
            (newLine level ++ '\x7d' :: rest)))))) := by
      simp [prettyAt]
    rw [hpretty, value?_object, hread]
    · rfl
    · rw [skipSpace_member]
      exact fun h => absurd (Option.some.inj h) (by decide)
termination_by value => sizeOf value

theorem items?_prettyItems (rest : Text) : ∀ (items : List Json) (item : Json) (level depth : Nat),
    item.isNumberless = true → areNumberless items = true →
      (prettyAt (level + 1) item).length + (prettyItems (level + 1) items).length < depth →
      items? .refused (depth + 1) (newLine (level + 1) ++ (prettyAt (level + 1) item ++
        (prettyItems (level + 1) items ++ (newLine level ++ ']' :: rest)))) =
          some (item :: items, rest)
  | [], item, level, depth, hitem, _, hdepth => by
    obtain ⟨depth, rfl⟩ : ∃ d, depth = d + 1 := ⟨depth - 1, by omega⟩
    have hread := value?_prettyAt (newLine level ++ ']' :: rest) item (level + 1) depth hitem
      (by omega)
    refine items?_last ((value?_newLine_append ..).trans hread) ?_
    rw [skipSpace_newLine_append, skipSpace_cons (by decide)]
  | next :: items, item, level, depth, hitem, hitems, hdepth => by
    obtain ⟨hnext, hitems⟩ : next.isNumberless = true ∧ areNumberless items = true := by
      simpa [areNumberless] using hitems
    simp only [prettyItems, List.length_cons, List.length_append, length_newLine] at hdepth
    obtain ⟨depth, rfl⟩ : ∃ d, depth = d + 1 := ⟨depth - 1, by omega⟩
    have hread := value?_prettyAt (prettyItems (level + 1) (next :: items) ++
      (newLine level ++ ']' :: rest)) item (level + 1) depth hitem (by omega)
    have hmore := items?_prettyItems rest items next level depth hnext hitems (by omega)
    have hpretty : prettyItems (level + 1) (next :: items) ++ (newLine level ++ ']' :: rest) =
        ',' :: (newLine (level + 1) ++ (prettyAt (level + 1) next ++
          (prettyItems (level + 1) items ++ (newLine level ++ ']' :: rest)))) := by
      simp [prettyItems]
    rw [hpretty] at hread ⊢
    rw [items?_next ((value?_newLine_append ..).trans hread) (skipSpace_cons (by decide) _), hmore]
    rfl
termination_by items item => sizeOf item + sizeOf items

theorem members?_prettyMembers (rest : Text) :
    ∀ (members : List (Text × Json)) (key : Text) (value : Json) (level depth : Nat),
      value.isNumberless = true → haveNoNumber members = true →
      (prettyAt (level + 1) value).length + (prettyMembers (level + 1) members).length < depth →
      members? .refused (depth + 1) (newLine (level + 1) ++ (stringText key ++ (':' :: ' ' ::
        (prettyAt (level + 1) value ++
          (prettyMembers (level + 1) members ++ (newLine level ++ '\x7d' :: rest)))))) =
          some ((key, value) :: members, rest)
  | [], key, value, level, depth, hvalue, _, hdepth => by
    obtain ⟨depth, rfl⟩ : ∃ d, depth = d + 1 := ⟨depth - 1, by omega⟩
    have hread := value?_prettyAt (newLine level ++ '\x7d' :: rest) value (level + 1) depth hvalue
      (by omega)
    refine members?_last (skipSpace_member ..) ((value?_space ..).trans hread) ?_
    rw [skipSpace_newLine_append, skipSpace_cons (by decide)]
  | (key', value') :: members, key, value, level, depth, hvalue, hmembers, hdepth => by
    obtain ⟨hvalue', hmembers⟩ : value'.isNumberless = true ∧ haveNoNumber members = true := by
      simpa [haveNoNumber] using hmembers
    simp only [prettyMembers, List.length_cons, List.length_append, length_newLine] at hdepth
    obtain ⟨depth, rfl⟩ : ∃ d, depth = d + 1 := ⟨depth - 1, by omega⟩
    have hread := value?_prettyAt (prettyMembers (level + 1) ((key', value') :: members) ++
      (newLine level ++ '\x7d' :: rest)) value (level + 1) depth hvalue (by omega)
    have hmore := members?_prettyMembers rest members key' value' level depth hvalue' hmembers
      (by omega)
    have hpretty : prettyMembers (level + 1) ((key', value') :: members) ++
        (newLine level ++ '\x7d' :: rest) =
        ',' :: (newLine (level + 1) ++ (stringText key' ++ (':' :: ' ' ::
          (prettyAt (level + 1) value' ++ (prettyMembers (level + 1) members ++
            (newLine level ++ '\x7d' :: rest)))))) := by
      simp [prettyMembers]
    rw [hpretty] at hread ⊢
    rw [members?_next (skipSpace_member ..) ((value?_space ..).trans hread)
      (skipSpace_cons (by decide) _), hmore]
    rfl
termination_by members _ value => sizeOf value + sizeOf members

end

/-- The text of a value is read as the value, with white space after it or not. -/
theorem ofText?_pretty {value : Json} (h : value.isNumberless = true) {rest : Text}
    (hrest : skipSpace rest = []) : ofText? (value.pretty ++ rest) = some value := by
  obtain ⟨depth, hdepth⟩ : ∃ d, stepBound (value.pretty ++ rest) = d + 1 := ⟨_, rfl⟩
  have hlength : value.pretty.length ≤ depth := by
    simp only [stepBound, List.length_append] at hdepth
    omega
  have hread := value?_prettyAt rest value 0 depth h hlength
  rw [ofText?, hdepth, pretty, hread]
  exact if_pos hrest

end BooleanSearch.Json
