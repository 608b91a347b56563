import BooleanSearch.Config.Load
import Mathlib.Tactic.SplitIfs

/-!
# Settings of a file

A setting that a file names has the value that the file gives it, and every other one has its
default.
-/

namespace BooleanSearch.Config

variable {α : Type} {root key node : Yaml.Node} {given next : Given}
  {entries : List (Yaml.Node × Yaml.Node)}

/-- All that a further entry can do: it gives one setting its value, or it has another name. -/
theorem add?_cases (h : given.add? root key node = some next) :
    (root.text? key = some fieldKey ∧ given.field = none ∧
      ∃ text, root.text? node = some text ∧ next = { given with field := some text }) ∨
    (root.text? key = some addressKey ∧ given.address = none ∧
      ∃ text, root.text? node = some text ∧ next = { given with address := some text }) ∨
    (root.text? key = some strictKey ∧ given.strict = none ∧
      ∃ truth, root.truth? node = some truth ∧ next = { given with strict := some truth }) ∨
    (∃ name, root.text? key = some name ∧ name ≠ fieldKey ∧ name ≠ addressKey ∧ name ≠ strictKey ∧
      next = given) := by
  obtain ⟨name, hname, h⟩ := Option.bind_eq_some_iff.mp h
  split_ifs at h with hfield hgiven haddress hgiven hstrict hgiven
  · obtain ⟨text, htext, hnext⟩ := Option.bind_eq_some_iff.mp h
    cases hnext
    exact .inl ⟨hfield ▸ hname, by simpa using hgiven, text, htext, rfl⟩
  · obtain ⟨text, htext, hnext⟩ := Option.bind_eq_some_iff.mp h
    cases hnext
    exact .inr (.inl ⟨haddress ▸ hname, by simpa using hgiven, text, htext, rfl⟩)
  · obtain ⟨truth, htruth, hnext⟩ := Option.bind_eq_some_iff.mp h
    cases hnext
    exact .inr (.inr (.inl ⟨hstrict ▸ hname, by simpa using hgiven, truth, htruth, rfl⟩))
  · cases h
    exact .inr (.inr (.inr ⟨name, hname, hfield, haddress, hstrict, rfl⟩))

/-- A setting: its name in a file, how its value is read there, and where it stands. A file gives a
setting its value once at most. -/
structure Setting (α : Type) where
  name : Text
  read? : Yaml.Node → Yaml.Node → Option α
  given? : Given → Option α
  value : Config → α
  value_ofGiven : ∀ given, value (ofGiven given) = (given? given).getD (value {})
  given?_default : given? {} = none
  of_add? : ∀ {root key node given next}, Given.add? root given key node = some next →
    if root.text? key = some name then
      given? given = none ∧ ∃ a, read? root node = some a ∧ given? next = some a
    else given? next = given? given

namespace Setting

def field : Setting Text where
  name := fieldKey
  read? := Yaml.Node.text?
  given? := Given.field
  value := Config.field
  value_ofGiven _ := rfl
  given?_default := rfl
  of_add? h := by
    have hkeys : addressKey ≠ fieldKey ∧ strictKey ≠ fieldKey := by decide
    rcases add?_cases h with ⟨hkey, hnone, text, htext, rfl⟩ | ⟨hkey, hnone, text, htext, rfl⟩ |
      ⟨hkey, hnone, truth, htruth, rfl⟩ | ⟨name, hkey, hfield, haddress, hstrict, rfl⟩
    all_goals simp_all

def address : Setting Text where
  name := addressKey
  read? := Yaml.Node.text?
  given? := Given.address
  value := Config.address
  value_ofGiven _ := rfl
  given?_default := rfl
  of_add? h := by
    have hkeys : fieldKey ≠ addressKey ∧ strictKey ≠ addressKey := by decide
    rcases add?_cases h with ⟨hkey, hnone, text, htext, rfl⟩ | ⟨hkey, hnone, text, htext, rfl⟩ |
      ⟨hkey, hnone, truth, htruth, rfl⟩ | ⟨name, hkey, hfield, haddress, hstrict, rfl⟩
    all_goals simp_all

def strict : Setting Bool where
  name := strictKey
  read? := Yaml.Node.truth?
  given? := Given.strict
  value := Config.strict
  value_ofGiven _ := rfl
  given?_default := rfl
  of_add? h := by
    have hkeys : fieldKey ≠ strictKey ∧ addressKey ≠ strictKey := by decide
    rcases add?_cases h with ⟨hkey, hnone, text, htext, rfl⟩ | ⟨hkey, hnone, text, htext, rfl⟩ |
      ⟨hkey, hnone, truth, htruth, rfl⟩ | ⟨name, hkey, hfield, haddress, hstrict, rfl⟩
    all_goals simp_all

/-- The values that entries give a setting. -/
def foundIn (setting : Setting α) (root : Yaml.Node) (entries : List (Yaml.Node × Yaml.Node)) :
    List (Option α) :=
  (entries.filter fun entry => root.text? entry.1 = some setting.name).map
    fun entry => setting.read? root entry.2

/-- The values that a document gives a setting. -/
def found (setting : Setting α) : Option Yaml.Node → List (Option α)
  | none => []
  | some root =>
    match root.resolve? root with
    | some (.mapping entries) => setting.foundIn root entries
    | _ => []

/-- Whether a setting has the one value that a document gives it, or its default if it gives
none. -/
def IsKept (setting : Setting α) (document : Option Yaml.Node) (config : Config) : Prop :=
  setting.found document = [some (setting.value config)] ∨
    (setting.found document = [] ∧ setting.value config = setting.value {})

/-- The values of a setting are those that were given before and those of the entries. -/
theorem of_addAll? (setting : Setting α) (h : Given.addAll? root given entries = some next) :
    (setting.given? given).toList.map some ++ setting.foundIn root entries =
      (setting.given? next).toList.map some := by
  induction entries generalizing given with
  | nil =>
    cases h
    simp [foundIn]
  | cons entry entries ih =>
    obtain ⟨key, node⟩ := entry
    obtain ⟨between, hadd, hrest⟩ := Option.bind_eq_some_iff.mp h
    have hstep := setting.of_add? hadd
    rw [← ih hrest]
    by_cases hkey : root.text? key = some setting.name
    · rw [if_pos hkey] at hstep
      obtain ⟨hnone, a, hread, hgiven⟩ := hstep
      simp [foundIn, hkey, hnone, hread, hgiven]
    · rw [if_neg hkey] at hstep
      simp [foundIn, hkey, hstep]

theorem found_eq (setting : Setting α) {document : Option Yaml.Node}
    (h : Given.ofDocument? document = some given) :
    setting.found document = (setting.given? given).toList.map some := by
  cases document with
  | none =>
    cases h
    simp [found, setting.given?_default]
  | some root =>
    simp only [Given.ofDocument?] at h
    split at h
    · next entries hentries =>
      simpa [found, hentries, setting.given?_default] using setting.of_addAll? h
    · next hempty =>
      cases h
      simp [found, hempty, setting.given?_default]
    · cases h

theorem isKept (setting : Setting α) {document : Option Yaml.Node}
    (h : Given.ofDocument? document = some given) : setting.IsKept document (ofGiven given) := by
  rw [IsKept, setting.found_eq h, setting.value_ofGiven]
  cases setting.given? given with
  | none => exact .inr ⟨rfl, rfl⟩
  | some a => exact .inl rfl

end Setting

/-- Whether a configuration has all settings that a document gives, and otherwise the defaults. -/
structure Follows (config : Config) (document : Option Yaml.Node) : Prop where
  field : Setting.field.IsKept document config
  address : Setting.address.IsKept document config
  strict : Setting.strict.IsKept document config

theorem follows_of_ofYaml? {t : Text} {config : Config} (h : ofYaml? t = some config) :
    ∃ document, Yaml.document? t = some document ∧ config.Follows document := by
  obtain ⟨given, hgiven, rfl⟩ := Option.map_eq_some_iff.mp h
  obtain ⟨document, hdocument, hgiven⟩ := Option.bind_eq_some_iff.mp hgiven
  exact ⟨document, hdocument, Setting.field.isKept hgiven, Setting.address.isKept hgiven,
    Setting.strict.isKept hgiven⟩

end BooleanSearch.Config
