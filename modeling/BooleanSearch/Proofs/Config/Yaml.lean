import BooleanSearch.Config.Load
import BooleanSearch.Proofs.Net.Addresses
import BooleanSearch.Proofs.Yaml.Mappings

/-!
# Configurations as YAML

A configuration whose settings can be used is read back as itself from the text that it is written
as.
-/

namespace BooleanSearch

/-- The characters that can be typed in ASCII. -/
def IsTyped (c : Char) : Prop := 0x20 ≤ c.toNat ∧ c.toNat ≤ 0x7E

instance : DecidablePred IsTyped := fun _ => inferInstanceAs (Decidable (_ ∧ _))

theorem isTyped_of_le {c low high : Char} (hlow : IsTyped low) (hhigh : IsTyped high)
    (h : low ≤ c ∧ c ≤ high) : IsTyped c := by
  simp only [Char.le_def, UInt32.le_iff_toNat_le] at h
  exact ⟨Nat.le_trans hlow.1 h.1, Nat.le_trans h.2 hhigh.2⟩

theorem isLine_of_isTyped {t : Text} (h : ∀ c ∈ t, IsTyped c) : Yaml.IsLine t := by
  intro c hc
  have hrange : 0x20 ≤ c.toNat ∧ c.toNat ≤ 0x7E := h c hc
  refine ⟨by simp [Yaml.isPrintable]; omega, ?_⟩
  rw [← Bool.not_eq_true]
  intro hbreak
  have hbreaks : c = '\n' ∨ c = '\u2028' ∨ c = '\u2029' := by
    simpa [Yaml.isBreak, or_assoc] using hbreak
  rcases hbreaks with rfl | rfl | rfl
  all_goals exact absurd hrange (by decide)

theorem isTyped_of_isFieldRest {c : Char} (h : isFieldRest c = true) : IsTyped c := by
  have hc : (((('A' ≤ c ∧ c ≤ 'Z') ∨ ('a' ≤ c ∧ c ≤ 'z')) ∨ ('0' ≤ c ∧ c ≤ '9')) ∨ c = '_') ∨
      c = '.' := by
    unfold isFieldRest Char.isAlphanum Char.isAlpha Char.isUpper Char.isLower Char.isDigit at h
    simpa [Char.le_def] using h
  rcases hc with (((hupper | hlower) | hdigit) | rfl) | rfl
  · exact isTyped_of_le (by decide) (by decide) hupper
  · exact isTyped_of_le (by decide) (by decide) hlower
  · exact isTyped_of_le (by decide) (by decide) hdigit
  · decide
  · decide

theorem isFieldRest_of_isField {t : Text} (h : isField t = true) {c : Char} (hc : c ∈ t) :
    isFieldRest c = true := by
  cases t with
  | nil => cases h
  | cons d t =>
    obtain ⟨hd, ht⟩ := Bool.and_eq_true_iff.mp h
    rcases List.mem_cons.mp hc with rfl | hc
    · rw [isFieldRest, Bool.or_eq_true]
      exact .inl hd
    · exact List.all_eq_true.mp ht c hc

theorem isLine_of_isField {t : Text} (h : isField t = true) : Yaml.IsLine t :=
  isLine_of_isTyped fun _ hc => isTyped_of_isFieldRest (isFieldRest_of_isField h hc)

theorem SocketAddress.isTyped_of_isAddressChar {c : Char} (h : IsAddressChar c) : IsTyped c := by
  rcases h with hhex | hsign
  · unfold Text.hexValue? at hhex
    split_ifs at hhex with hdigit hlower hupper
    · exact isTyped_of_le (by decide) (by decide) hdigit
    · exact isTyped_of_le (by decide) (by decide) hlower
    · exact isTyped_of_le (by decide) (by decide) hupper
    · cases hhex
  · have hc : c = '.' ∨ c = ':' ∨ c = '[' ∨ c = ']' ∨ c = '%' := by simpa using hsign
    rcases hc with rfl | rfl | rfl | rfl | rfl
    all_goals decide

theorem SocketAddress.isLine_of_isValid {t : Text} (h : isValid t = true) : Yaml.IsLine t :=
  isLine_of_isTyped fun c hc => isTyped_of_isAddressChar (isAddressChar_of_isValid h c hc)

namespace Yaml

theorem IsScalar.getLast? {written text : Text} {style : Style} (h : IsScalar written style text) :
    (written.getLast?.map isBreak).getD false = false := by
  cases hlast : written.getLast? with
  | none => rfl
  | some c => exact (h.isLine c (List.mem_of_getLast? hlast)).2

theorem renderEntry_eq_line (entry : ScalarEntry) :
    renderEntry entry.key entry.written = entry.line := by
  simp [renderEntry, ScalarEntry.line, entry.value.getLast?]

theorem isScalar_renderTruth (b : Bool) : IsScalar (renderTruth b) .plain (renderTruth b) := by
  cases b
  · exact .plain (by decide) (.of_fitsPlain (by decide))
  · exact .plain (by decide) (.of_fitsPlain (by decide))

theorem truthValue?_renderTruth (b : Bool) : truthValue? (renderTruth b) = some b := by
  cases b <;> rfl

end Yaml

namespace Config

open Yaml

theorem check_eq_ok {config : Config} : config.check = .ok () ↔
    isField config.field = true ∧ SocketAddress.isValid config.address = true := by
  unfold check
  split_ifs with hfield haddress <;> simp_all

/-- Texts of one line that need no escape are read back from the file of a configuration. -/
theorem ofYaml?_toYaml {config : Config} (hfield : IsLine config.field)
    (haddress : IsLine config.address) : ofYaml? config.toYaml = some config := by
  obtain ⟨fieldStyle, hfield⟩ := hfield.renderText
  obtain ⟨addressStyle, haddress⟩ := haddress.renderText
  let entries : List ScalarEntry :=
    [⟨fieldKey, _, _, _, by decide, .of_fitsPlain (by decide), by decide, hfield⟩,
      ⟨addressKey, _, _, _, by decide, .of_fitsPlain (by decide), by decide, haddress⟩,
      ⟨strictKey, _, _, _, by decide, .of_fitsPlain (by decide), by decide,
        isScalar_renderTruth config.strict⟩]
  have hlines : config.toYaml = entries.flatMap ScalarEntry.line := by
    simp [toYaml, entries, ← renderEntry_eq_line]
  have hread :
      document? config.toYaml = some (some (.mapping (entries.map ScalarEntry.nodes))) := by
    rw [hlines]
    exact document?_lines (by simp [entries])
  have hkeys : addressKey ≠ fieldKey ∧ strictKey ≠ fieldKey ∧ strictKey ≠ addressKey := by decide
  simp [ofYaml?, Given.ofYaml?, hread, Given.ofDocument?, Node.resolve?, Given.addAll?, Given.add?,
    entries, ScalarEntry.nodes, Node.text?, Node.truth?, truthValue?_renderTruth, hkeys, ofGiven]

/-- A configuration with settings that can be used is read back from its file. -/
theorem ofText_toYaml [Wording] {config : Config} (h : config.check = .ok ()) :
    ofText config.toYaml = .ok config := by
  obtain ⟨hfield, haddress⟩ := check_eq_ok.mp h
  rw [ofText, ofYaml?_toYaml (isLine_of_isField hfield) (SocketAddress.isLine_of_isValid haddress)]
  dsimp only
  rw [h]
  rfl

end Config

end BooleanSearch
