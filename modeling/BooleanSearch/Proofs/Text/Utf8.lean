import BooleanSearch.Text.Utf8
import Mathlib.Tactic.SplitIfs

/-!
# Texts and their bytes

The bytes of a text are read as that text, and a text has no other bytes. Both come from the bytes
of one character, which `Spells` lists by the ranges that the reader allows.
-/

namespace BooleanSearch.Utf8

/-- The bytes that make up the number of a character. -/
inductive Spells (n : Nat) : Bytes → Prop
  | one {a : UInt8} (ha : a.toNat < 0x80) (hn : n = a.toNat) : Spells n [a]
  | two {a b : UInt8} (ha : 0xC2 ≤ a.toNat ∧ a.toNat ≤ 0xDF)
      (hb : 0x80 ≤ b.toNat ∧ b.toNat ≤ 0xBF)
      (hn : n = (a.toNat - 0xC0) * 0x40 + (b.toNat - 0x80)) : Spells n [a, b]
  | three {a b c : UInt8} (ha : 0xE0 ≤ a.toNat ∧ a.toNat ≤ 0xEF)
      (hb : 0x80 ≤ b.toNat ∧ b.toNat ≤ 0xBF) (hc : 0x80 ≤ c.toNat ∧ c.toNat ≤ 0xBF)
      (hlow : a.toNat = 0xE0 → 0xA0 ≤ b.toNat) (hhigh : a.toNat = 0xED → b.toNat ≤ 0x9F)
      (hn : n = ((a.toNat - 0xE0) * 0x40 + (b.toNat - 0x80)) * 0x40 + (c.toNat - 0x80)) :
      Spells n [a, b, c]
  | four {a b c d : UInt8} (ha : 0xF0 ≤ a.toNat ∧ a.toNat ≤ 0xF4)
      (hb : 0x80 ≤ b.toNat ∧ b.toNat ≤ 0xBF) (hc : 0x80 ≤ c.toNat ∧ c.toNat ≤ 0xBF)
      (hd : 0x80 ≤ d.toNat ∧ d.toNat ≤ 0xBF)
      (hlow : a.toNat = 0xF0 → 0x90 ≤ b.toNat) (hhigh : a.toNat = 0xF4 → b.toNat ≤ 0x8F)
      (hn : n = (((a.toNat - 0xF0) * 0x40 + (b.toNat - 0x80)) * 0x40 + (c.toNat - 0x80)) * 0x40 +
        (d.toNat - 0x80)) : Spells n [a, b, c, d]

variable {n : Nat} {bytes : Bytes}

theorem Spells.isValidChar (h : Spells n bytes) : n.isValidChar := by
  unfold Nat.isValidChar
  cases h <;> omega

theorem toNat_ofNat (h : n.isValidChar) : (Char.ofNat n).toNat = n := by
  rw [Char.ofNat, dif_pos h]
  rfl

theorem ofNat_eq {byte : UInt8} (h : n = byte.toNat) : UInt8.ofNat n = byte := by
  rw [h, UInt8.ofNat_toNat]

/-- Bytes that spell a number are those of its character. -/
theorem Spells.encodeChar (h : Spells n bytes) : String.utf8EncodeChar (Char.ofNat n) = bytes := by
  have hvalue : (Char.ofNat n).val.toNat = n := toNat_ofNat h.isValidChar
  unfold String.utf8EncodeChar
  simp only [hvalue]
  cases h with
  | one ha hn =>
    rw [if_pos (by omega), ofNat_eq hn]
  | two ha hb hn =>
    rw [if_neg (by omega), if_pos (by omega)]
    simp only [List.cons.injEq, and_true]
    exact ⟨ofNat_eq (by omega), ofNat_eq (by omega)⟩
  | three ha hb hc hlow hhigh hn =>
    rw [if_neg (by omega), if_neg (by omega), if_pos (by omega)]
    simp only [List.cons.injEq, and_true]
    exact ⟨ofNat_eq (by omega), ofNat_eq (by omega), ofNat_eq (by omega)⟩
  | four ha hb hc hd hlow hhigh hn =>
    rw [if_neg (by omega), if_neg (by omega), if_neg (by omega)]
    simp only [List.cons.injEq, and_true]
    exact ⟨ofNat_eq (by omega), ofNat_eq (by omega), ofNat_eq (by omega), ofNat_eq (by omega)⟩

/-- The bytes of a character spell its number. -/
theorem spells_encodeChar (c : Char) : Spells c.toNat (String.utf8EncodeChar c) := by
  have hvalid : c.toNat.isValidChar := c.valid
  have hvalue : c.val.toNat = c.toNat := rfl
  unfold Nat.isValidChar at hvalid
  unfold String.utf8EncodeChar
  simp only [hvalue]
  generalize c.toNat = n at *
  split_ifs
  · refine .one ?_ ?_ <;> simp only [UInt8.toNat_ofNat'] <;> omega
  · refine .two ?_ ?_ ?_ <;> simp only [UInt8.toNat_ofNat'] <;> omega
  · refine .three ?_ ?_ ?_ ?_ ?_ ?_ <;> simp only [UInt8.toNat_ofNat'] <;> omega
  · refine .four ?_ ?_ ?_ ?_ ?_ ?_ ?_ <;> simp only [UInt8.toNat_ofNat'] <;> omega

/-- What a first byte starts, by the number of bytes that follow the next one. -/
theorem ofFirst?_two {place b : Nat} (h : 0xC2 ≤ b ∧ b ≤ 0xDF) :
    Partial.ofFirst? place b = some ⟨place, 1, 0, b - 0xC0, 0x80, 0xBF⟩ := by
  rw [Partial.ofFirst?, if_neg (by omega), if_pos h.2]

theorem ofFirst?_three {place b : Nat} (h : 0xE0 ≤ b ∧ b ≤ 0xEF) :
    Partial.ofFirst? place b = some ⟨place, 1, 1, b - 0xE0,
      if b = 0xE0 then 0xA0 else 0x80, if b = 0xED then 0x9F else 0xBF⟩ := by
  unfold Partial.ofFirst?
  split_ifs <;> first | omega | (subst_vars; rfl)

theorem ofFirst?_four {place b : Nat} (h : 0xF0 ≤ b ∧ b ≤ 0xF4) :
    Partial.ofFirst? place b = some ⟨place, 1, 2, b - 0xF0,
      if b = 0xF0 then 0x90 else 0x80, if b = 0xF4 then 0x8F else 0xBF⟩ := by
  unfold Partial.ofFirst?
  split_ifs <;> first | omega | (subst_vars; rfl)

theorem range_of_ofFirst? {place b : Nat} {begun : Partial}
    (h : Partial.ofFirst? place b = some begun) : 0xC2 ≤ b ∧ b ≤ 0xF4 := by
  unfold Partial.ofFirst? at h
  split_ifs at h <;> omega

/-- A character is read from the bytes that spell it, whatever follows. -/
theorem Spells.decodeFrom (h : Spells n bytes) (place : Nat) (rest : Bytes) :
    decodeFrom place none (bytes ++ rest) =
      (decodeFrom (place + bytes.length) none rest).map (Char.ofNat n :: ·) := by
  cases h with
  | one ha hn =>
    simp [Utf8.decodeFrom, ha, hn]
  | @two a b ha hb hn =>
    have hfirst : ¬ a.toNat < 0x80 := by omega
    simp [Utf8.decodeFrom, hfirst, ofFirst?_two ha, hb, hn]
  | @three a b c ha hb hc hlow hhigh hn =>
    have hfirst : ¬ a.toNat < 0x80 := by omega
    have hrange : (if a.toNat = 0xE0 then 0xA0 else 0x80) ≤ b.toNat ∧
        b.toNat ≤ if a.toNat = 0xED then 0x9F else 0xBF := by
      split_ifs <;> omega
    simp [Utf8.decodeFrom, hfirst, ofFirst?_three ha, hrange, hc, hn, Nat.add_assoc]
  | @four a b c d ha hb hc hd hlow hhigh hn =>
    have hfirst : ¬ a.toNat < 0x80 := by omega
    have hrange : (if a.toNat = 0xF0 then 0x90 else 0x80) ≤ b.toNat ∧
        b.toNat ≤ if a.toNat = 0xF4 then 0x8F else 0xBF := by
      split_ifs <;> omega
    simp [Utf8.decodeFrom, hfirst, ofFirst?_four ha, hrange, hc, hd, hn, Nat.add_assoc]

/-- A character that is begun goes on with a byte in its range. -/
theorem of_decodeFrom_begun {place : Nat} {begun : Partial} {t : Text}
    (h : decodeFrom place (some begun) bytes = .ok t) :
    ∃ byte rest, bytes = byte :: rest ∧ begun.low ≤ byte.toNat ∧ byte.toNat ≤ begun.high ∧
      ∀ further, begun.further = further + 1 → decodeFrom (place + 1)
        (some ⟨begun.place, begun.count + 1, further,
          begun.value * 0x40 + (byte.toNat - 0x80), 0x80, 0xBF⟩) rest = .ok t := by
  cases bytes with
  | nil => cases h
  | cons byte rest =>
    by_cases hrange : begun.low ≤ byte.toNat ∧ byte.toNat ≤ begun.high
    · refine ⟨byte, rest, rfl, hrange.1, hrange.2, ?_⟩
      intro further hfurther
      simpa [decodeFrom, hrange, hfurther] using h
    · simp [decodeFrom, hrange] at h

/-- Bytes that are a text start with those that spell its first character. -/
theorem exists_spells_of_decodeFrom {place : Nat} {byte : UInt8} {t : Text}
    (h : decodeFrom place none (byte :: bytes) = .ok t) :
    ∃ n spelled rest, Spells n spelled ∧ byte :: bytes = spelled ++ rest := by
  by_cases hone : byte.toNat < 0x80
  · exact ⟨_, [byte], bytes, .one hone rfl, rfl⟩
  cases hfirst : Partial.ofFirst? place byte.toNat with
  | none => simp [decodeFrom, hone, hfirst] at h
  | some begun =>
    have hrange := range_of_ofFirst? hfirst
    have hnext : decodeFrom (place + 1) (some begun) bytes = .ok t := by
      simpa [decodeFrom, hone, hfirst] using h
    obtain ⟨b, rest, rfl, hlow, hhigh, hmore⟩ := of_decodeFrom_begun hnext
    by_cases htwo : byte.toNat ≤ 0xDF
    · rw [ofFirst?_two ⟨hrange.1, htwo⟩] at hfirst
      cases hfirst
      exact ⟨_, [byte, b], rest, .two ⟨hrange.1, htwo⟩ ⟨hlow, hhigh⟩ rfl, rfl⟩
    by_cases hthree : byte.toNat ≤ 0xEF
    · have ha : 0xE0 ≤ byte.toNat ∧ byte.toNat ≤ 0xEF := by omega
      rw [ofFirst?_three ha] at hfirst
      cases hfirst
      obtain ⟨c, rest, rfl, hlow', hhigh', -⟩ := of_decodeFrom_begun (hmore 0 rfl)
      dsimp only at hlow hhigh
      refine ⟨_, [byte, b, c], rest, .three ha ?_ ⟨hlow', hhigh'⟩ ?_ ?_ rfl, rfl⟩ <;>
        split_ifs at hlow hhigh <;> omega
    · have ha : 0xF0 ≤ byte.toNat ∧ byte.toNat ≤ 0xF4 := by omega
      rw [ofFirst?_four ha] at hfirst
      cases hfirst
      obtain ⟨c, rest, rfl, hlow', hhigh', hlast⟩ := of_decodeFrom_begun (hmore 1 rfl)
      obtain ⟨d, rest, rfl, hlow'', hhigh'', -⟩ := of_decodeFrom_begun (hlast 0 rfl)
      dsimp only at hlow hhigh
      refine ⟨_, [byte, b, c, d], rest,
        .four ha ?_ ⟨hlow', hhigh'⟩ ⟨hlow'', hhigh''⟩ ?_ ?_ rfl, rfl⟩ <;>
        split_ifs at hlow hhigh <;> omega

theorem decodeFrom_encode (t : Text) (place : Nat) : decodeFrom place none (encode t) = .ok t := by
  induction t generalizing place with
  | nil => rfl
  | cons c t ih =>
    have hc := (spells_encodeChar c).decodeFrom place (encode t)
    rw [ih, Char.ofNat_toNat] at hc
    exact hc

/-- Decoding undoes encoding. -/
theorem decode_encode (t : Text) : decode (encode t) = .ok t := decodeFrom_encode t 0

theorem encode_of_decodeFrom {place : Nat} {bytes : Bytes} {t : Text}
    (h : decodeFrom place none bytes = .ok t) : encode t = bytes := by
  -- on the number of bytes, of which one character takes several
  induction hlength : bytes.length using Nat.strongRecOn generalizing place bytes t with
  | ind length ih =>
    cases bytes with
    | nil => cases h; rfl
    | cons byte bytes =>
      obtain ⟨n, spelled, rest, hspells, heq⟩ := exists_spells_of_decodeFrom h
      rw [heq, hspells.decodeFrom] at h
      obtain ⟨t', hrest, rfl⟩ : ∃ t', decodeFrom (place + spelled.length) none rest = .ok t' ∧
          Char.ofNat n :: t' = t := by
        cases hrest : decodeFrom (place + spelled.length) none rest with
        | error fault => rw [hrest] at h; cases h
        | ok t' => rw [hrest] at h; cases h; exact ⟨t', rfl, rfl⟩
      have hpos : 0 < spelled.length := by cases hspells <;> exact Nat.zero_lt_succ _
      have htail := ih rest.length (by rw [← hlength, heq, List.length_append]; omega) hrest rfl
      rw [heq, ← htail, encode, List.flatMap_cons, hspells.encodeChar]
      rfl

/-- No bytes but those that encode it stand for a text. -/
theorem encode_of_decode {bytes : Bytes} {t : Text} (h : decode bytes = .ok t) :
    encode t = bytes :=
  encode_of_decodeFrom h

end BooleanSearch.Utf8
