import BooleanSearch.Net.SocketAddress

/-!
# The characters of socket addresses

A socket address consists of hexadecimal digits and a few signs. Each reader takes nothing else from
the front of a text.
-/

namespace BooleanSearch.SocketAddress

/-- The characters of socket addresses. -/
def IsAddressChar (c : Char) : Prop :=
  (Text.hexValue? c).isSome = true ∨ c ∈ ['.', ':', '[', ']', '%']

/-- Whether a rest is left of a text after characters of socket addresses. -/
def Reads (t rest : Text) : Prop := ∃ read, t = read ++ rest ∧ ∀ c ∈ read, IsAddressChar c

variable {t rest : Text}

theorem Reads.refl (t : Text) : Reads t t := ⟨[], rfl, by simp⟩

theorem Reads.trans {last : Text} (h : Reads t rest) (h' : Reads rest last) : Reads t last := by
  obtain ⟨read, rfl, hread⟩ := h
  obtain ⟨more, rfl, hmore⟩ := h'
  refine ⟨read ++ more, (List.append_assoc ..).symm, fun c hc => ?_⟩
  exact (List.mem_append.mp hc).elim (hread c) (hmore c)

theorem Reads.cons {c : Char} (hc : IsAddressChar c) (h : Reads t rest) : Reads (c :: t) rest :=
  Reads.trans ⟨[c], rfl, by simpa using hc⟩ h

theorem reads_digits {value? : Char → Option Nat}
    (hvalue : ∀ c, (value? c).isSome = true → IsAddressChar c) (base count value : Nat) (t : Text) :
    Reads t (digits base value? count value t).2.2 := by
  induction t generalizing count value with
  | nil => exact .refl []
  | cons c t ih =>
    rw [digits]
    cases hc : value? c with
    | none => exact .refl _
    | some digit => exact .cons (hvalue c (by simp [hc])) (ih _ _)

theorem isAddressChar_of_decimal {c : Char} (h : (decimalValue? c).isSome = true) :
    IsAddressChar c := by
  have hdigit : '0' ≤ c ∧ c ≤ '9' := by
    simpa [decimalValue?, Char.isDigit, Char.le_def] using h
  simp [IsAddressChar, Text.hexValue?, hdigit]

theorem reads_number? {limit n : Nat} (h : number? limit t = some (n, rest)) : Reads t rest := by
  have hread := reads_digits (fun _ => isAddressChar_of_decimal) 10 0 0 t
  simp only [number?, Option.ite_none_left_eq_some, Option.some.injEq, Prod.mk.injEq] at h
  exact h.2.2 ▸ hread

theorem reads_octet? {n : Nat} (h : octet? t = some (n, rest)) : Reads t rest := by
  have hread := reads_digits (fun _ => isAddressChar_of_decimal) 10 0 0 t
  simp only [octet?, Option.ite_none_left_eq_some, Option.some.injEq, Prod.mk.injEq] at h
  exact h.2.2 ▸ hread

theorem reads_group? {n : Nat} (h : group? t = some (n, rest)) : Reads t rest := by
  have hread := reads_digits (fun _ => Or.inl) 16 0 0 t
  simp only [group?, Option.ite_none_left_eq_some, Option.some.injEq, Prod.mk.injEq] at h
  exact h.2.2 ▸ hread

theorem reads_after? {c : Char} (hc : c ∈ ['.', ':', '[', ']', '%']) (h : after? c t = some rest) :
    Reads t rest := by
  cases t with
  | nil => cases h
  | cons d t =>
    simp only [after?, Option.ite_none_right_eq_some, Option.some.injEq] at h
    obtain ⟨rfl, rfl⟩ := h
    exact .cons (.inr hc) (.refl t)

theorem reads_afterV4? (h : afterV4? t = some rest) : Reads t rest := by
  simp only [afterV4?, bind, Option.bind_eq_some_iff, pure, Option.some.injEq] at h
  obtain ⟨⟨n₁, t₁⟩, h₁, u₁, hdot₁, ⟨n₂, t₂⟩, h₂, u₂, hdot₂, ⟨n₃, t₃⟩, h₃, u₃, hdot₃, ⟨n₄, t₄⟩, h₄,
    rfl⟩ := h
  have hdot : ∀ {t rest : Text}, after? '.' t = some rest → Reads t rest :=
    reads_after? (by simp)
  exact (reads_octet? h₁).trans <| (hdot hdot₁).trans <| (reads_octet? h₂).trans <|
    (hdot hdot₂).trans <| (reads_octet? h₃).trans <| (hdot hdot₃).trans (reads_octet? h₄)

theorem reads_groups {first : Bool} {room : Nat} : Reads t (groups first room t).2.2 := by
  induction room generalizing first t with
  | zero => exact .refl t
  | succ room ih =>
    have hnext : ∀ next, (if first then some t else after? ':' t) = some next → Reads t next := by
      intro next h
      cases first with
      | true => cases h; exact .refl t
      | false => exact reads_after? (by simp) h
    rw [groups]
    dsimp only
    split
    · next rest h =>
      rw [Option.ite_none_left_eq_some, Option.bind_eq_some_iff] at h
      obtain ⟨-, next, hcolon, hv4⟩ := h
      exact (hnext next hcolon).trans (reads_afterV4? hv4)
    · split
      · next value rest h =>
        obtain ⟨next, hcolon, hgroup⟩ := Option.bind_eq_some_iff.mp h
        exact (hnext next hcolon).trans <| (reads_group? hgroup).trans ih
      · exact .refl t

theorem reads_afterV6? (h : afterV6? t = some rest) : Reads t rest := by
  have hgroups : Reads t (groups true 8 t).2.2 := reads_groups
  rw [afterV6?] at h
  dsimp only at h
  split at h
  · cases h
    exact hgroups
  · split at h
    · cases h
    · simp only [bind, Option.bind_eq_some_iff, pure, Option.some.injEq] at h
      obtain ⟨first, hfirst, second, hsecond, rfl⟩ := h
      exact hgroups.trans <| (reads_after? (by simp) hfirst).trans <|
        (reads_after? (by simp) hsecond).trans reads_groups

theorem reads_afterScope : Reads t (afterScope t) := by
  unfold afterScope
  split
  · exact .refl t
  · next rest hpercent =>
    split
    · next n last hnumber =>
      exact (reads_after? (by simp) hpercent).trans (reads_number? hnumber)
    · exact .refl t

theorem reads_afterPort? (h : afterPort? t = some rest) : Reads t rest := by
  simp only [afterPort?, bind, Option.bind_eq_some_iff, pure, Option.some.injEq] at h
  obtain ⟨digits, hcolon, ⟨n, last⟩, hnumber, rfl⟩ := h
  exact (reads_after? (by simp) hcolon).trans (reads_number? hnumber)

theorem reads_afterAddress? (h : afterAddress? t = some rest) : Reads t rest := by
  unfold afterAddress? at h
  split at h
  · next last hv4 =>
    cases h
    obtain ⟨address, haddress, hport⟩ := Option.bind_eq_some_iff.mp hv4
    exact (reads_afterV4? haddress).trans (reads_afterPort? hport)
  · simp only [bind, Option.bind_eq_some_iff] at h
    obtain ⟨inner, hopen, address, haddress, port, hclose, hport⟩ := h
    exact (reads_after? (by simp) hopen).trans <| (reads_afterV6? haddress).trans <|
      reads_afterScope.trans <| (reads_after? (by simp) hclose).trans (reads_afterPort? hport)

/-- A socket address consists of hexadecimal digits and the signs of addresses. -/
theorem isAddressChar_of_isValid (h : isValid t = true) : ∀ c ∈ t, IsAddressChar c := by
  obtain ⟨read, rfl, hread⟩ := reads_afterAddress? (beq_iff_eq.mp h)
  simpa using hread

end BooleanSearch.SocketAddress
