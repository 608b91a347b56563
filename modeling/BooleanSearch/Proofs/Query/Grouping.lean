import BooleanSearch.Proofs.Query.Pieces

/-!
# Unbalanced parentheses

The conversion counts no parentheses: its groups stand on the operator stack among the operators.
Yet as many of them are open as there are `(` outside phrases more than `)`, because no operator
takes a group away. So the faults of a conversion are told by the parentheses outside phrases
alone.
-/

namespace BooleanSearch

namespace Token

/-- The token with this index is a `)` outside phrases before which as many groups are closed as
opened. -/
structure ClosesNothing (tokens : List Token) (i : Nat) : Prop where
  isClose : tokens[i]? = some .closeParen
  isOutside : Closed (tokens.take i)
  balanced : (outside (tokens.take i)).count .closeParen =
    (outside (tokens.take i)).count .openParen

/-- Whether a `)` closes something is told by the tokens up to it. -/
theorem ClosesNothing.of_append {tokens more : List Token} {i : Nat} (hi : i < tokens.length)
    (h : ClosesNothing (tokens ++ more) i) : ClosesNothing tokens i := by
  have htake : (tokens ++ more).take i = tokens.take i :=
    List.take_append_of_le_length (Nat.le_of_lt hi)
  obtain ⟨hclose, houtside, hbalanced⟩ := h
  rw [htake] at houtside hbalanced
  rw [List.getElem?_append_left hi] at hclose
  exact ⟨hclose, houtside, hbalanced⟩

/-- At most one token is the first that closes nothing. -/
theorem ClosesNothing.first_unique {tokens : List Token} {i j : Nat} (hi : ClosesNothing tokens i)
    (hi' : ∀ k < i, ¬ ClosesNothing tokens k) (hj : ClosesNothing tokens j)
    (hj' : ∀ k < j, ¬ ClosesNothing tokens k) : i = j := by
  rcases Nat.lt_trichotomy i j with hlt | heq | hgt
  · exact absurd hi (hj' i hlt)
  · exact heq
  · exact absurd hj (hi' j hgt)

/-- The parentheses outside phrases are balanced: each `)` closes a group, and each group that is
opened is closed. -/
structure Balanced (tokens : List Token) : Prop where
  closes : ∀ i, ¬ ClosesNothing tokens i
  count_eq : (outside tokens).count .closeParen = (outside tokens).count .openParen

/-- The tokens around the one with a given index. -/
theorem eq_take_append_cons {tokens : List Token} {i : Nat} {token : Token}
    (h : tokens[i]? = some token) : tokens = tokens.take i ++ token :: tokens.drop (i + 1) := by
  obtain ⟨hi, htoken⟩ := List.getElem?_eq_some_iff.mp h
  rw [← htoken, ← List.drop_eq_getElem_cons hi, List.take_append_drop]

end Token

namespace Pending

theorem count_group_append {top : List Pending} (h : .group ∉ top) (below : List Pending) :
    (top ++ below).count .group = below.count .group := by
  rw [List.count_append, List.count_eq_zero.mpr h, Nat.zero_add]

/-- An operator takes no group away. -/
theorem count_group_push (op : Operator) (pending : List Pending) :
    (push op pending).2.count .group = pending.count .group := by
  obtain ⟨top, below, rfl, htop, hpush⟩ := exists_push op pending
  rw [hpush, count_group_append htop, List.count_cons_of_ne (by simp)]

/-- A `)` that closes something takes one group away. -/
theorem count_group_closeGroup? {pending below : List Pending} {settled : Program}
    (h : closeGroup? pending = some (settled, below)) :
    pending.count .group = below.count .group + 1 := by
  obtain ⟨top, rfl, htop, -⟩ := exists_of_closeGroup? h
  rw [count_group_append htop, List.count_cons_self]

end Pending

namespace Conversion

/-- One token changes the number of open groups as its parenthesis says, if it is outside
phrases. -/
theorem Step.count_group {state next : Conversion} {token : Token} {settled : Program}
    {quoted : Option (List Token)} (h : Step state token next settled)
    (hreads : state.Reads quoted) :
    next.pending.count .group +
        ((Token.endedBy quoted token).toList.filterMap Piece.token?).count .closeParen =
      state.pending.count .group +
        ((Token.endedBy quoted token).toList.filterMap Piece.token?).count .openParen := by
  cases h with
  | extendPhrase pending phrase _ htoken =>
    obtain ⟨tokens, rfl, -⟩ := hreads.eq_some
    simp [Token.endedBy, htoken]
  | closePhrase pending phrase =>
    obtain ⟨tokens, rfl, -⟩ := hreads.eq_some
    simp [Token.endedBy, List.filterMap_cons, Piece.token?]
  | openPhrase | openGroup | word =>
    obtain rfl := hreads.eq_none
    simp [Token.endedBy, Piece.token?]
  | closeGroup pending below _ hclose =>
    obtain rfl := hreads.eq_none
    have hcount := Pending.count_group_closeGroup? hclose
    simp [Token.endedBy, Piece.token?, hcount]
  | operator pending op =>
    obtain rfl := hreads.eq_none
    simp [Token.endedBy, Piece.token?, Pending.count_group_push]

/-- After some tokens as many groups are open as the parentheses outside phrases say. -/
theorem Steps.count_group {state last : Conversion} {tokens : List Token} {settled : Program}
    {quoted : Option (List Token)} (h : Steps state tokens last settled)
    (hreads : state.Reads quoted) :
    last.pending.count .group +
        ((Token.piecesAfter quoted tokens).filterMap Piece.token?).count .closeParen =
      state.pending.count .group +
        ((Token.piecesAfter quoted tokens).filterMap Piece.token?).count .openParen := by
  induction h generalizing quoted with
  | nil => cases quoted <;> rfl
  | cons first _ ih =>
    have hfirst := first.count_group hreads
    have hrest := ih (first.reads hreads)
    rw [Token.piecesAfter, List.filterMap_append, List.count_append, List.count_append]
    omega

theorem Steps.count_group_start {last : Conversion} {tokens : List Token} {settled : Program}
    (h : Steps start tokens last settled) :
    last.pending.count .group + (Token.outside tokens).count .closeParen =
      (Token.outside tokens).count .openParen := by
  have hcount : last.pending.count .group +
      ((Token.pieces tokens).filterMap Piece.token?).count .closeParen =
      0 + ((Token.pieces tokens).filterMap Piece.token?).count .openParen :=
    h.count_group reads_start
  rwa [Token.count_token?_pieces (by simp), Token.count_token?_pieces (by simp),
    Nat.zero_add] at hcount

/-- A `)` outside phrases that does not fail closes a group. -/
theorem Step.group_mem {state next : Conversion} {settled : Program}
    (h : Step state .closeParen next settled) (hphrase : state.phrase = none) :
    .group ∈ state.pending := by
  cases h with
  | extendPhrase => cases hphrase
  | closeGroup pending below _ hclose =>
    have hcount := Pending.count_group_closeGroup? hclose
    have hopen : 0 < pending.count .group := by omega
    exact List.count_pos_iff.mp hopen

/-- If all tokens take their steps, every `)` outside phrases closes something. -/
theorem Steps.not_closesNothing {tokens : List Token} {last : Conversion} {settled : Program}
    (h : Steps start tokens last settled) (i : Nat) : ¬ Token.ClosesNothing tokens i := by
  rintro ⟨hclose, houtside, hbalanced⟩
  rw [Token.eq_take_append_cons hclose] at h
  obtain ⟨middle, _, _, hbefore, hrest, -⟩ := h.exists_of_append
  cases hrest with
  | cons hstep _ =>
    have hphrase : middle.phrase = none := hbefore.phrase_eq_none_iff.mpr houtside
    have hgroup : 0 < middle.pending.count .group :=
      List.count_pos_iff.mpr (hstep.group_mem hphrase)
    have hcount := hbefore.count_group_start
    omega

/-- A `)` that no group is open for closes nothing. -/
theorem Steps.closesNothing {before : List Token} {last : Conversion} {settled : Program}
    (h : Steps start before last settled) (hphrase : last.phrase = none)
    (hgroup : .group ∉ last.pending) (rest : List Token) :
    Token.ClosesNothing (before ++ .closeParen :: rest) before.length := by
  have hcount := h.count_group_start
  rw [List.count_eq_zero.mpr hgroup] at hcount
  refine ⟨by simp, ?_, ?_⟩
  · rw [List.take_left']
    · exact h.phrase_eq_none_iff.mp hphrase
    · rfl
  · rw [List.take_left' rfl]
    omega

end Conversion

namespace Program

open Token

/-- The three ways in which a conversion can end, each told by the parentheses outside phrases. -/
theorem ofTokens_cases (tokens : List Token) :
    (∃ i, ofTokens tokens = .error (.unmatchedClose i) ∧
      ClosesNothing tokens i ∧ ∀ j < i, ¬ ClosesNothing tokens j) ∨
    (ofTokens tokens = .error .unmatchedOpen ∧ (∀ i, ¬ ClosesNothing tokens i) ∧
      (outside tokens).count .closeParen < (outside tokens).count .openParen) ∨
    ((∃ program, ofTokens tokens = .ok program) ∧ (∀ i, ¬ ClosesNothing tokens i) ∧
      (outside tokens).count .closeParen = (outside tokens).count .openParen) := by
  rcases Conversion.steps_cases Conversion.start tokens with
    ⟨last, settled, hsteps⟩ | ⟨before, rest, last, settled, rfl, hsteps, hphrase, hgroup⟩
  · have hcount := hsteps.count_group_start
    have hrun : ofTokens tokens = last.finish.map fun rest => settled ++ rest := hsteps.run_eq 0
    by_cases hgroup : .group ∈ last.pending
    · rw [Conversion.finish, if_pos hgroup] at hrun
      have hopen : 0 < last.pending.count .group := List.count_pos_iff.mpr hgroup
      exact .inr (.inl ⟨hrun, hsteps.not_closesNothing, by omega⟩)
    · rw [Conversion.finish, if_neg hgroup] at hrun
      rw [List.count_eq_zero.mpr hgroup] at hcount
      exact .inr (.inr ⟨⟨_, hrun⟩, hsteps.not_closesNothing, by omega⟩)
  · left
    have hrun : ofTokens (before ++ .closeParen :: rest) =
        .error (.unmatchedClose (0 + before.length)) := hsteps.run_unmatched hphrase hgroup 0 rest
    rw [Nat.zero_add] at hrun
    refine ⟨before.length, hrun, hsteps.closesNothing hphrase hgroup rest, ?_⟩
    intro j hj hnothing
    exact hsteps.not_closesNothing j (hnothing.of_append hj)

/-- A conversion gives a program exactly if the parentheses outside phrases are balanced. -/
theorem balanced_iff {tokens : List Token} :
    Balanced tokens ↔ ∃ program, ofTokens tokens = .ok program := by
  constructor
  · rintro ⟨hnone, hcount⟩
    rcases ofTokens_cases tokens with ⟨i, -, hi, -⟩ | ⟨-, -, hlt⟩ | ⟨hprogram, -, -⟩
    · exact absurd hi (hnone i)
    · omega
    · exact hprogram
  · rintro ⟨program, hprogram⟩
    rcases ofTokens_cases tokens with ⟨i, hrun, -, -⟩ | ⟨hrun, -, -⟩ | ⟨-, hnone, hcount⟩
    · rw [hrun] at hprogram
      cases hprogram
    · rw [hrun] at hprogram
      cases hprogram
    · exact ⟨hnone, hcount⟩

/-- The faults of parentheses are exact. A conversion fails at a `)` exactly if that is the first
one outside phrases which closes nothing; it fails at the end exactly if there is none such and
more groups are opened outside phrases than closed; otherwise it gives a program. It never finds
too few operands. -/
theorem ofTokens_grouping (tokens : List Token) :
    (∀ i, ofTokens tokens = .error (.unmatchedClose i) ↔
      ClosesNothing tokens i ∧ ∀ j < i, ¬ ClosesNothing tokens j) ∧
    (ofTokens tokens = .error .unmatchedOpen ↔ (∀ i, ¬ ClosesNothing tokens i) ∧
      (outside tokens).count .closeParen < (outside tokens).count .openParen) ∧
    ((∃ program, ofTokens tokens = .ok program) ↔ (∀ i, ¬ ClosesNothing tokens i) ∧
      (outside tokens).count .openParen ≤ (outside tokens).count .closeParen) ∧
    ∀ op needed available, ofTokens tokens ≠ .error (.underflow op needed available) := by
  rcases ofTokens_cases tokens with
    ⟨i, hrun, hi, hfirst⟩ | ⟨hrun, hnone, hcount⟩ | ⟨⟨program, hrun⟩, hnone, hcount⟩
  · rw [hrun]
    refine ⟨?_, ?_, ?_, ?_⟩
    · intro j
      constructor
      · intro h
        cases h
        exact ⟨hi, hfirst⟩
      · rintro ⟨hj, hfirst'⟩
        rw [hi.first_unique hfirst hj hfirst']
    · exact ⟨nofun, fun h => absurd hi (h.1 i)⟩
    · exact ⟨nofun, fun h => absurd hi (h.1 i)⟩
    · exact nofun
  · rw [hrun]
    refine ⟨?_, ?_, ?_, ?_⟩
    · intro i
      exact ⟨nofun, fun h => absurd h.1 (hnone i)⟩
    · exact ⟨fun _ => ⟨hnone, hcount⟩, fun _ => rfl⟩
    · exact ⟨nofun, fun h => absurd h.2 (by omega)⟩
    · exact nofun
  · rw [hrun]
    refine ⟨?_, ?_, ?_, ?_⟩
    · intro i
      exact ⟨nofun, fun h => absurd h.1 (hnone i)⟩
    · exact ⟨nofun, fun h => absurd h.2 (by omega)⟩
    · exact ⟨fun _ => ⟨hnone, by omega⟩, fun _ => ⟨program, rfl⟩⟩
    · exact nofun

end Program

end BooleanSearch
