import Mathlib.Data.List.Chain
import BooleanSearch.Field
import BooleanSearch.Proofs.Query.Context
import BooleanSearch.Proofs.Query.Depth

/-!
# Misplaced operators

The conversion never looks at the place of an operator. A connective that begins a query or an
operator that ends it is found out only if it meets too few operands in the program. That is so in
every query in which no operand directly follows another one, because such a query has at most one
operand more than connectives, and none more if an operator is misplaced. But where operands do
follow each other, one of them stands in for the missing one, and the query is accepted.
-/

namespace BooleanSearch

namespace Piece

/-- A phrase without a text. -/
def isBlank : Piece → Bool
  | .plain _ => false
  | .phrase tokens => phraseText tokens = []

/-- Whether an operand can begin with a piece. -/
def begins : Piece → Bool
  | .plain .closeParen | .plain (.operator .and) | .plain (.operator .or) => false
  | _ => true

/-- Whether an operand can end with a piece. -/
def ends : Piece → Bool
  | .plain .openParen | .plain (.operator _) => false
  | _ => true

/-- Of two successive pieces the first does not end an operand or the second does not begin one. -/
def Apart (left right : Piece) : Prop := left.ends = false ∨ right.begins = false

instance : DecidableRel Apart := fun _ _ => inferInstanceAs (Decidable (_ ∨ _))

/-- The terms among some pieces. -/
def operandCount (pieces : List Piece) : Nat := (pieces.filterMap term?).length

/-- The connectives among some pieces. -/
def connectiveCount (pieces : List Piece) : Nat :=
  (pieces.filterMap operator?).countP Operator.isConnective

theorem operandCount_cons (piece : Piece) (pieces : List Piece) :
    operandCount (piece :: pieces) = operandCount [piece] + operandCount pieces := by
  cases h : piece.term? <;> simp [operandCount, h, Nat.add_comm]

theorem connectiveCount_cons (piece : Piece) (pieces : List Piece) :
    connectiveCount (piece :: pieces) = connectiveCount [piece] + connectiveCount pieces := by
  cases h : piece.operator? <;> simp [connectiveCount, h, List.countP_cons, Nat.add_comm]

/-- A term ends an operand. -/
theorem operandCount_le_ends (piece : Piece) : operandCount [piece] ≤ piece.ends.toNat := by
  cases piece with
  | phrase tokens => cases h : (Piece.phrase tokens).term? <;> simp [operandCount, h, ends]
  | plain token => cases token <;> simp [operandCount, List.filterMap_cons, term?, ends]

/-- Along pieces that stand apart, the terms outgrow the connectives by no more than the operand
that ends with the last piece. Here one piece is added. -/
theorem operandCount_add_ends_le {left right : Piece} (h : left.Apart right) :
    operandCount [right] + left.ends.toNat ≤ connectiveCount [right] + right.ends.toNat := by
  have hleft : left.ends.toNat ≤ 1 := Bool.toNat_le left.ends
  -- a piece that begins an operand follows none, and any other is a connective or closes a group
  cases hbegins : right.begins with
  | true =>
    have hends : left.ends = false := by simpa [Apart, hbegins] using h
    rw [hends]
    exact Nat.le_trans (operandCount_le_ends right) (Nat.le_add_left _ _)
  | false =>
    cases right with
    | phrase tokens => cases hbegins
    | plain token =>
      cases token with
      | closeParen =>
        have hcount : operandCount [plain .closeParen] = 0 := rfl
        have hends : (plain .closeParen).ends.toNat = 1 := rfl
        omega
      | operator op =>
        have hcount : operandCount [plain (.operator op)] = 0 := rfl
        have hconnective : connectiveCount [plain (.operator op)] = 1 := by
          cases op with
          | not => cases hbegins
          | and | or => rfl
        omega
      | quote | openParen | word => cases hbegins

/-- After a first piece, those that stand apart hold at most one term more than connectives, and
none more if the first ends an operand or the last ends none. -/
theorem operandCount_add_ends_le_of_isChain {left : Piece} {pieces : List Piece}
    (h : (left :: pieces).IsChain Apart) :
    operandCount pieces + left.ends.toNat ≤
      connectiveCount pieces + (pieces.getLastD left).ends.toNat := by
  induction pieces generalizing left with
  | nil => exact Nat.le_refl _
  | cons right pieces ih =>
    obtain ⟨hapart, hrest⟩ := List.isChain_cons_cons.mp h
    have hfirst := operandCount_add_ends_le hapart
    have hmore := ih hrest
    rw [operandCount_cons, connectiveCount_cons, List.getLastD_cons]
    omega

/-- Pieces that stand apart and begin with a connective hold no more terms than connectives. -/
theorem operandCount_le_of_leading {op : Operator} {pieces : List Piece} (hop : op ≠ .not)
    (h : (plain (.operator op) :: pieces).IsChain Apart) :
    operandCount (plain (.operator op) :: pieces) ≤
      connectiveCount (plain (.operator op) :: pieces) := by
  have hrest := operandCount_add_ends_le_of_isChain h
  have hends : (pieces.getLastD (plain (.operator op))).ends.toNat ≤ 1 := Bool.toNat_le _
  have hcount : operandCount [plain (.operator op)] = 0 := rfl
  have hconnective : connectiveCount [plain (.operator op)] = 1 := by
    cases op with
    | not => exact absurd rfl hop
    | and | or => rfl
  rw [operandCount_cons, connectiveCount_cons]
  omega

/-- Pieces that stand apart and end with an operator hold no more terms than connectives. -/
theorem operandCount_le_of_trailing {op : Operator} {pieces : List Piece}
    (h : (pieces ++ [plain (.operator op)]).IsChain Apart) :
    operandCount (pieces ++ [plain (.operator op)]) ≤
      connectiveCount (pieces ++ [plain (.operator op)]) := by
  cases pieces with
  | nil => exact Nat.zero_le _
  | cons first pieces =>
    rw [List.cons_append] at h ⊢
    have hrest := operandCount_add_ends_le_of_isChain h
    have hlast : ((pieces ++ [plain (.operator op)]).getLastD first).ends.toNat = 0 := by
      rw [List.getLastD_concat]
      rfl
    have hfirst := operandCount_le_ends first
    rw [operandCount_cons, connectiveCount_cons]
    omega

/-- A blank phrase is no term. -/
theorem operandCount_filter (pieces : List Piece) :
    operandCount (pieces.filter fun piece => !piece.isBlank) = operandCount pieces := by
  have hterm : (fun piece : Piece => if !piece.isBlank then piece.term? else none) = term? := by
    funext piece
    cases piece with
    | plain token => rfl
    | phrase tokens => by_cases h : phraseText tokens = [] <;> simp [isBlank, term?, h]
  simp only [operandCount, List.filterMap_filter, hterm]

theorem connectiveCount_filter (pieces : List Piece) :
    connectiveCount (pieces.filter fun piece => !piece.isBlank) = connectiveCount pieces := by
  have hop : (fun piece : Piece => if !piece.isBlank then piece.operator? else none) =
      operator? := by
    funext piece
    cases piece with
    | plain token => rfl
    | phrase tokens => by_cases h : phraseText tokens = [] <;> simp [isBlank, operator?, token?, h]
  simp only [connectiveCount, List.filterMap_filter, hop]

end Piece

namespace Token

/-- Tokens with a misplaced operator: a connective that begins them or an operator outside phrases
that ends them. -/
inductive Misplaced : List Token → Prop where
  | leading (op : Operator) (rest : List Token) (h : op ≠ .not) : Misplaced (.operator op :: rest)
  | trailing (init : List Token) (op : Operator) (h : Closed init) :
    Misplaced (init ++ [.operator op])

/-- No operand directly follows another one. A `NOT` belongs to the operand after it, and a blank
phrase is no operand. -/
def Separated (tokens : List Token) : Prop :=
  ((pieces tokens).filter fun piece => !piece.isBlank).IsChain Piece.Apart

instance (tokens : List Token) : Decidable (Separated tokens) :=
  inferInstanceAs (Decidable (List.IsChain _ _))

theorem Misplaced.operators_ne_nil {tokens : List Token} (h : Misplaced tokens) :
    (pieces tokens).filterMap Piece.operator? ≠ [] := by
  cases h with
  | leading op rest hop => exact List.cons_ne_nil _ _
  | trailing init op hclosed =>
    rw [pieces_append hclosed, List.filterMap_append]
    exact List.append_ne_nil_of_right_ne_nil _ (List.cons_ne_nil _ _)

/-- With a misplaced operator, operands that do not follow each other are no more than
connectives. -/
theorem Misplaced.operandCount_le {tokens : List Token} (h : Misplaced tokens)
    (hapart : Separated tokens) :
    Piece.operandCount (pieces tokens) ≤ Piece.connectiveCount (pieces tokens) := by
  rw [← Piece.operandCount_filter, ← Piece.connectiveCount_filter]
  rw [Separated] at hapart
  cases h with
  | leading op rest hop => exact Piece.operandCount_le_of_leading hop hapart
  | trailing init op hclosed =>
    have hlast : (pieces [.operator op]).filter (fun piece => !piece.isBlank) =
        [Piece.plain (.operator op)] := rfl
    rw [pieces_append hclosed, List.filter_append, hlast] at hapart ⊢
    exact Piece.operandCount_le_of_trailing hapart

end Token

namespace Program

/-- A program has as many terms and connectives as its tokens. -/
theorem length_terms_of_ofTokens {tokens : List Token} {program : Program}
    (h : ofTokens tokens = .ok program) :
    program.terms.length = Piece.operandCount (Token.pieces tokens) :=
  congrArg List.length (terms_of_ofTokens h)

theorem connectives_of_ofTokens {tokens : List Token} {program : Program}
    (h : ofTokens tokens = .ok program) :
    program.connectives = Piece.connectiveCount (Token.pieces tokens) := by
  rw [connectives, (operators_perm_of_ofTokens h).countP_eq, Piece.connectiveCount,
    Token.operator?_pieces]

/-- A misplaced operator is found out if no operand directly follows another one: a query that
begins with a connective or ends with an operator outside phrases has no text in the target
language. -/
theorem render_misplaced {query : Text} (hplace : Token.Misplaced (Token.ofQuery query))
    (hapart : Token.Separated (Token.ofQuery query)) (field : Text) :
    ∃ fault, (ofQuery query >>= render field) = .error fault := by
  cases hprogram : ofQuery query with
  | error fault => exact ⟨fault, rfl⟩
  | ok program =>
    have hne : program.operators ≠ [] := by
      intro hnil
      have hperm := operators_perm_of_ofTokens hprogram
      rw [hnil, ← Token.operator?_pieces] at hperm
      exact hplace.operators_ne_nil hperm.nil_eq.symm
    have hle : program.terms.length ≤ program.connectives := by
      rw [length_terms_of_ofTokens hprogram, connectives_of_ofTokens hprogram]
      exact hplace.operandCount_le hapart
    obtain ⟨fault, hdepth⟩ := exists_fault_of_terms_le hne hle
    exact ⟨fault, render_eq_error_of_depth hdepth field⟩

/-- A query that begins with a connective and one that ends with an operator, with operators of
which some are in quotes. -/
theorem render_misplaced_in_groups :
    let leading := "OR NOT (plum AND \"red ) OR\") AND \" \" NOT pear*".toList
    let trailing := "(plum OR NOT \"red AND\") AND NOT".toList
    (Token.Misplaced (Token.ofQuery leading) ∧ Token.Separated (Token.ofQuery leading) ∧
      ∃ fault, (ofQuery leading >>= render defaultField) = .error fault) ∧
    Token.Misplaced (Token.ofQuery trailing) ∧ Token.Separated (Token.ofQuery trailing) ∧
      ∃ fault, (ofQuery trailing >>= render defaultField) = .error fault := by
  have hleading : Token.Misplaced
      (Token.ofQuery "OR NOT (plum AND \"red ) OR\") AND \" \" NOT pear*".toList) :=
    .leading .or _ (by decide)
  have htrailing : Token.Misplaced
      (Token.ofQuery "(plum OR NOT \"red AND\") AND NOT".toList) :=
    .trailing (Token.ofQuery "(plum OR NOT \"red AND\") AND".toList) .not (by decide)
  exact ⟨⟨hleading, by decide, render_misplaced hleading (by decide) defaultField⟩,
    htrailing, by decide, render_misplaced htrailing (by decide) defaultField⟩

/-- Misplaced operators are not always found out: an operand that follows another one stands in for
the one that the operator lacks. -/
theorem render_misplaced_accepted :
    (Token.Misplaced (Token.ofQuery "AND Apples Oranges".toList) ∧
      (ofQuery "AND Apples Oranges".toList >>= render defaultField) =
        .ok "(text:\"Oranges\" AND text:\"Apples\")".toList) ∧
    (Token.Misplaced (Token.ofQuery "Apples Oranges OR".toList) ∧
      (ofQuery "Apples Oranges OR".toList >>= render defaultField) =
        .ok "(text:\"Oranges\" OR text:\"Apples\")".toList) ∧
    Token.Misplaced (Token.ofQuery "Apples NOT".toList) ∧
      (ofQuery "Apples NOT".toList >>= render defaultField) = .ok "-text:\"Apples\"".toList :=
  ⟨⟨.leading .and _ (by decide), rfl⟩,
    ⟨.trailing (Token.ofQuery "Apples Oranges".toList) .or (by decide), rfl⟩,
    .trailing (Token.ofQuery "Apples".toList) .not (by decide), rfl⟩

open Conversion in
/-- An operator before two operands that follow each other, between them or after them gives the
same program. -/
theorem ofTokens_adjacent {left right : List Token} {m n : Program} (hleft : Yields left m)
    (hright : Yields right n) (op : Operator) :
    ofTokens (.operator op :: left ++ right) = .ok (m ++ n ++ [.operator op]) ∧
      ofTokens (left ++ .operator op :: right) = .ok (m ++ n ++ [.operator op]) ∧
      ofTokens (left ++ right ++ [.operator op]) = .ok (m ++ n ++ [.operator op]) := by
  have hop : Steps ⟨[], none⟩ [.operator op] ⟨[.operator op], none⟩ [] := by
    cases op <;> exact (Step.operator [] _).single
  have hend : finish ⟨[.operator op], none⟩ = .ok [.operator op] := rfl
  refine ⟨?_, ?_, ?_⟩
  · exact ((hop.append (hleft _)).append (hright _)).ofTokens_eq hend
  · exact ((hleft []).append (hop.append (hright _))).ofTokens_eq hend
  · have hsteps := ((hleft []).append (hright [])).append hop
    rw [List.append_nil] at hsteps
    exact hsteps.ofTokens_eq hend

end Program

end BooleanSearch
