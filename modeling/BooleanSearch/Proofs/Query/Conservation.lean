import BooleanSearch.Proofs.Query.Pieces

/-!
# Conservation of nodes

A conversion loses no node and makes none up. A word or a phrase gives its term at once, so terms
keep the order of the query. An operator waits first, so at any time the operators that are settled
and those that wait are together the ones that were read.
-/

namespace BooleanSearch

/-- Whether a node is a term. -/
def Node.isTerm : Node → Bool
  | .term _ => true
  | .operator _ => false

/-- The operator that a node is. -/
def Node.operator? : Node → Option Operator
  | .term _ => none
  | .operator op => some op

/-- The operator that a token is. -/
def Token.operator? : Token → Option Operator
  | .operator op => some op
  | _ => none

/-- The operator that a piece outside phrases is. -/
def Piece.operator? (piece : Piece) : Option Operator := piece.token?.bind Token.operator?

/-- The operators among the pieces are those outside phrases. -/
theorem Token.operator?_pieces (tokens : List Token) :
    (pieces tokens).filterMap Piece.operator? = (outside tokens).filterMap operator? :=
  filterMap_token?_pieces rfl tokens

namespace Program

/-- The terms of a program in their order. -/
def terms (program : Program) : Program := program.filter Node.isTerm

/-- The operators of a program in their order. -/
def operators (program : Program) : List Operator := program.filterMap Node.operator?

theorem terms_append (program more : Program) :
    terms (program ++ more) = terms program ++ terms more := List.filter_append program more

theorem operators_append (program more : Program) :
    operators (program ++ more) = operators program ++ operators more := List.filterMap_append

theorem terms_nodes (pending : List Pending) : terms (Pending.nodes pending) = [] := by
  induction pending with
  | nil => rfl
  | cons entry pending ih => cases entry <;> exact ih

theorem isTerm_ofWord (word : Text) : (Node.ofWord word).isTerm = true := by
  rw [Node.ofWord]
  split <;> rfl

theorem terms_ofWord (word : Text) : terms [Node.ofWord word] = [Node.ofWord word] := by
  simp [terms, isTerm_ofWord]

theorem operators_ofWord (word : Text) : operators [Node.ofWord word] = [] := by
  have hterm := isTerm_ofWord word
  cases hnode : Node.ofWord word with
  | term text => rfl
  | operator op =>
    rw [hnode] at hterm
    cases hterm

theorem terms_closePhrase (phrase : Text) :
    terms (Conversion.closePhrase phrase) = Conversion.closePhrase phrase := by
  rw [Conversion.closePhrase]
  split <;> rfl

theorem operators_closePhrase (phrase : Text) :
    operators (Conversion.closePhrase phrase) = [] := by
  rw [Conversion.closePhrase]
  split <;> rfl

end Program

namespace Conversion

open Program

/-- A phrase that ends gives the term of the tokens in it. -/
theorem closePhrase_foldl (tokens : List Token) :
    closePhrase (tokens.foldl extendPhrase []) = (Piece.phrase tokens).term?.toList := by
  have hclose : closePhrase (tokens.foldl extendPhrase []) =
      if phraseText tokens = [] then [] else [Node.ofPhrase (phraseText tokens)] := rfl
  rw [hclose, Piece.term?]
  split <;> rfl

/-- One token settles the terms of the piece that ends with it. -/
theorem Step.terms {state next : Conversion} {token : Token} {settled : Program}
    {quoted : Option (List Token)} (h : Step state token next settled)
    (hreads : state.Reads quoted) :
    settled.terms = (Token.endedBy quoted token).toList.filterMap Piece.term? := by
  cases h with
  | extendPhrase pending phrase _ htoken =>
    obtain ⟨tokens, rfl, -⟩ := hreads.eq_some
    simp [Token.endedBy, htoken, Program.terms]
  | closePhrase pending phrase =>
    obtain ⟨tokens, rfl, rfl⟩ := hreads.eq_some
    rw [terms_closePhrase, closePhrase_foldl, Token.endedBy, if_pos rfl]
    cases hterm : (Piece.phrase tokens).term? <;> simp [hterm]
  | openPhrase | openGroup =>
    obtain rfl := hreads.eq_none
    simp [Token.endedBy, List.filterMap_cons, Piece.term?, Program.terms]
  | closeGroup pending below _ hclose =>
    obtain rfl := hreads.eq_none
    obtain ⟨top, -, -, rfl⟩ := Pending.exists_of_closeGroup? hclose
    simp [terms_nodes, Token.endedBy, List.filterMap_cons, Piece.term?]
  | operator pending op =>
    obtain rfl := hreads.eq_none
    obtain ⟨top, below, -, -, hpush⟩ := Pending.exists_push op pending
    simp [hpush, terms_nodes, Token.endedBy, List.filterMap_cons, Piece.term?]
  | word pending word =>
    obtain rfl := hreads.eq_none
    simp [terms_ofWord, Token.endedBy, Piece.term?]

/-- The terms that some tokens settle are those of their pieces, if the phrase that is open at the
end is counted too. -/
theorem Steps.terms {state last : Conversion} {tokens : List Token} {settled : Program}
    {quoted : Option (List Token)} (h : Steps state tokens last settled)
    (hreads : state.Reads quoted) :
    settled.terms ++ (last.phrase.map closePhrase).getD [] =
      (Token.piecesAfter quoted tokens).filterMap Piece.term? := by
  induction h generalizing quoted with
  | nil state =>
    rw [hreads]
    cases quoted with
    | none => rfl
    | some tokens =>
      have hclose := closePhrase_foldl tokens
      cases hterm : (Piece.phrase tokens).term? <;>
        simp [Token.piecesAfter, hterm, hclose, Program.terms]
  | cons first _ ih =>
    rw [terms_append, List.append_assoc, ih (first.reads hreads), first.terms hreads,
      Token.piecesAfter, List.filterMap_append]

/-- One token settles operators that waited, and if it is an operator outside phrases it waits
itself. -/
theorem Step.operators_perm {state next : Conversion} {token : Token} {settled : Program}
    {quoted : Option (List Token)} (h : Step state token next settled)
    (hreads : state.Reads quoted) :
    (settled.operators ++ operators (Pending.nodes next.pending)).Perm
      (operators (Pending.nodes state.pending) ++
        (Token.endedBy quoted token).toList.filterMap Piece.operator?) := by
  cases h with
  | extendPhrase pending phrase _ htoken =>
    obtain ⟨tokens, rfl, -⟩ := hreads.eq_some
    simp [Token.endedBy, htoken, operators]
  | closePhrase pending phrase =>
    obtain ⟨tokens, rfl, -⟩ := hreads.eq_some
    simp [Token.endedBy, operators_closePhrase, List.filterMap_cons, Piece.operator?, Piece.token?]
  | openPhrase | openGroup =>
    obtain rfl := hreads.eq_none
    simp [Token.endedBy, operators, List.filterMap_cons, Piece.operator?, Piece.token?,
      Token.operator?, Pending.nodes]
  | closeGroup pending below _ hclose =>
    obtain rfl := hreads.eq_none
    obtain ⟨top, rfl, -, rfl⟩ := Pending.exists_of_closeGroup? hclose
    simp [Pending.nodes_append, operators_append, Token.endedBy, List.filterMap_cons,
      Piece.operator?, Piece.token?,
      Token.operator?, Pending.nodes]
  | operator pending op =>
    obtain rfl := hreads.eq_none
    obtain ⟨top, below, rfl, -, hpush⟩ := Pending.exists_push op pending
    rw [hpush, Pending.nodes_append, operators_append, List.append_assoc]
    apply List.Perm.append_left
    exact (List.perm_append_singleton op _).symm
  | word pending word =>
    obtain rfl := hreads.eq_none
    simp [operators_ofWord, Token.endedBy, List.filterMap_cons, Piece.operator?, Piece.token?,
      Token.operator?]

/-- The operators that some tokens settle and those that wait after them are together those that
waited before them and those outside phrases among them. -/
theorem Steps.operators_perm {state last : Conversion} {tokens : List Token} {settled : Program}
    {quoted : Option (List Token)} (h : Steps state tokens last settled)
    (hreads : state.Reads quoted) :
    (settled.operators ++ operators (Pending.nodes last.pending)).Perm
      (operators (Pending.nodes state.pending) ++
        (Token.piecesAfter quoted tokens).filterMap Piece.operator?) := by
  induction h generalizing quoted with
  | nil state =>
    cases quoted <;>
      simp [operators, Token.piecesAfter, List.filterMap_cons, Piece.operator?, Piece.token?]
  | cons first _ ih =>
    -- what the first token settles stays in front; the rest permutes what waits after it
    have hfirst := first.operators_perm hreads
    have hrest := ih (first.reads hreads)
    rw [operators_append, List.append_assoc, Token.piecesAfter, List.filterMap_append,
      ← List.append_assoc (operators (Pending.nodes _))]
    refine (hrest.append_left _).trans ?_
    rw [← List.append_assoc]
    exact hfirst.append_right _

end Conversion

namespace Program

/-- The terms of a program are those of the pieces of its tokens, in the order of the tokens. -/
theorem terms_of_ofTokens {tokens : List Token} {program : Program}
    (h : ofTokens tokens = .ok program) :
    program.terms = (Token.pieces tokens).filterMap Piece.term? := by
  obtain ⟨last, settled, rest, hsteps, hfinish, rfl⟩ := Conversion.exists_steps_of_run h
  obtain ⟨-, rfl⟩ := Conversion.of_finish_eq_ok hfinish
  have hclose : terms ((last.phrase.map Conversion.closePhrase).getD []) =
      (last.phrase.map Conversion.closePhrase).getD [] := by
    cases last.phrase with
    | none => rfl
    | some phrase => exact terms_closePhrase phrase
  have hterms := hsteps.terms Conversion.reads_start
  rw [terms_append, terms_append, terms_nodes, hclose, List.append_nil]
  exact hterms

/-- The operators of a program are those outside phrases among its tokens. -/
theorem operators_perm_of_ofTokens {tokens : List Token} {program : Program}
    (h : ofTokens tokens = .ok program) :
    program.operators.Perm ((Token.outside tokens).filterMap Token.operator?) := by
  obtain ⟨last, settled, rest, hsteps, hfinish, rfl⟩ := Conversion.exists_steps_of_run h
  obtain ⟨-, rfl⟩ := Conversion.of_finish_eq_ok hfinish
  have hclose : operators ((last.phrase.map Conversion.closePhrase).getD []) = [] := by
    cases last.phrase with
    | none => rfl
    | some phrase => exact operators_closePhrase phrase
  have hperm := hsteps.operators_perm Conversion.reads_start
  rw [operators_append, operators_append, hclose, List.nil_append, ← Token.operator?_pieces]
  exact hperm

/-- A conversion loses, repeats and invents nothing: the terms of the program are those of the words
outside phrases and of the phrases that are not blank, in the order of the query, and its operators
are those outside phrases in some order. -/
theorem ofTokens_conserves {tokens : List Token} {program : Program}
    (h : ofTokens tokens = .ok program) :
    program.filter Node.isTerm = (Token.pieces tokens).filterMap Piece.term? ∧
      (program.filterMap Node.operator?).Perm
        ((Token.outside tokens).filterMap Token.operator?) :=
  ⟨terms_of_ofTokens h, operators_perm_of_ofTokens h⟩

/-- A query with misplaced operators, an orphan, a blank phrase and one that is open at the end. -/
theorem ofTokens_conserves_open_phrase :
    let tokens := Token.ofQuery "plum NOT OR \"red AND )\" (AND pear*) \" \" \"apple".toList
    let program : Program := [.term "\"plum\"".toList, .operator .not,
      .term "\"red AND red AND)\"".toList, .term "pear*".toList, .operator .and,
      .term "\"apple\"".toList, .operator .or]
    ofTokens tokens = .ok program ∧
      program.filter Node.isTerm = (Token.pieces tokens).filterMap Piece.term? ∧
      (program.filterMap Node.operator?).Perm
        ((Token.outside tokens).filterMap Token.operator?) :=
  ⟨rfl, ofTokens_conserves rfl⟩

end Program

end BooleanSearch
