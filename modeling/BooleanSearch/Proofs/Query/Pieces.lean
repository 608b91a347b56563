import BooleanSearch.Proofs.Query.Conversion
import BooleanSearch.Proofs.Query.Infix

/-!
# Tokens inside and outside phrases

A token is outside phrases if an even number of quotes stands before it. So quotes cut a query
into pieces: single tokens outside phrases, and phrases with the tokens between their quotes, the
last of which may be open at the end. A conversion reads a query piece by piece: what it keeps of
an open phrase is the text of the tokens read since the quote that opened it.
-/

namespace BooleanSearch

/-- A piece of a query: a token outside phrases, or a phrase with the tokens in it. -/
inductive Piece where
  | plain (token : Token)
  | phrase (tokens : List Token)
  deriving DecidableEq, Repr

namespace Piece

/-- The token that a piece outside phrases is. -/
def token? : Piece → Option Token
  | .plain token => some token
  | .phrase _ => none

/-- The tokens of a piece without its quotes. -/
def tokens : Piece → List Token
  | .plain token => [token]
  | .phrase tokens => tokens

/-- The term that a piece gives: that of a word, or that of a phrase which is not blank. -/
def term? : Piece → Option Node
  | .plain (.word word) => some (Node.ofWord word)
  | .plain _ => none
  | .phrase tokens =>
    if phraseText tokens = [] then none else some (Node.ofPhrase (phraseText tokens))

end Piece

namespace Token

/-- Each phrase that some tokens open is also closed by them: they hold an even number of
quotes. -/
def Closed (tokens : List Token) : Prop := tokens.count .quote % 2 = 0

instance (tokens : List Token) : Decidable (Closed tokens) := inferInstanceAs (Decidable (_ = _))

/-- The tokens before each of which an even number of quotes stands, `before` of them before the
whole list. -/
def outsideAfter (before : Nat) : List Token → List Token
  | [] => []
  | token :: tokens =>
    let rest := outsideAfter (if token = .quote then before + 1 else before) tokens
    if before % 2 = 0 then token :: rest else rest

/-- The tokens outside phrases. -/
def outside (tokens : List Token) : List Token := outsideAfter 0 tokens

/-- The tokens of the phrase that is open after one more token, if any. -/
def phraseAfter (quoted : Option (List Token)) (token : Token) : Option (List Token) :=
  match quoted with
  | none => if token = .quote then some [] else none
  | some tokens => if token = .quote then none else some (tokens ++ [token])

/-- The piece that ends with a token, if any. -/
def endedBy (quoted : Option (List Token)) (token : Token) : Option Piece :=
  match quoted with
  | none => if token = .quote then none else some (.plain token)
  | some tokens => if token = .quote then some (.phrase tokens) else none

/-- The pieces of a list of tokens that stands after the first tokens of an open phrase, if any. -/
def piecesAfter (quoted : Option (List Token)) : List Token → List Piece
  | [] => (quoted.map Piece.phrase).toList
  | token :: tokens =>
    (endedBy quoted token).toList ++ piecesAfter (phraseAfter quoted token) tokens

/-- The pieces of a list of tokens. -/
def pieces (tokens : List Token) : List Piece := piecesAfter none tokens

/-- A quote opens a phrase or closes it, and nothing else does. -/
theorem isSome_phraseAfter {before : Nat} {quoted : Option (List Token)}
    (h : quoted.isSome = decide (before % 2 = 1)) (token : Token) :
    (phraseAfter quoted token).isSome =
      decide ((if token = .quote then before + 1 else before) % 2 = 1) := by
  by_cases hquote : token = .quote
  · cases quoted with
    | none =>
      have heven : before % 2 = 0 := by simpa using h
      have hodd : (before + 1) % 2 = 1 := by omega
      simp [phraseAfter, hquote, hodd]
    | some tokens =>
      have hodd : before % 2 = 1 := by simpa using h
      have heven : (before + 1) % 2 = 0 := by omega
      simp [phraseAfter, hquote, heven]
  · cases quoted <;> simpa [phraseAfter, hquote] using h

/-- A phrase is open after some tokens exactly if an odd number of quotes stands before. -/
theorem isSome_foldl_phraseAfter {before : Nat} {quoted : Option (List Token)}
    (h : quoted.isSome = decide (before % 2 = 1)) (tokens : List Token) :
    (tokens.foldl phraseAfter quoted).isSome =
      decide ((before + tokens.count .quote) % 2 = 1) := by
  induction tokens generalizing quoted before with
  | nil => exact h
  | cons token tokens ih =>
    rw [List.foldl_cons, ih (isSome_phraseAfter h token), List.count_cons]
    by_cases hquote : token = .quote
    · simp [hquote, Nat.add_assoc, Nat.add_comm 1]
    · simp [hquote]

theorem foldl_phraseAfter_eq_none_iff {tokens : List Token} :
    tokens.foldl phraseAfter none = none ↔ Closed tokens := by
  have hopen : (tokens.foldl phraseAfter none).isSome =
      decide ((0 + tokens.count .quote) % 2 = 1) := isSome_foldl_phraseAfter rfl tokens
  rw [Nat.zero_add] at hopen
  rw [← Option.not_isSome_iff_eq_none, hopen, Closed, decide_eq_true_eq]
  omega

/-- Tokens after which no phrase is open end a piece. -/
theorem piecesAfter_append {quoted : Option (List Token)} {tokens : List Token}
    (h : tokens.foldl phraseAfter quoted = none) (more : List Token) :
    piecesAfter quoted (tokens ++ more) = piecesAfter quoted tokens ++ pieces more := by
  induction tokens generalizing quoted with
  | nil =>
    have hquoted : quoted = none := h
    subst hquoted
    rfl
  | cons token tokens ih =>
    rw [List.cons_append, piecesAfter, piecesAfter, ih h, List.append_assoc]

theorem pieces_append {tokens : List Token} (h : Closed tokens) (more : List Token) :
    pieces (tokens ++ more) = pieces tokens ++ pieces more :=
  piecesAfter_append (foldl_phraseAfter_eq_none_iff.mpr h) more

theorem outsideAfter_cons (before : Nat) (token : Token) (tokens : List Token) :
    outsideAfter before (token :: tokens) =
      (if before % 2 = 0 then [token] else []) ++
        outsideAfter (if token = .quote then before + 1 else before) tokens := by
  rw [outsideAfter]
  split <;> rfl

/-- The pieces outside phrases are the tokens outside phrases but for the quotes. -/
theorem token?_piecesAfter {quoted : Option (List Token)} {before : Nat}
    (h : quoted.isSome = decide (before % 2 = 1)) (tokens : List Token) :
    (piecesAfter quoted tokens).filterMap Piece.token? =
      (outsideAfter before tokens).filter (fun token => token ≠ .quote) := by
  induction tokens generalizing quoted before with
  | nil => cases quoted <;> rfl
  | cons token tokens ih =>
    rw [piecesAfter, outsideAfter_cons, List.filterMap_append, List.filter_append,
      ih (isSome_phraseAfter h token)]
    congr 1
    cases quoted with
    | none =>
      have heven : before % 2 = 0 := by simpa using h
      by_cases hquote : token = .quote <;> simp [heven, endedBy, hquote, Piece.token?]
    | some tokens =>
      have hodd : before % 2 = 1 := by simpa using h
      by_cases hquote : token = .quote <;>
        simp [hodd, endedBy, hquote, List.filterMap_cons, Piece.token?]

theorem token?_pieces (tokens : List Token) :
    (pieces tokens).filterMap Piece.token? =
      (outside tokens).filter (fun token => token ≠ .quote) := by
  have hnone : (none : Option (List Token)).isSome = decide (0 % 2 = 1) := rfl
  exact token?_piecesAfter hnone tokens

/-- What tokens other than quotes are mapped to can be found among the pieces. -/
theorem filterMap_token?_pieces {β : Type} {f : Token → Option β} (h : f .quote = none)
    (tokens : List Token) :
    (pieces tokens).filterMap (fun piece => piece.token?.bind f) =
      (outside tokens).filterMap f := by
  have htokens := congrArg (List.filterMap f) (token?_pieces tokens)
  have hquote : (fun token => if decide (token ≠ .quote) then f token else none) = f := by
    funext token
    by_cases htoken : token = .quote <;> simp [htoken, h]
  rwa [List.filterMap_filterMap, List.filterMap_filter, hquote] at htokens

/-- The pieces of a query hold its tokens without the quotes. -/
theorem flatMap_tokens_piecesAfter (quoted : Option (List Token)) (tokens : List Token) :
    (piecesAfter quoted tokens).flatMap Piece.tokens =
      quoted.getD [] ++ tokens.filter (fun token => token ≠ .quote) := by
  induction tokens generalizing quoted with
  | nil => cases quoted <;> simp [piecesAfter, Piece.tokens]
  | cons token tokens ih =>
    rw [piecesAfter, List.flatMap_append, ih]
    by_cases hquote : token = .quote
    · cases quoted <;> simp [endedBy, phraseAfter, hquote, Piece.tokens]
    · cases quoted <;> simp [endedBy, phraseAfter, hquote, Piece.tokens]

theorem flatMap_tokens_pieces (tokens : List Token) :
    (pieces tokens).flatMap Piece.tokens = tokens.filter (fun token => token ≠ .quote) :=
  flatMap_tokens_piecesAfter none tokens

/-- Parentheses outside phrases can be counted among the pieces. -/
theorem count_token?_pieces {token : Token} (h : token ≠ .quote) (tokens : List Token) :
    ((pieces tokens).filterMap Piece.token?).count token = (outside tokens).count token := by
  rw [token?_pieces, List.count_filter (by simpa using h)]

end Token

namespace Conversion

/-- What a state keeps of an open phrase is the text of the tokens of that phrase. -/
def Reads (quoted : Option (List Token)) (state : Conversion) : Prop :=
  state.phrase = quoted.map fun tokens => tokens.foldl extendPhrase []

/-- Before the first token no phrase is open. -/
theorem reads_start : start.Reads none := rfl

theorem Reads.eq_none {quoted : Option (List Token)} {pending : List Pending}
    (h : Reads quoted ⟨pending, none⟩) : quoted = none := by
  cases quoted with
  | none => rfl
  | some tokens => cases h

theorem Reads.eq_some {quoted : Option (List Token)} {pending : List Pending} {phrase : Text}
    (h : Reads quoted ⟨pending, some phrase⟩) :
    ∃ tokens, quoted = some tokens ∧ phrase = tokens.foldl extendPhrase [] := by
  cases quoted with
  | none => cases h
  | some tokens => exact ⟨tokens, rfl, Option.some.inj h⟩

/-- One token is added to the phrase, opens it or closes it, as its pieces say. -/
theorem Step.reads {state next : Conversion} {token : Token} {settled : Program}
    {quoted : Option (List Token)} (h : Step state token next settled)
    (hreads : state.Reads quoted) : next.Reads (Token.phraseAfter quoted token) := by
  cases h with
  | extendPhrase pending phrase _ htoken =>
    obtain ⟨tokens, rfl, rfl⟩ := hreads.eq_some
    simp [Reads, Token.phraseAfter, htoken]
  | closePhrase pending phrase =>
    obtain ⟨tokens, rfl, rfl⟩ := hreads.eq_some
    rfl
  | openPhrase | openGroup | closeGroup | operator | word =>
    obtain rfl := hreads.eq_none
    rfl

theorem Steps.reads {state last : Conversion} {tokens : List Token} {settled : Program}
    {quoted : Option (List Token)} (h : Steps state tokens last settled)
    (hreads : state.Reads quoted) : last.Reads (tokens.foldl Token.phraseAfter quoted) := by
  induction h generalizing quoted with
  | nil => exact hreads
  | cons first _ ih => exact ih (first.reads hreads)

/-- Tokens that close all their phrases leave no phrase open, and only those. -/
theorem Steps.phrase_eq_none_iff {pending : List Pending} {last : Conversion}
    {tokens : List Token} {settled : Program} (h : Steps ⟨pending, none⟩ tokens last settled) :
    last.phrase = none ↔ Token.Closed tokens := by
  have hlast : last.Reads (tokens.foldl Token.phraseAfter none) := h.reads rfl
  rw [hlast, Option.map_eq_none_iff, Token.foldl_phraseAfter_eq_none_iff]

end Conversion

end BooleanSearch
