import Mathlib.Algebra.Group.Nat.Defs
import BooleanSearch.Proofs.Query.Quotation
import BooleanSearch.Proofs.Query.Conservation
import BooleanSearch.Proofs.Query.Tokens
import BooleanSearch.Proofs.Text.Trim

/-!
# The size of programs

In a phrase a `)` repeats what the phrase holds so far, and any other token adds its own text. So
the terms of a program are no longer than the query but for a constant and for a factor of two for
each `)` in one phrase. A word and `)` after it reach this factor, so no constant alone will do.
-/

namespace BooleanSearch

/-- The number of characters in the term that a node is. -/
def Node.size : Node → Nat
  | .term text => text.length
  | .operator _ => 0

/-- The number of characters in the terms of a program. -/
def Program.size : Program → Nat
  | [] => 0
  | node :: rest => node.size + size rest

/-- How many `)` stand in a phrase. -/
def Piece.closings : Piece → Nat
  | .plain _ => 0
  | .phrase tokens => tokens.count .closeParen

namespace Token

/-- The most `)` that stand in one phrase among some tokens. -/
def mostClosings (tokens : List Token) : Nat :=
  ((pieces tokens).map Piece.closings).foldr max 0

/-- The number of characters of some tokens. -/
def size (tokens : List Token) : Nat := (tokens.flatMap text).length

theorem size_cons (token : Token) (tokens : List Token) :
    size (token :: tokens) = token.text.length + size tokens := by
  rw [size, List.flatMap_cons, List.length_append, size]

theorem size_append (tokens more : List Token) :
    size (tokens ++ more) = size tokens + size more := by
  rw [size, List.flatMap_append, List.length_append, size, size]

theorem size_pos {tokens : List Token} (h : ∀ token ∈ tokens, token.Proper) (hne : tokens ≠ []) :
    0 < size tokens := by
  obtain ⟨token, rest, rfl⟩ := List.exists_cons_of_ne_nil hne
  rw [size_cons]
  exact Nat.add_pos_left (List.length_pos_iff.mpr (h token List.mem_cons_self).text_ne_nil) _

theorem size_ofQuery_le (query : Text) : size (ofQuery query) ≤ query.length := by
  rw [size, flatMap_text_ofQuery]
  exact List.length_filter_le _ _

theorem size_filter_le (keep : Token → Bool) (tokens : List Token) :
    size (tokens.filter keep) ≤ size tokens := by
  induction tokens with
  | nil => exact Nat.le_refl _
  | cons token tokens ih =>
    rw [List.filter_cons, size_cons]
    split
    · rw [size_cons]
      omega
    · omega

theorem closings_le_mostClosings {piece : Piece} {tokens : List Token}
    (h : piece ∈ pieces tokens) : piece.closings ≤ mostClosings tokens := by
  rw [mostClosings]
  generalize pieces tokens = all at h
  induction all with
  | nil => cases h
  | cons first rest ih =>
    rw [List.map_cons, List.foldr_cons]
    rcases List.mem_cons.mp h with rfl | hrest
    · exact Nat.le_max_left _ _
    · exact Nat.le_trans (ih hrest) (Nat.le_max_right _ _)

end Token

namespace Conversion

/-- A `)` at most doubles what an open phrase holds. -/
theorem length_extendPhrase_closeParen_le (phrase : Text) :
    (extendPhrase phrase .closeParen).length ≤ 2 * phrase.length + 2 := by
  have htrim : (Text.trim phrase).length ≤ phrase.length := (Text.trim_sublist phrase).length_le
  simp only [extendPhrase, List.length_append, List.length_cons, List.length_nil]
  omega

/-- Any other token adds its text to an open phrase, and at most a space. -/
theorem length_extendPhrase_le (phrase : Text) {token : Token} (h : token ≠ .closeParen) :
    (extendPhrase phrase token).length ≤ phrase.length + token.text.length + 1 := by
  cases token with
  | closeParen => exact absurd rfl h
  | quote => exact Nat.le_add_right _ 2
  | openParen | operator op | word word =>
    simp only [extendPhrase, Token.text, List.length_append, List.length_cons, List.length_nil]
    omega

/-- What tokens make of an open phrase: each character counts twice, since a space may follow, and
each `)` may double the whole. -/
theorem length_foldl_extendPhrase_le {tokens : List Token} (h : ∀ token ∈ tokens, token.Proper)
    (phrase : Text) :
    (tokens.foldl extendPhrase phrase).length + 2 ≤
      2 ^ tokens.count .closeParen * (phrase.length + 2 + 2 * Token.size tokens) := by
  induction tokens generalizing phrase with
  | nil => simp
  | cons token tokens ih =>
    have hrest := ih (fun other hmem => h other (List.mem_cons_of_mem token hmem))
      (extendPhrase phrase token)
    have hpos : 0 < token.text.length :=
      List.length_pos_iff.mpr (h token List.mem_cons_self).text_ne_nil
    rw [List.foldl_cons, Token.size_cons]
    by_cases hclose : token = .closeParen
    · subst hclose
      have hdouble := length_extendPhrase_closeParen_le phrase
      rw [List.count_cons_self, Nat.pow_succ, Nat.mul_assoc]
      refine Nat.le_trans hrest (Nat.mul_le_mul_left _ ?_)
      omega
    · have hadd := length_extendPhrase_le phrase hclose
      rw [List.count_cons_of_ne hclose]
      refine Nat.le_trans hrest (Nat.mul_le_mul_left _ ?_)
      omega

end Conversion

theorem Node.size_ofWord_le (word : Text) : (Node.ofWord word).size ≤ word.length + 2 := by
  rw [Node.ofWord]
  split
  · exact Nat.le_add_right _ 2
  · simp [Node.size, Node.literal]

namespace Piece

/-- The term of a piece is at most four times as long as its tokens, and twice that for each `)` in
it. -/
theorem size_term_le {piece : Piece} {node : Node} (h : ∀ token ∈ piece.tokens, token.Proper)
    (hnode : piece.term? = some node) :
    node.size ≤ 2 ^ piece.closings * (4 * Token.size piece.tokens) := by
  cases piece with
  | plain token =>
    cases token with
    | word word =>
      cases hnode
      have hpos := Token.size_pos h (by simp [tokens])
      have hsize : Token.size [.word word] = word.length := by simp [Token.size, Token.text]
      have hword := Node.size_ofWord_le word
      rw [closings, Nat.pow_zero, Nat.one_mul]
      rw [tokens, hsize] at hpos ⊢
      omega
    | openParen | closeParen | quote | operator op => cases hnode
  | phrase tokens =>
    rw [term?] at hnode
    split at hnode
    · cases hnode
    · next hblank =>
      cases hnode
      have hne : tokens ≠ [] := by
        rintro rfl
        exact hblank rfl
      have hpos : 0 < Token.size tokens := Token.size_pos h hne
      have htrim : (phraseText tokens).length ≤ (tokens.foldl Conversion.extendPhrase []).length :=
        (Text.trim_sublist _).length_le
      calc (Node.ofPhrase (phraseText tokens)).size
          = (phraseText tokens).length + 2 := by simp [Node.ofPhrase, Node.size, Node.literal]
        _ ≤ (tokens.foldl Conversion.extendPhrase []).length + 2 := Nat.add_le_add_right htrim 2
        _ ≤ 2 ^ tokens.count .closeParen * (0 + 2 + 2 * Token.size tokens) :=
          Conversion.length_foldl_extendPhrase_le h []
        _ ≤ 2 ^ tokens.count .closeParen * (4 * Token.size tokens) :=
          Nat.mul_le_mul_left _ (by omega)

end Piece

namespace Program

/-- Operators have no characters. -/
theorem size_terms (program : Program) : size program.terms = size program := by
  induction program with
  | nil => rfl
  | cons node program ih =>
    cases node with
    | term text => exact congrArg (text.length + ·) ih
    | operator op => exact ih.trans (Nat.zero_add _).symm

/-- The terms of some pieces are at most four times as long as their tokens, and twice that for each
`)` in the phrase that has most of them. -/
theorem size_pieces_le {pieces : List Piece} {most : Nat}
    (h : ∀ token ∈ pieces.flatMap Piece.tokens, token.Proper)
    (hmost : ∀ piece ∈ pieces, piece.closings ≤ most) :
    size (pieces.filterMap Piece.term?) ≤
      2 ^ most * (4 * Token.size (pieces.flatMap Piece.tokens)) := by
  induction pieces with
  | nil => exact Nat.zero_le _
  | cons piece pieces ih =>
    rw [List.flatMap_cons] at h ⊢
    have hrest := ih (fun token hmem => h token (List.mem_append_right _ hmem))
      (fun other hmem => hmost other (List.mem_cons_of_mem piece hmem))
    have hpower : 2 ^ piece.closings ≤ 2 ^ most :=
      Nat.pow_le_pow_right Nat.two_pos (hmost piece List.mem_cons_self)
    rw [Token.size_append, Nat.mul_add, Nat.mul_add]
    cases hterm : piece.term? with
    | none =>
      rw [List.filterMap_cons_none hterm]
      exact Nat.le_add_left_of_le hrest
    | some node =>
      have hnode := Piece.size_term_le
        (fun token hmem => h token (List.mem_append_left _ hmem)) hterm
      rw [List.filterMap_cons_some hterm, size]
      exact Nat.add_le_add (Nat.le_trans hnode (Nat.mul_le_mul_right _ hpower)) hrest

/-- The terms of a program are at most four times as long as its query, and twice that for each `)`
in the phrase that has most of them. -/
theorem size_le_of_ofQuery {query : Text} {program : Program} (h : ofQuery query = .ok program) :
    program.size ≤ 4 * 2 ^ Token.mostClosings (Token.ofQuery query) * query.length := by
  have hproper : ∀ token ∈ (Token.pieces (Token.ofQuery query)).flatMap Piece.tokens,
      token.Proper := by
    intro token hmem
    rw [Token.flatMap_tokens_pieces] at hmem
    exact Token.proper_of_mem_ofQuery ((List.mem_filter.mp hmem).1)
  have hsize := size_pieces_le hproper fun piece => Token.closings_le_mostClosings
  rw [← terms_of_ofTokens h, size_terms, Token.flatMap_tokens_pieces] at hsize
  have hquery : Token.size ((Token.ofQuery query).filter fun token => token ≠ .quote) ≤
      query.length :=
    Nat.le_trans (Token.size_filter_le _ _) (Token.size_ofQuery_le query)
  calc program.size
      ≤ _ := hsize
    _ ≤ 2 ^ Token.mostClosings (Token.ofQuery query) * (4 * query.length) :=
      Nat.mul_le_mul_left _ (Nat.mul_le_mul_left 4 hquery)
    _ = 4 * 2 ^ Token.mostClosings (Token.ofQuery query) * query.length := by
      rw [← Nat.mul_assoc, Nat.mul_comm _ 4]

/-- A phrase with two `)`, the first of which repeats one word and the second three. -/
theorem size_le_of_ofQuery_closings :
    let query := "\"a) b)\" OR NOT c*".toList
    let program : Program :=
      [.term "\"a a) b a a) b)\"".toList, .term "c*".toList, .operator .not, .operator .or]
    ofQuery query = .ok program ∧ program.size = 18 ∧
      Token.mostClosings (Token.ofQuery query) = 2 ∧
      program.size ≤ 4 * 2 ^ Token.mostClosings (Token.ofQuery query) * query.length :=
  ⟨rfl, rfl, rfl, size_le_of_ofQuery rfl⟩

end Program

/-- What a phrase holds of a word and `)` after it, without the last space. -/
def doubled (word : Text) : Nat → Text
  | 0 => word
  | n + 1 => doubled word n ++ ' ' :: doubled word n ++ [')']

theorem length_doubled (word : Text) (n : Nat) :
    (doubled word n).length + 2 = 2 ^ n * (word.length + 2) := by
  induction n with
  | zero => simp [doubled]
  | succ n ih =>
    rw [Nat.pow_succ, Nat.mul_right_comm, ← ih]
    simp only [doubled, List.length_append, List.length_cons, List.length_nil]
    omega

theorem isTrimmed_doubled {word : Text} (h : word.IsTrimmed) (n : Nat) :
    (doubled word n).IsTrimmed := by
  induction n with
  | zero => exact h
  | succ n ih =>
    obtain ⟨c, hhead, hc⟩ := ih.head
    refine ⟨⟨c, ?_, hc⟩, ')', ?_, by decide⟩
    · rw [doubled, List.append_assoc, List.head?_append, hhead]
      rfl
    · rw [doubled, List.getLast?_concat]
      rfl

/-- Each `)` doubles what the phrase holds. -/
theorem foldl_extendPhrase_closeParen {word : Text} (h : word.IsTrimmed) (n : Nat) :
    (List.replicate n Token.closeParen).foldl Conversion.extendPhrase (word ++ [' ']) =
      doubled word n ++ [' '] := by
  induction n with
  | zero => rfl
  | succ n ih =>
    rw [List.replicate_succ', List.foldl_append, ih]
    simp [Conversion.extendPhrase, (isTrimmed_doubled h n).trim_append_space, doubled]

theorem phraseText_word_closings {word : Text} (h : word.IsTrimmed) (n : Nat) :
    phraseText (.word word :: List.replicate n .closeParen) = doubled word n := by
  have hword : Conversion.extendPhrase [] (.word word) = word ++ [' '] := rfl
  rw [phraseText, List.foldl_cons, hword, foldl_extendPhrase_closeParen h,
    (isTrimmed_doubled h n).trim_append_space]

namespace Token

/-- The tokens of a phrase of a word and `)` after it. -/
theorem ofQuery_word_closings {word : Text} (h : IsWord word) (n : Nat) :
    ofQuery ('"' :: (word ++ (List.replicate n ')' ++ ['"']))) =
      .quote :: (.word word :: List.replicate n .closeParen) ++ [.quote] := by
  have hfirst : ∀ {c : Char}, standsAlone c = true → ∀ rest : Text,
      ofQuery (c :: rest) = ofUnit [c] :: ofQuery rest :=
    fun hc rest => ofQuery_append_cons hc [] rest
  have hclosings : ofQuery (List.replicate n ')' ++ ['"']) =
      List.replicate n .closeParen ++ [.quote] := by
    induction n with
    | zero => decide
    | succ n ih =>
      rw [List.replicate_succ, List.cons_append, hfirst (by decide), ih]
      rfl
  have hhead : ∃ c ∈ (List.replicate n ')' ++ ['"']).head?, breaks c = true := by
    cases n with
    | zero => exact ⟨'"', rfl, by decide⟩
    | succ n => exact ⟨')', rfl, by decide⟩
  rw [hfirst (by decide), ofQuery_append (.inr hhead), ofQuery_word h, hclosings]
  rfl

end Token

namespace Program

/-- The program of a phrase of a word and `)` after it. -/
theorem ofQuery_word_closings {word : Text} (h : Token.IsWord word) (htrimmed : word.IsTrimmed)
    (n : Nat) :
    ofQuery ('"' :: (word ++ (List.replicate n ')' ++ ['"']))) =
      .ok [.term (Node.literal (doubled word n))] := by
  have hunquoted : .quote ∉ .word word :: List.replicate n Token.closeParen := by
    simp [List.mem_replicate]
  have hyields := Conversion.yields_phrase hunquoted
  rw [phraseText_word_closings htrimmed, if_neg (isTrimmed_doubled htrimmed n).ne_nil] at hyields
  rw [ofQuery, Token.ofQuery_word_closings h]
  exact hyields.ofTokens

/-- Enough `)` for a constant: their phrase is a word of one character that is doubled too often. -/
theorem constant_lt_doubled (k : Nat) : k * (2 * k + 4) < 2 ^ (2 * k) * 3 := by
  have hpower : (k + 1) * (k + 1) ≤ 2 ^ (2 * k) := by
    rw [Nat.two_mul, Nat.pow_add]
    exact Nat.mul_le_mul Nat.lt_two_pow_self Nat.lt_two_pow_self
  have hsquare : (k + 1) * (k + 1) = k * k + 2 * k + 1 := by
    rw [Nat.add_mul, Nat.mul_add]
    omega
  have hbound : k * (2 * k + 4) = 2 * (k * k) + 4 * k := by
    rw [Nat.mul_add, Nat.mul_left_comm, Nat.mul_comm k 4]
  omega

/-- No constant bounds the size of a program by the length of its query. -/
theorem size_not_linear :
    ¬ ∃ k, ∀ query program, ofQuery query = .ok program →
      program.size ≤ k * (query.length + 1) := by
  rintro ⟨k, hk⟩
  have hword : Token.IsWord ['a'] :=
    ⟨by decide, List.forall_mem_singleton.mpr (by decide), by decide⟩
  have hprogram := ofQuery_word_closings hword ⟨⟨'a', rfl, by decide⟩, 'a', rfl, by decide⟩ (2 * k)
  have hsize := hk _ _ hprogram
  have hterm : size [.term (Node.literal (doubled ['a'] (2 * k)))] = 2 ^ (2 * k) * 3 := by
    have hdoubled := length_doubled ['a'] (2 * k)
    rw [List.length_singleton] at hdoubled
    simp only [size, Node.size, Node.literal, List.length_append, List.length_cons,
      List.length_nil]
    omega
  rw [hterm] at hsize
  simp only [List.length_cons, List.length_append, List.length_replicate, List.length_nil] at hsize
  have hlength : 0 + 1 + (2 * k + (0 + 1)) + 1 + 1 = 2 * k + 4 := by omega
  rw [hlength] at hsize
  exact Nat.not_le_of_lt (constant_lt_doubled k) hsize

end Program

end BooleanSearch
