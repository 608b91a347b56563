import BooleanSearch.Command.Basic
import BooleanSearch.Proofs.Query.Conservation
import BooleanSearch.Proofs.Query.Tokens
import BooleanSearch.Proofs.Text.Quoted
import BooleanSearch.Proofs.Text.Trim

/-!
# Listings

A program and the tokens of a query are listed one on each line. A node is listed as it is: that
its line is one line hangs on what a term can hold, and that is no white space but the spaces that
a phrase sets between its words. The word of a token may hold any character that cuts no query, and
is quoted. So a listing tells what it lists.
-/

namespace BooleanSearch

namespace Text

/-- The lines of a text. The last one may end without a line feed. -/
def lines : Text → List Text
  | [] => []
  | c :: rest =>
    if c = '\n' then [] :: lines rest
    else match lines rest with
      | [] => [[c]]
      | line :: more => (c :: line) :: more

/-- A text that is one line of a listing. -/
structure IsLine (line : Text) : Prop where
  nonempty : line ≠ []
  unbroken : '\n' ∉ line

theorem lines_append_newline {line : Text} (h : '\n' ∉ line) (rest : Text) :
    lines (line ++ '\n' :: rest) = line :: lines rest := by
  induction line with
  | nil => rfl
  | cons c line ih =>
    rw [List.mem_cons, not_or] at h
    have hc : ¬ c = '\n' := fun heq => h.1 heq.symm
    rw [List.cons_append, lines, if_neg hc, ih h.2]

theorem IsLine.lines_eq {line : Text} (h : IsLine line) : lines line = [line] := by
  obtain ⟨hne, hunbroken⟩ := h
  induction line with
  | nil => exact absurd rfl hne
  | cons c line ih =>
    rw [List.mem_cons, not_or] at hunbroken
    have hc : ¬ c = '\n' := fun heq => hunbroken.1 heq.symm
    rw [lines, if_neg hc]
    by_cases hline : line = []
    · subst hline
      rfl
    · rw [ih hline hunbroken.2]

/-- Lines with a line feed between any two of them are read back. -/
theorem lines_intercalate {ls : List Text} (h : ∀ line ∈ ls, IsLine line) :
    lines (['\n'].intercalate ls) = ls := by
  induction ls with
  | nil => rfl
  | cons line ls ih =>
    have hline := h line List.mem_cons_self
    have hrest := ih fun other hmem => h other (List.mem_cons_of_mem line hmem)
    cases ls with
    | nil => simpa using hline.lines_eq
    | cons next ls =>
      rw [List.intercalate_cons_cons, List.append_assoc, List.singleton_append,
        lines_append_newline hline.unbroken, hrest]

/-- So are lines with a line feed after each. -/
theorem lines_flatMap {ls : List Text} (h : ∀ line ∈ ls, IsLine line) :
    lines (ls.flatMap (· ++ ['\n'])) = ls := by
  induction ls with
  | nil => rfl
  | cons line ls ih =>
    have hrest := ih fun other hmem => h other (List.mem_cons_of_mem line hmem)
    rw [List.flatMap_cons, List.append_assoc, List.singleton_append,
      lines_append_newline (h line List.mem_cons_self).unbroken, hrest]

theorem count_newline_flatMap {ls : List Text} (h : ∀ line ∈ ls, IsLine line) :
    (ls.flatMap (· ++ ['\n'])).count '\n' = ls.length := by
  induction ls with
  | nil => rfl
  | cons line ls ih =>
    have hrest := ih fun other hmem => h other (List.mem_cons_of_mem line hmem)
    have hline := List.count_eq_zero.mpr (h line List.mem_cons_self).unbroken
    rw [List.flatMap_cons, List.count_append, List.count_append, hrest, hline]
    simp [Nat.add_comm]

end Text

namespace Conversion

theorem of_mem_extendPhrase {phrase : Text} {token : Token} {c : Char}
    (h : c ∈ extendPhrase phrase token) : c ∈ phrase ∨ c = ' ' ∨ c ∈ token.text := by
  cases token with
  | openParen =>
    rw [extendPhrase, List.mem_append] at h
    exact h.imp_right .inr
  | closeParen =>
    simp only [extendPhrase, List.mem_append, List.mem_cons, List.not_mem_nil, or_false] at h
    rcases h with (hphrase | htrim) | rfl | hspace
    · exact .inl hphrase
    · exact .inl ((Text.trim_sublist phrase).subset htrim)
    · exact .inr (.inr List.mem_cons_self)
    · exact .inr (.inl hspace)
  | quote => exact .inl h
  | operator op | word word =>
    simp only [extendPhrase, List.mem_append, List.mem_singleton] at h
    rcases h with (hphrase | htext) | hspace
    · exact .inl hphrase
    · exact .inr (.inr htext)
    · exact .inr (.inl hspace)

theorem of_mem_foldl_extendPhrase {tokens : List Token} {phrase : Text} {c : Char}
    (h : c ∈ tokens.foldl extendPhrase phrase) :
    c ∈ phrase ∨ c = ' ' ∨ ∃ token ∈ tokens, c ∈ token.text := by
  induction tokens generalizing phrase with
  | nil => exact .inl h
  | cons token tokens ih =>
    rw [List.foldl_cons] at h
    rcases ih h with hextended | hspace | ⟨other, hother, hc⟩
    · rcases of_mem_extendPhrase hextended with hphrase | hspace | htoken
      · exact .inl hphrase
      · exact .inr (.inl hspace)
      · exact .inr (.inr ⟨token, List.mem_cons_self, htoken⟩)
    · exact .inr (.inl hspace)
    · exact .inr (.inr ⟨other, List.mem_cons_of_mem token hother, hc⟩)

end Conversion

/-- What the term of a piece holds are the characters of its tokens, spaces and quotes. -/
theorem Piece.of_mem_term {piece : Piece} {text : Text} {c : Char}
    (h : piece.term? = some (.term text)) (hc : c ∈ text) :
    c = ' ' ∨ c = '"' ∨ ∃ token ∈ piece.tokens, c ∈ token.text := by
  have hliteral : ∀ {inner : Text}, c ∈ Node.literal inner → c = '"' ∨ c ∈ inner := by
    intro inner hmem
    simpa [Node.literal, or_comm, or_assoc] using hmem
  cases piece with
  | plain token =>
    cases token with
    | openParen | closeParen | quote | operator op => cases h
    | word word =>
      have hword : c = '"' ∨ c ∈ word := by
        simp only [term?, Node.ofWord, Option.some.injEq] at h
        split at h
        · cases h
          exact .inr hc
        · cases h
          exact hliteral hc
      rcases hword with hquote | hmem
      · exact .inr (.inl hquote)
      · exact .inr (.inr ⟨.word word, List.mem_cons_self, hmem⟩)
  | phrase tokens =>
    rw [term?] at h
    split at h
    · cases h
    · cases h
      rcases hliteral hc with hquote | hmem
      · exact .inr (.inl hquote)
      · rcases Conversion.of_mem_foldl_extendPhrase ((Text.trim_sublist _).subset hmem) with
          hnil | hspace | htoken
        · cases hnil
        · exact .inl hspace
        · exact .inr (.inr htoken)

namespace Program

/-- The characters of a term are those of the query, spaces and quotes; and no separator of the
query gets into a term. -/
theorem of_mem_term {query : Text} {program : Program} {text : Text} {c : Char}
    (h : ofQuery query = .ok program) (hterm : .term text ∈ program) (hc : c ∈ text) :
    c = ' ' ∨ c = '"' ∨ c ∈ query ∧ Text.isSeparator c = false := by
  have hmem : .term text ∈ program.terms := List.mem_filter.mpr ⟨hterm, rfl⟩
  rw [terms_of_ofTokens h] at hmem
  obtain ⟨piece, hpiece, hnode⟩ := List.mem_filterMap.mp hmem
  rcases Piece.of_mem_term hnode hc with hspace | hquote | ⟨token, htoken, hchar⟩
  · exact .inl hspace
  · exact .inr (.inl hquote)
  · have hread : token ∈ (Token.pieces (Token.ofQuery query)).flatMap Piece.tokens :=
      List.mem_flatMap.mpr ⟨piece, hpiece, htoken⟩
    rw [Token.flatMap_tokens_pieces] at hread
    exact .inr (.inr (Token.of_mem_text (List.mem_of_mem_filter hread) hchar))

end Program

namespace Node

theorem line_term (text : Text) :
    (term text).line = 'T' :: 'E' :: 'R' :: 'M' :: ' ' :: text := rfl

theorem line_operator (op : Operator) :
    (operator op).line = 'O' :: 'P' :: ' ' :: op.keyword := rfl

theorem line_injective {node node' : Node} (h : node.line = node'.line) : node = node' := by
  cases node with
  | term text =>
    cases node' with
    | term text' =>
      simp only [line_term, List.cons.injEq, true_and] at h
      rw [h]
    | operator op => cases h
  | operator op =>
    cases node' with
    | term text => cases h
    | operator op' =>
      simp only [line_operator, List.cons.injEq, true_and] at h
      have hread := Operator.ofKeyword?_keyword op
      rw [h, Operator.ofKeyword?_keyword] at hread
      rw [Option.some.inj hread]

/-- Each node of the program of a query is listed on one line. -/
theorem isLine_of_mem {query : Text} {program : Program} {node : Node}
    (h : Program.ofQuery query = .ok program) (hnode : node ∈ program) : node.line.IsLine := by
  cases node with
  | operator op => cases op <;> exact ⟨nofun, by decide⟩
  | term text =>
    have htext : '\n' ∉ text := by
      intro hmem
      rcases Program.of_mem_term h hnode hmem with heq | heq | ⟨-, hkept⟩
      · cases heq
      · cases heq
      · cases hkept
    rw [line_term]
    exact ⟨List.cons_ne_nil _ _, by simpa using htext⟩

end Node

namespace Token

/-- The character with which the line of a token begins. -/
def initial : Token → Char
  | .openParen => 'L'
  | .closeParen => 'R'
  | .quote => 'Q'
  | .operator _ => 'O'
  | .word _ => 'W'

theorem line_word (text : Text) :
    (word text).line = 'W' :: 'o' :: 'r' :: 'd' :: '(' :: (Text.quoted text ++ [')']) := rfl

theorem head?_line (token : Token) : token.line.head? = some token.initial := by
  cases token with
  | word text => rw [line_word, List.head?_cons, initial]
  | operator op => cases op <;> rfl
  | openParen | closeParen | quote => rfl

theorem line_injective {token token' : Token} (h : token.line = token'.line) :
    token = token' := by
  have hinitial : token.initial = token'.initial := by
    apply Option.some.inj
    rw [← head?_line, h, head?_line]
  cases token with
  | word text =>
    cases token' with
    | word text' =>
      simp only [line_word, List.cons.injEq, true_and] at h
      rw [(Text.quoted_append_inj h).1]
    | openParen | closeParen | quote | operator op => cases hinitial
  | operator op =>
    cases token' with
    | operator op' => cases op <;> cases op' <;> first | rfl | exact absurd h (by decide)
    | openParen | closeParen | quote | word text => cases hinitial
  | openParen | closeParen | quote =>
    cases token' with
    | openParen | closeParen | quote | word text | operator op => first | rfl | cases hinitial

/-- Each token is listed on one line, whatever the word that it may be. -/
theorem isLine_line (token : Token) : token.line.IsLine := by
  cases token with
  | openParen | closeParen | quote => exact ⟨nofun, by decide⟩
  | operator op => cases op <;> exact ⟨nofun, by decide⟩
  | word text =>
    rw [line_word]
    exact ⟨List.cons_ne_nil _ _, by simp [Text.newline_notMem_quoted]⟩

end Token

namespace Command

/-- Lines that are printed with a line feed between any two of them are printed with one after
each. -/
theorem printedLine_intercalate {ls : List Text} (h : ∀ line ∈ ls, Text.IsLine line) :
    printedLine (['\n'].intercalate ls) = ls.flatMap (· ++ ['\n']) := by
  have hended : ∀ line more, ['\n'].intercalate (line :: more) ++ ['\n'] =
      (line :: more).flatMap (· ++ ['\n']) := by
    intro line more
    induction more generalizing line with
    | nil => simp
    | cons next more ih =>
      rw [List.intercalate_cons_cons, List.append_assoc, ih next]
      rfl
  cases ls with
  | nil => rfl
  | cons line more =>
    have hne : ['\n'].intercalate (line :: more) ≠ [] := by
      have hline := (h line List.mem_cons_self).nonempty
      cases more with
      | nil => simpa using hline
      | cons next more => simp [List.intercalate_cons_cons]
    rw [printedLine, if_neg (by simpa using hne), hended]

/-- A listing of items, each on a line of its own, has these lines, printed or not; and it tells
what is listed if the line of an item tells the item. -/
theorem listing_faithful {α : Type} {line : α → Text} (hinjective : Function.Injective line)
    {items items' : List α} (h : ∀ item ∈ items, (line item).IsLine)
    (h' : ∀ item ∈ items', (line item).IsLine) :
    Text.lines (['\n'].intercalate (items.map line)) = items.map line ∧
      Text.lines (printedLine (['\n'].intercalate (items.map line))) = items.map line ∧
      (printedLine (['\n'].intercalate (items.map line))).count '\n' = items.length ∧
      (printedLine (['\n'].intercalate (items'.map line)) =
        printedLine (['\n'].intercalate (items.map line)) → items' = items) := by
  have hlines : ∀ l ∈ items.map line, Text.IsLine l := List.forall_mem_map.mpr h
  have hlines' : ∀ l ∈ items'.map line, Text.IsLine l := List.forall_mem_map.mpr h'
  rw [printedLine_intercalate hlines, printedLine_intercalate hlines']
  refine ⟨Text.lines_intercalate hlines, Text.lines_flatMap hlines, ?_, ?_⟩
  · rw [Text.count_newline_flatMap hlines, List.length_map]
  · intro heq
    apply List.map_injective_iff.mpr hinjective
    rw [← Text.lines_flatMap hlines', heq, Text.lines_flatMap hlines]

/-- The listing of the program of a query. -/
theorem programText_listing (config : Config) {query : Text} {program : Program}
    (h : Program.ofQuery query = .ok program) :
    programText ⟨config⟩ query false = .ok (Node.listing program) ∧
      run config (.program query false) = .ok (.printed (printedLine (Node.listing program))) := by
  have htext : programText ⟨config⟩ query false = .ok (Node.listing program) := by
    rw [programText, Service.program, h]
    rfl
  exact ⟨htext, by rw [run, htext]; rfl⟩

/-- The listings of programs and of tokens are faithful: a listing has one line for each node or
token, each ended by a line feed when it is printed, and it tells what was listed. -/
theorem listings_faithful (config config' : Config) (query query' : Text) :
    (∀ program program', Program.ofQuery query = .ok program →
      Program.ofQuery query' = .ok program' →
      ∃ listing printed,
        programText ⟨config⟩ query false = .ok listing ∧
        run config (.program query false) = .ok (.printed printed) ∧
        Text.lines listing = program.map Node.line ∧
        Text.lines printed = program.map Node.line ∧
        printed.count '\n' = program.length ∧
        (programText ⟨config'⟩ query' false = .ok listing → program' = program) ∧
        (run config' (.program query' false) = .ok (.printed printed) → program' = program)) ∧
    ∃ listing printed,
      tokensText ⟨config⟩ query = listing ∧
      run config (.tokens query) = .ok (.printed printed) ∧
      Text.lines listing = (Token.ofQuery query).map Token.line ∧
      Text.lines printed = (Token.ofQuery query).map Token.line ∧
      printed.count '\n' = (Token.ofQuery query).length ∧
      (tokensText ⟨config'⟩ query' = listing → Token.ofQuery query' = Token.ofQuery query) ∧
      (run config' (.tokens query') = .ok (.printed printed) →
        Token.ofQuery query' = Token.ofQuery query) := by
  constructor
  · intro program program' h h'
    obtain ⟨htext, hrun⟩ := programText_listing config h
    obtain ⟨htext', hrun'⟩ := programText_listing config' h'
    obtain ⟨hlisted, hprinted, hcount, hsame⟩ := listing_faithful
      (fun _ _ => Node.line_injective) (fun _ => Node.isLine_of_mem h)
      (fun _ => Node.isLine_of_mem h')
    refine ⟨_, _, htext, hrun, hlisted, hprinted, hcount, ?_, ?_⟩
    · intro heq
      rw [htext'] at heq
      exact hsame (congrArg printedLine (Except.ok.inj heq))
    · intro heq
      rw [hrun'] at heq
      exact hsame (Outcome.printed.inj (Except.ok.inj heq))
  · have hline : ∀ query, ∀ token ∈ Token.ofQuery query, token.line.IsLine := by
      intro query token _
      exact token.isLine_line
    obtain ⟨hlisted, hprinted, hcount, hsame⟩ := listing_faithful
      (fun _ _ => Token.line_injective) (hline query) (hline query')
    refine ⟨_, _, rfl, rfl, hlisted, hprinted, hcount, ?_, ?_⟩
    · intro heq
      exact hsame (congrArg printedLine heq)
    · intro heq
      exact hsame (Outcome.printed.inj (Except.ok.inj heq))

/-- A phrase and a word with a vertical tab, two line breaks that are no line feeds, a backslash and
a combining character; the other query has the same tokens. -/
theorem listings_faithful_line_breaks :
    let query := "\"a\u0085 \x0bb\" NOT \\\u2028e\u0301".toList
    let query' := "\t\"  a\u0085\n\x0bb\"NOT \\\u2028e\u0301 ".toList
    let program : Program := [.term "\"a\u0085 \x0bb\"".toList,
      .term "\"\\\u2028e\u0301\"".toList, .operator .not]
    let printed := ("Quote\nWord(\"a\\u\x7b85\x7d\")\nWord(\"\\u\x7bb\x7db\")\nQuote\n".toList ++
      "Operator(Not)\nWord(\"\\\\\\u\x7b2028\x7de\\u\x7b301\x7d\")\n".toList)
    Program.ofQuery query = .ok program ∧ Program.ofQuery query' = .ok program ∧
      (∃ text, run {} (.program query false) = .ok (.printed text) ∧ text.count '\n' = 3) ∧
      run {} (.tokens query') = .ok (.printed printed) ∧
      Text.lines printed = (Token.ofQuery query).map Token.line ∧
      Token.ofQuery query' = Token.ofQuery query := by
  intro query query' program printed
  have hquery : Program.ofQuery query = .ok program := rfl
  have hquery' : Program.ofQuery query' = .ok program := rfl
  have hprinted : run {} (.tokens query) = .ok (.printed printed) := by
    have htext : printedLine (tokensText ⟨{}⟩ query) = printed := by decide +kernel
    rw [run, htext]
  have hprinted' : run {} (.tokens query') = .ok (.printed printed) := by
    have htext : printedLine (tokensText ⟨{}⟩ query') = printed := by decide +kernel
    rw [run, htext]
  obtain ⟨hprogram, -, text, -, hrun, -, hlines, -, -, hsame⟩ :=
    listings_faithful {} {} query query'
  have htext : printed = text := by
    rw [hprinted] at hrun
    exact Outcome.printed.inj (Except.ok.inj hrun)
  refine ⟨hquery, hquery', ?_, hprinted', ?_, ?_⟩
  · obtain ⟨_, text, -, hrun, -, -, hcount, -, -⟩ := hprogram program program hquery hquery'
    exact ⟨text, hrun, hcount⟩
  · rw [htext, hlines]
  · apply hsame
    rw [hprinted', htext]

end Command

end BooleanSearch
