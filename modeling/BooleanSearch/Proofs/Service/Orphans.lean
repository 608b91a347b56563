import BooleanSearch.Proofs.Query.Grouping
import BooleanSearch.Proofs.Query.Placement
import BooleanSearch.Proofs.Query.Underflow
import BooleanSearch.Proofs.Service.Strictness

/-!
# Orphans and the text of a query

How a strict service answers a query whose parentheses are balanced can largely be told without
converting it. The program has a term for each word outside phrases and each phrase that is not
blank, and its connectives are those outside phrases, in whatever order. What is left on the stack
is their difference, so a query is compiled only if it has one term more than connectives, and is
refused for its orphans only if it has still more.
-/

namespace BooleanSearch

/-- The text of a token that is a word. -/
def Token.word? : Token → Option Text
  | .word text => some text
  | _ => none

/-- The tokens of a piece that is a phrase. -/
def Piece.phrase? : Piece → Option (List Token)
  | .plain _ => none
  | .phrase tokens => some tokens

namespace Token

/-- How many terms a query has: the words outside phrases and the phrases that are not blank. -/
def termCount (tokens : List Token) : Nat :=
  ((outside tokens).filterMap word?).length +
    ((pieces tokens).filterMap Piece.phrase?).countP fun quoted => phraseText quoted ≠ []

/-- The operators of a query that are outside phrases. -/
def operatorsOutside (tokens : List Token) : List Operator := (outside tokens).filterMap operator?

/-- How many `AND` and `OR` a query has outside phrases. -/
def connectiveCount (tokens : List Token) : Nat :=
  (operatorsOutside tokens).countP Operator.isConnective

end Token

namespace Piece

/-- A term is a word outside phrases or a phrase that is not blank. -/
theorem operandCount_eq (pieces : List Piece) :
    operandCount pieces = (pieces.filterMap fun piece => piece.token?.bind Token.word?).length +
      (pieces.filterMap phrase?).countP fun quoted => phraseText quoted ≠ [] := by
  induction pieces with
  | nil => rfl
  | cons piece pieces ih =>
    rw [operandCount_cons, ih]
    cases piece with
    | plain token =>
      cases token <;>
        simp [operandCount, List.filterMap_cons, term?, token?, Token.word?, phrase?]
      omega
    | phrase tokens =>
      by_cases hblank : phraseText tokens = []
      · simp [operandCount, term?, token?, phrase?, hblank]
      · simp [operandCount, term?, token?, phrase?, hblank]
        omega

end Piece

namespace Program

variable {query : Text} {program : Program}

/-- A program has as many terms as its query. -/
theorem length_terms_eq (h : ofQuery query = .ok program) :
    program.terms.length = Token.termCount (Token.ofQuery query) := by
  rw [length_terms_of_ofTokens h, Piece.operandCount_eq, Token.filterMap_token?_pieces rfl,
    Token.termCount]

/-- A program has as many connectives as its query. -/
theorem connectives_eq (h : ofQuery query = .ok program) :
    program.connectives = Token.connectiveCount (Token.ofQuery query) :=
  (operators_perm_of_ofTokens h).countP_eq Operator.isConnective

/-- A program without nodes is that of a query without terms and operators. -/
theorem eq_nil_iff (h : ofQuery query = .ok program) :
    program = [] ↔ Token.termCount (Token.ofQuery query) = 0 ∧
      Token.operatorsOutside (Token.ofQuery query) = [] := by
  have hperm := operators_perm_of_ofTokens h
  rw [← length_terms_eq h, Token.operatorsOutside]
  constructor
  · rintro rfl
    exact ⟨rfl, hperm.nil_eq.symm⟩
  · rintro ⟨hterms, hoperators⟩
    rw [hoperators] at hperm
    cases program with
    | nil => rfl
    | cons node rest =>
      cases node with
      | term text => cases hterms
      | operator op => cases hperm.eq_nil

end Program

namespace Service

variable {service : Service} {query : Text} {field? : Option Text}

/-- What a strict service can answer to tokens whose parentheses are balanced. -/
inductive StrictAnswer (field : Text) (tokens : List Token) : Except ServiceError Text → Prop
  /-- An operator finds too few operands. -/
  | underflow (op : Operator) (available : Nat) (hoperators : Token.operatorsOutside tokens ≠ []) :
    StrictAnswer field tokens (.error (.query (.underflow op op.arity available)))
  /-- Some operands are joined to no other one. -/
  | orphans (count : Nat) (hpos : 1 ≤ count)
    (hcount : Token.termCount tokens = Token.connectiveCount tokens + 1 + count) :
    StrictAnswer field tokens (.error (.orphans count))
  /-- All operands are joined. -/
  | text (text : Text) (hcount : Token.termCount tokens = Token.connectiveCount tokens + 1) :
    StrictAnswer field tokens (.ok text)
  /-- There is nothing to find. -/
  | everything (hterms : Token.termCount tokens = 0)
    (hoperators : Token.operatorsOutside tokens = []) :
    StrictAnswer field tokens (.ok (Target.everything field))

/-- The count of operands decides how a strict service answers. -/
theorem strictAnswer_compile (hbalanced : Token.Balanced (Token.ofQuery query))
    (hstrict : service.config.strict = true)
    (hfield : isField (field?.getD service.config.field) = true) :
    StrictAnswer (field?.getD service.config.field) (Token.ofQuery query)
      (service.compile query field?) := by
  obtain ⟨program, hquery⟩ := Program.balanced_iff.mp hbalanced
  have hterms := Program.length_terms_eq hquery
  have hconnectives := Program.connectives_eq hquery
  rw [compile_of_strict hstrict hfield hquery]
  cases hdepth : program.depth 0 with
  | error fault =>
    obtain ⟨before, op, after, available, rfl, -, -, rfl⟩ :=
      Program.exists_underflow_of_depth hdepth
    rw [Program.orphans_eq_error_iff.mpr hdepth]
    refine .underflow op available ?_
    intro hnil
    have hperm := Program.operators_perm_of_ofTokens hquery
    rw [← Token.operatorsOutside, hnil, Program.operators_append] at hperm
    simpa [Program.operators, Node.operator?] using hperm.eq_nil
  | ok left =>
    have hbalance := Program.depth_balance hdepth
    have horphans : program.orphans = .ok (left - 1) := by
      rw [Program.orphans, hdepth]
      rfl
    rw [horphans]
    rcases left with _ | _ | count
    · have hnil : program = [] := by
        cases program with
        | nil => rfl
        | cons node rest =>
          have hpos := Program.depth_pos_of_ne_nil (List.cons_ne_nil node rest) hdepth
          exact absurd hpos (Nat.lt_irrefl 0)
      obtain ⟨hnone, hoperators⟩ := (Program.eq_nil_iff hquery).mp hnil
      subst hnil
      exact .everything hnone hoperators
    · cases hrender : program.render (field?.getD service.config.field) with
      | error fault =>
        rw [Program.render_eq_error_iff.mp hrender] at horphans
        cases horphans
      | ok text => exact .text text (by omega)
    · exact .orphans (count + 1) (Nat.le_add_left 1 count) (by omega)

/-- The text of a query with balanced parentheses tells what a strict service can answer. The query
is compiled only if it has one term more than connectives, or if it has neither terms nor operators
outside phrases, and then it is compiled to the text that finds everything. It is refused for its
orphans only if it has more terms, and then for as many as there are more. With an operator outside
phrases and no more terms than connectives, an operator always finds too few operands. The service
has no other fault. -/
theorem compile_strict_counts (hbalanced : Token.Balanced (Token.ofQuery query))
    (hstrict : service.config.strict = true)
    (hfield : isField (field?.getD service.config.field) = true) :
    let terms := Token.termCount (Token.ofQuery query)
    let connectives := Token.connectiveCount (Token.ofQuery query)
    let operators := Token.operatorsOutside (Token.ofQuery query)
    let everything := Target.everything (field?.getD service.config.field)
    (∀ text, service.compile query field? = .ok text →
      terms = connectives + 1 ∨ terms = 0 ∧ operators = [] ∧ text = everything) ∧
    (terms = 0 → operators = [] → service.compile query field? = .ok everything) ∧
    (∀ count, service.compile query field? = .error (.orphans count) →
      1 ≤ count ∧ terms = connectives + 1 + count) ∧
    (operators ≠ [] → terms ≤ connectives → ∃ op available,
      service.compile query field? = .error (.query (.underflow op op.arity available))) ∧
    ∀ fault, service.compile query field? = .error fault →
      (∃ count, fault = .orphans count) ∨
        ∃ op available, fault = .query (.underflow op op.arity available) := by
  intro terms connectives operators everything
  have hanswer := strictAnswer_compile hbalanced hstrict hfield
  generalize service.compile query field? = answer at hanswer ⊢
  refine ⟨?_, ?_, ?_, ?_, ?_⟩
  · intro text htext
    rw [htext] at hanswer
    cases hanswer with
    | text _ hcount => exact .inl hcount
    | everything hterms hoperators => exact .inr ⟨hterms, hoperators, rfl⟩
  · intro hterms hoperators
    cases hanswer with
    | underflow op available hne => exact absurd hoperators hne
    | orphans count hpos hcount => omega
    | text text hcount => omega
    | everything => rfl
  · intro count horphans
    rw [horphans] at hanswer
    cases hanswer with
    | orphans _ hpos hcount => exact ⟨hpos, hcount⟩
  · intro hoperators hle
    cases hanswer with
    | underflow op available => exact ⟨op, available, rfl⟩
    | orphans count hpos hcount => omega
    | text text hcount => omega
    | everything hterms hnone => exact absurd hnone hoperators
  · intro fault hfault
    rw [hfault] at hanswer
    cases hanswer with
    | underflow op available => exact .inr ⟨op, available, rfl⟩
    | orphans count => exact .inl ⟨count, rfl⟩

/-- An orphan among misplaced operators and phrases of which one is blank, and a query in which the
last connective finds one operand. -/
theorem compile_strict_counts_misplaced :
    let orphaned := "plum NOT OR \"red AND )\" (AND pear*) \" \" \"apple".toList
    let short := "AND (plum OR \" OR \") NOT \"\"".toList
    let strict : Service := ⟨{ field := "title".toList, strict := true }⟩
    Token.Balanced (Token.ofQuery orphaned) ∧ Token.Balanced (Token.ofQuery short) ∧
      isField "title".toList = true ∧
      strict.compile orphaned none = .error (.orphans 1) ∧
      Token.termCount (Token.ofQuery orphaned) =
        Token.connectiveCount (Token.ofQuery orphaned) + 1 + 1 ∧
      Token.termCount (Token.ofQuery short) ≤ Token.connectiveCount (Token.ofQuery short) ∧
      ∃ op available,
        strict.compile short none = .error (.query (.underflow op op.arity available)) := by
  intro orphaned short strict
  have horphaned : Token.Balanced (Token.ofQuery orphaned) := Program.balanced_iff.mpr ⟨_, rfl⟩
  have hshort : Token.Balanced (Token.ofQuery short) := Program.balanced_iff.mpr ⟨_, rfl⟩
  have hfield : isField "title".toList = true := by decide
  have hanswer : strict.compile orphaned none = .error (.orphans 1) := rfl
  have hle : Token.termCount (Token.ofQuery short) ≤ Token.connectiveCount (Token.ofQuery short) :=
    by decide
  obtain ⟨-, -, hmore, -, -⟩ := @compile_strict_counts strict orphaned none horphaned rfl hfield
  obtain ⟨-, -, -, hless, -⟩ := @compile_strict_counts strict short none hshort rfl hfield
  exact ⟨horphaned, hshort, hfield, hanswer, (hmore 1 hanswer).2, hle, hless (by decide) hle⟩

end Service

end BooleanSearch
