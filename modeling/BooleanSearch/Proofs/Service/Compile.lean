import BooleanSearch.Proofs.Query.Precedence
import BooleanSearch.Proofs.Result
import BooleanSearch.Proofs.Target.Faithful
import BooleanSearch.Service.Basic

/-!
# Compiled queries

What the service answers, whatever its configuration. A query in the infix grammar is compiled to a
text with one reading, and that reading means what the query means. Any query that is compiled at
all is compiled to a text of the target language, in which no double negation begins a part.
-/

namespace BooleanSearch.Service

/-- A text is compiled for a field name only, and is the rendering of the query's program. -/
theorem of_compile_eq_ok {service : Service} {query text : Text} {field? : Option Text}
    (h : service.compile query field? = .ok text) :
    isField (field?.getD service.config.field) = true ∧ ∃ program,
      Program.ofQuery query = .ok program ∧
      program.render (field?.getD service.config.field) = .ok text := by
  rw [compile] at h
  generalize field?.getD service.config.field = field at h ⊢
  cases hfield : isField field with
  | false =>
    simp only [hfield] at h
    cases h
  | true =>
    simp only [hfield] at h
    obtain ⟨program, hprogram, h⟩ := exists_of_bind_eq_ok h
    refine ⟨rfl, program, of_mapError_eq_ok hprogram, ?_⟩
    apply of_mapError_eq_ok (f := ServiceError.query)
    split at h
    · obtain ⟨orphans, -, h⟩ := exists_of_bind_eq_ok h
      split at h
      · cases h
      · exact h
    · exact h

/-- A program without orphans is rendered in either mode. -/
theorem compile_of_orphans_eq_zero (service : Service) {query field text : Text}
    {program : Program} (hfield : isField field = true)
    (hquery : Program.ofQuery query = .ok program) (horphans : program.orphans = .ok 0)
    (hrender : program.render field = .ok text) :
    service.compile query (some field) = .ok text := by
  have hprogram : service.program query = .ok program := by
    rw [Service.program, hquery]
    rfl
  have htext : (program.render field).mapError ServiceError.query = .ok text := by
    rw [hrender]
    rfl
  have hcount : program.orphans.mapError ServiceError.query = .ok 0 := by
    rw [horphans]
    rfl
  cases hstrict : service.config.strict <;>
    simp [compile, hfield, hprogram, hstrict, hcount, htext, bind, Except.bind]

/-- Compiling preserves the meaning of a query: a query in the infix grammar is compiled for every
field name and in either mode, to a text that has exactly one reading, and the reading has the
truth value of the query under every assignment of truth values to terms. -/
theorem compile_preserves_meaning (service : Service) (e : Infix .or) {query field : Text}
    (hquery : Token.ofQuery query = e.tokens) (hfield : isField field = true) :
    ∃ text, service.compile query (some field) = .ok text ∧
      ∃ reading : Expression, reading.Reads field text ∧
        (∀ other : Expression, other.Reads field text → other = reading) ∧
        ∀ assignment, reading.eval assignment = e.expression.eval assignment := by
  have hprogram : Program.ofQuery query = .ok e.expression.program := by
    rw [Program.ofQuery, hquery, Infix.ofTokens_tokens, Infix.settled_append_waiting]
  have hproper : e.expression.Proper :=
    (Program.proper_program_iff e.expression).mp (Program.proper_of_ofQuery hprogram)
  have hreads : e.expression.reduce.mirror.Reads field (e.expression.rendering field) :=
    ⟨hproper.reduce.mirror, rfl⟩
  refine ⟨e.expression.rendering field, ?_, e.expression.reduce.mirror, hreads, ?_, ?_⟩
  · exact compile_of_orphans_eq_zero service hfield hprogram
      (Program.orphans_program e.expression)
      (Program.render_program (head?_ne_of_isField hfield) e.expression)
  · intro other hother
    exact hother.unique hfield hreads
  · intro assignment
    rw [Expression.eval_mirror, Expression.eval_reduce]

/-- The derivation of `NOT (pear* OR "red OR )") AND NOT NOT plum`. -/
def negatedGroup : Infix .or :=
  .ofAnd (.and
    (.ofNot (.not (.ofAtom (.group (.or
      (.ofAnd (.ofNot (.ofAtom (.word "pear*".toList))))
      (.ofNot (.ofAtom (.phrase
        ⟨[.word "red".toList, .operator .or, .closeParen], by decide, by decide⟩))))))))
    (.not (.not (.ofAtom (.word "plum".toList)))))

theorem compile_preserves_meaning_negatedGroup :
    Token.ofQuery "NOT (pear* OR \"red OR )\") AND NOT NOT plum".toList = negatedGroup.tokens ∧
    isField "meta.title".toList = true ∧
    ∃ text, compile ⟨{ strict := true }⟩
        "NOT (pear* OR \"red OR )\") AND NOT NOT plum".toList (some "meta.title".toList) =
          .ok text ∧
      ∃ reading : Expression, reading.Reads "meta.title".toList text ∧
        (∀ other : Expression, other.Reads "meta.title".toList text → other = reading) ∧
        ∀ assignment, reading.eval assignment = negatedGroup.expression.eval assignment :=
  ⟨by decide, by decide,
    compile_preserves_meaning ⟨{ strict := true }⟩ negatedGroup (by decide) (by decide)⟩

/-- No query breaks out of its terms: whatever is compiled, of whatever query, is the text that
finds everything or has a reading in which no `NOT` stands directly under another one; so no part
of it begins with `--`. -/
theorem compile_confined (service : Service) (query : Text) (field? : Option Text) {text : Text}
    (h : service.compile query field? = .ok text) :
    isField (field?.getD service.config.field) = true ∧
      (text = field?.getD service.config.field ++ [':', '*'] ∨
        ∃ reading : Expression, reading.Reads (field?.getD service.config.field) text ∧
          reading.Normal ∧ ∀ part ∈ reading.parts,
            ¬ ['-', '-'] <+: part.write (field?.getD service.config.field)) := by
  obtain ⟨hfield, program, hprogram, hrender⟩ := of_compile_eq_ok h
  have hhead := head?_ne_of_isField hfield
  rw [Program.render_eq_build hhead] at hrender
  refine ⟨hfield, ?_⟩
  cases hbuild : program.build [] with
  | error fault => rw [hbuild] at hrender; cases hrender
  | ok stack =>
    rw [hbuild] at hrender
    cases stack with
    | nil => cases hrender; exact .inl rfl
    | cons e stack =>
      have hproper : e.Proper := Program.proper_of_mem_build hbuild
        (Program.proper_of_ofQuery hprogram) List.mem_cons_self
      have hnormal := Expression.normal_mirror (Expression.normal_reduce e)
      cases hrender
      refine .inr ⟨e.reduce.mirror, ⟨hproper.reduce.mirror, rfl⟩, hnormal, ?_⟩
      intro part hpart
      exact (hnormal.of_mem_parts hpart).not_prefix_write hhead

/-- A query with an orphan, parentheses in a phrase and no closing quote. -/
theorem compile_confined_open_phrase :
    compile ⟨{}⟩ "plum NOT pear* \" ( red ) AND".toList none =
      .ok "-text:\"(red (red) AND\"".toList ∧
    isField "text".toList = true ∧
      ("-text:\"(red (red) AND\"".toList = "text".toList ++ [':', '*'] ∨
        ∃ reading : Expression,
          reading.Reads "text".toList "-text:\"(red (red) AND\"".toList ∧
          reading.Normal ∧ ∀ part ∈ reading.parts, ¬ ['-', '-'] <+: part.write "text".toList) :=
  ⟨rfl, compile_confined ⟨{}⟩ "plum NOT pear* \" ( red ) AND".toList none rfl⟩

end BooleanSearch.Service
