import BooleanSearch.Proofs.Query.Depth
import BooleanSearch.Proofs.Result
import BooleanSearch.Service.Basic

/-!
# Strictness

In strict mode the operands of a program are counted before it is rendered. The count fails where
rendering would, with the same fault, and else tells how many texts rendering would leave besides
the one that it returns. So a strict service answers as one that is not strict does, but that it
refuses the queries of which something would be dropped.
-/

namespace BooleanSearch

namespace Service

variable {service : Service} {query : Text} {field? : Option Text}

theorem compile_of_not_isField (h : isField (field?.getD service.config.field) = false) :
    service.compile query field? = .error (.field (field?.getD service.config.field)) := by
  rw [compile]
  simp only [h]
  rfl

/-- A service that is not strict gives the text of the query or the fault of the query. -/
theorem compile_of_not_strict (hstrict : service.config.strict = false)
    (hfield : isField (field?.getD service.config.field) = true) :
    service.compile query field? =
      (Program.ofQuery query >>= Program.render (field?.getD service.config.field)).mapError
        .query := by
  rw [compile, Service.program]
  simp only [hfield, hstrict]
  cases Program.ofQuery query <;> rfl

theorem compile_of_ofQuery_eq_error {fault : QueryError}
    (hfield : isField (field?.getD service.config.field) = true)
    (hquery : Program.ofQuery query = .error fault) :
    service.compile query field? = .error (.query fault) := by
  rw [compile, Service.program]
  simp only [hfield, hquery]
  rfl

/-- A strict service looks at the orphans of the program first. -/
theorem compile_of_strict {program : Program} (hstrict : service.config.strict = true)
    (hfield : isField (field?.getD service.config.field) = true)
    (hquery : Program.ofQuery query = .ok program) :
    service.compile query field? =
      match program.orphans with
      | .error fault => .error (.query fault)
      | .ok orphans => if 0 < orphans then .error (.orphans orphans)
        else (program.render (field?.getD service.config.field)).mapError .query := by
  have hprogram : service.program query = .ok program := by
    rw [Service.program, hquery]
    rfl
  cases horphans : program.orphans with
  | error fault =>
    have hcount : program.orphans.mapError ServiceError.query = .error (.query fault) := by
      rw [horphans]
      rfl
    simp [compile, hfield, hstrict, hprogram, hcount, bind, Except.bind]
  | ok orphans =>
    have hcount : program.orphans.mapError ServiceError.query = .ok orphans := by
      rw [horphans]
      rfl
    by_cases hpos : 0 < orphans
    · simp [compile, hfield, hstrict, hprogram, hcount, hpos, bind, Except.bind, throw,
        throwThe, MonadExceptOf.throw]
    · simp [compile, hfield, hstrict, hprogram, hcount, hpos, bind, Except.bind]

/-- A strict service is one that is not strict and refuses the queries of which it would drop
something. Both refuse a field that is no field name, whatever the query. For a field name the
service that is not strict gives the text of the query or the fault of the query; the strict one
gives the same but where more than one text is on the stack when the program ends, and then it gives
the number of the others. -/
theorem compile_strict_filters (config : Config) (query : Text) (field? : Option Text) :
    let field := field?.getD config.field
    let lenient := compile ⟨{ config with strict := false }⟩ query field?
    let strict := compile ⟨{ config with strict := true }⟩ query field?
    let operands := Program.ofQuery query >>= fun program => program.operands field []
    (isField field = false → lenient = .error (.field field) ∧ strict = .error (.field field)) ∧
    (isField field = true →
      lenient = (Program.ofQuery query >>= Program.render field).mapError .query ∧
      (∀ fault, operands = .error fault →
        lenient = .error (.query fault) ∧ strict = .error (.query fault)) ∧
      ∀ stack, operands = .ok stack →
        lenient = .ok (stack.headD (Target.everything field)) ∧
        strict = if 1 < stack.length then .error (.orphans (stack.length - 1)) else lenient) := by
  intro field lenient strict operands
  refine ⟨fun hfield => ⟨compile_of_not_isField hfield, compile_of_not_isField hfield⟩, ?_⟩
  intro hfield
  have hlenient : lenient = (Program.ofQuery query >>= Program.render field).mapError .query :=
    compile_of_not_strict rfl hfield
  refine ⟨hlenient, ?_⟩
  cases hquery : Program.ofQuery query with
  | error fault =>
    have hoperands : operands = .error fault := by
      simp only [operands, hquery]
      rfl
    rw [hoperands]
    constructor
    · rintro _ ⟨⟩
      exact ⟨compile_of_ofQuery_eq_error hfield hquery, compile_of_ofQuery_eq_error hfield hquery⟩
    · rintro stack ⟨⟩
  | ok program =>
    have hoperands : operands = program.operands field [] := by
      simp only [operands, hquery]
      rfl
    have hrender : lenient = (program.render field).mapError .query := by
      rw [hlenient, hquery]
      rfl
    have hstrict : strict = _ := compile_of_strict rfl hfield hquery
    rw [program.orphans_eq_operands field, ← hrender] at hstrict
    rw [hoperands]
    cases hstack : program.operands field [] with
    | error fault =>
      rw [hstack] at hstrict
      constructor
      · rintro _ ⟨⟩
        refine ⟨?_, hstrict⟩
        rw [hrender, Program.render, hstack]
        rfl
      · rintro stack ⟨⟩
    | ok stack =>
      rw [hstack] at hstrict
      constructor
      · rintro fault ⟨⟩
      · rintro _ ⟨⟩
        have hpos : 0 < stack.length - 1 ↔ 1 < stack.length := by omega
        refine ⟨?_, ?_⟩
        · rw [hrender, Program.render, hstack]
          rfl
        · rw [hstrict]
          simp only [Except.map, hpos]

/-- A query of which three operands are dropped, and a field that is none. -/
theorem compile_strict_filters_orphans :
    let query := "plum (pear* OR fig) NOT \"red AND\" kiwi".toList
    let lenient : Service := ⟨{ field := "title".toList, strict := false }⟩
    let strict : Service := ⟨{ field := "title".toList, strict := true }⟩
    isField "-x".toList = false ∧ isField "title".toList = true ∧
    lenient.compile query (some "-x".toList) = .error (.field "-x".toList) ∧
    strict.compile query (some "-x".toList) = .error (.field "-x".toList) ∧
    lenient.compile query none = .ok "-title:\"kiwi\"".toList ∧
    strict.compile query none = .error (.orphans 3) := by
  obtain ⟨hrefused, -⟩ := compile_strict_filters { field := "title".toList }
    "plum (pear* OR fig) NOT \"red AND\" kiwi".toList (some "-x".toList)
  obtain ⟨-, hcompiled⟩ := compile_strict_filters { field := "title".toList }
    "plum (pear* OR fig) NOT \"red AND\" kiwi".toList none
  obtain ⟨-, -, hstack⟩ := hcompiled (by decide)
  obtain ⟨hlenient, hstrict⟩ := hrefused (by decide)
  obtain ⟨hlenient', hstrict'⟩ := hstack _ rfl
  exact ⟨by decide, by decide, hlenient, hstrict, hlenient', hstrict'⟩

end Service

end BooleanSearch
