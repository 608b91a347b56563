import BooleanSearch.Command.Basic
import BooleanSearch.Proofs.Http.Answers

/-!
# Entry points

A command and a request over HTTP are answered with what the service makes of the query. The one
difference is a chosen field that is no field name: a command refuses it before the service is
asked.
-/

namespace BooleanSearch

namespace Command

variable {query : Text} {field? : Option Text}

/-- A chosen field that is no field name is refused as an argument. -/
theorem compileText_of_not_isField {service : Service} {field : Text} (h : isField field = false) :
    compileText service query (some field) =
      .error (.argument "field".toList
        "Field must be a word of letters, digits, '_' or '.'".toList) := by
  simp only [compileText, h]
  rfl

/-- Any other field is left to the service. -/
theorem compileText_of_isField {service : Service} (h : ∀ field ∈ field?, isField field = true) :
    compileText service query field? = (service.compile query field?).mapError .service := by
  cases field? with
  | none => rfl
  | some field =>
    simp only [compileText, h field rfl]
    rfl

theorem run_translate (config : Config) (query : Text) (field? : Option Text) :
    (run config (.translate query field?)).mapError CommandError.message =
      match Service.compile ⟨config⟩ query field? with
      | .ok text => .ok (.printed (text ++ ['\n']))
      | .error fault =>
        if field?.any fun field => !isField field then
          .error (CommandError.argument "field".toList
            "Field must be a word of letters, digits, '_' or '.'".toList).message
        else .error fault.message := by
  cases hany : field?.any fun field => !isField field with
  | false =>
    have hfield : ∀ field ∈ field?, isField field = true := by
      intro field hmem
      rw [Option.mem_def] at hmem
      simpa [hmem] using hany
    simp only [run, compileText_of_isField hfield]
    cases Service.compile ⟨config⟩ query field? <;> rfl
  | true =>
    obtain ⟨field, rfl, hfield⟩ : ∃ field, field? = some field ∧ isField field = false := by
      cases field? with
      | none => cases hany
      | some field => exact ⟨field, rfl, by simpa using hany⟩
    have hrefused : Service.compile ⟨config⟩ query (some field) = .error (.field field) :=
      Service.compile_of_not_isField (by exact hfield)
    simp only [run, compileText_of_not_isField hfield, hrefused]
    rfl

/-- A program as JSON is never the empty text, so it stands on a line of its own. -/
theorem printedLine_program (nodes : Program) (json : Bool) :
    printedLine (if json then nodes.toJson.pretty else Node.listing nodes) =
      if json then nodes.toJson.pretty ++ ['\n'] else printedLine (Node.listing nodes) := by
  cases json with
  | false => rfl
  | true => cases nodes <;> rfl

theorem run_program (config : Config) (query : Text) (json : Bool) :
    (run config (.program query json)).mapError CommandError.message =
      match Program.ofQuery query with
      | .ok nodes => .ok (.printed (if json then nodes.toJson.pretty ++ ['\n']
          else printedLine (Node.listing nodes)))
      | .error fault => .error (ServiceError.query fault).message := by
  cases hquery : Program.ofQuery query with
  | error fault =>
    simp only [run, programText, Service.program, hquery]
    rfl
  | ok nodes =>
    simp only [run, programText, Service.program, hquery, ← printedLine_program]
    rfl

end Command

/-- Every way to ask for a query gives what the service makes of it. -/
theorem entryPoints_agree (config : Config) (query : Text) (field? : Option Text) :
    let service : Service := ⟨config⟩
    (∀ body, Http.AsksToCompile body query field? →
      Http.respond service (Http.post "/api/query/translate" body) =
        match service.compile query field? with
        | .ok text => ⟨200, .json (some (.object [("query".toList, .string text)])), none⟩
        | .error fault =>
          ⟨400, .json (some (.object [("error".toList, .string fault.message)])), none⟩) ∧
    Http.AsksToCompile (Http.queryObject query field?).pretty query field? ∧
    (Command.run config (.translate query field?)).mapError CommandError.message =
      (match service.compile query field? with
      | .ok text => .ok (.printed (text ++ ['\n']))
      | .error fault =>
        if field?.any fun field => !isField field then
          .error (CommandError.argument "field".toList
            "Field must be a word of letters, digits, '_' or '.'".toList).message
        else .error fault.message) ∧
    (∀ body, Http.AsksForProgram body query →
      Http.respond service (Http.post "/api/query/postfix" body) =
        match Program.ofQuery query with
        | .ok program => ⟨200, .json (some (.object [("postfix".toList, program.toJson)])), none⟩
        | .error fault =>
          ⟨400, .json (some (.object
            [("error".toList, .string (ServiceError.query fault).message)])), none⟩) ∧
    Http.AsksForProgram (Http.queryObject query none).pretty query ∧
    (∀ json, (Command.run config (.program query json)).mapError CommandError.message =
      match Program.ofQuery query with
      | .ok program => .ok (.printed (if json then program.toJson.pretty ++ ['\n']
          else Command.printedLine (Node.listing program)))
      | .error fault => .error (ServiceError.query fault).message) ∧
    (isField (field?.getD config.field) = true → ∀ fault, Program.ofQuery query = .error fault →
      service.compile query field? = .error (.query fault)) ∧
    ∀ request, (Http.respond service request).status ≠ 500 := by
  intro service
  refine ⟨?_, Http.asksToCompile_pretty query field?, Command.run_translate config query field?, ?_,
    Http.asksForProgram_pretty query, Command.run_program config query, ?_,
    Http.respond_status_ne service⟩
  · intro body hbody
    rw [Http.respond_compile hbody]
    cases hcompile : service.compile query field? with
    | ok text => rfl
    | error fault =>
      simp only [Http.Response.ofResult, Http.Response.refused,
        Service.isBadInput_of_compile hcompile, if_true]
  · intro body hbody
    rw [Http.respond_program hbody, Service.program]
    cases Program.ofQuery query <;> rfl
  · intro hfield fault hquery
    exact Service.compile_of_ofQuery_eq_error hfield hquery

/-- A query with an open parenthesis, in a body with a null field and a member that is not looked
at. -/
theorem entryPoints_agree_open :
    let config : Config := { strict := true }
    let query := "red (wine".toList
    let body :=
      "\x7b\"field\": null, \"more\": [1, true], \"query\": \"red (\\u0077ine\"\x7d".toList
    let text := "malformed query: unmatched '(' at end of input".toList
    let refused : Http.Response :=
      ⟨400, .json (some (.object [("error".toList, .string text)])), none⟩
    Http.AsksToCompile body query none ∧ Http.AsksForProgram body query ∧
    isField config.field = true ∧ Program.ofQuery query = .error .unmatchedOpen ∧
    Http.respond ⟨config⟩ (Http.post "/api/query/translate" body) = refused ∧
    Http.respond ⟨config⟩ (Http.post "/api/query/postfix" body) = refused ∧
    (Command.run config (.translate query none)).mapError CommandError.message = .error text ∧
    (Command.run config (.program query true)).mapError CommandError.message = .error text ∧
    Service.compile ⟨config⟩ query none = .error (.query .unmatchedOpen) := by
  intro config query body text refused
  have hcompile : Http.AsksToCompile body query none := by
    refine ⟨[("query".toList, some query), ("field".toList, none)], ?_, rfl, rfl⟩
    subst body query
    exact eq_ok_of_toOption_eq_some (by decide +kernel)
  have hprogram : Http.AsksForProgram body query := by
    refine ⟨[("query".toList, some query)], ?_, rfl⟩
    subst body query
    exact eq_ok_of_toOption_eq_some (by decide +kernel)
  have hfield : isField config.field = true := by decide
  have hquery : Program.ofQuery query = .error .unmatchedOpen := rfl
  have hmessage : (ServiceError.query .unmatchedOpen).message = text := by decide
  obtain ⟨htranslated, -, hrun, hlisted, -, hruns, hfault, -⟩ := entryPoints_agree config query none
  have hrefused := hfault hfield _ hquery
  simp only [hrefused, hmessage] at htranslated hrun
  simp only [hquery, hmessage] at hlisted hruns
  exact ⟨hcompile, hprogram, hfield, hquery, htranslated body hcompile, hlisted body hprogram, hrun,
    hruns true, hrefused⟩

end BooleanSearch
