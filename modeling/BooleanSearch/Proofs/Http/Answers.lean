import BooleanSearch.Http.Router
import BooleanSearch.Proofs.Json.Records
import BooleanSearch.Proofs.Service.Faults

/-!
# Answers to requests

A request whose body holds a query is answered with what the service makes of it. A body may be
written in any way that is read as the query; the JSON object of a query and a field is. The service
never fails but for its request, so no answer says that it did.
-/

namespace BooleanSearch.Http

/-- A request with a JSON body. -/
def post (path : String) (body : Text) : Request :=
  ⟨"POST".toList, path.toList, some "application/json".toList, body⟩

/-- A body that is read as a query to compile and perhaps a field. -/
def AsksToCompile (body query : Text) (field? : Option Text) : Prop :=
  ∃ found, Json.readRecord compileShape body = .ok found ∧
    found.text? "query".toList = some query ∧ found.text? "field".toList = field?

/-- A body that is read as a query of which the program is asked for. -/
def AsksForProgram (body query : Text) : Prop :=
  ∃ found, Json.readRecord programShape body = .ok found ∧
    found.text? "query".toList = some query

/-- The JSON object of a query and perhaps a field. -/
def queryObject (query : Text) (field? : Option Text) : Json :=
  .object (Json.ofTexts (("query".toList, query) ::
    (field?.map fun field => ("field".toList, field)).toList))

theorem asksToCompile_pretty (query : Text) (field? : Option Text) :
    AsksToCompile (queryObject query field?).pretty query field? := by
  cases field? with
  | none =>
    exact ⟨_, Json.readRecord_pretty (List.all_eq_true.mp rfl) (by simp) rfl, rfl, rfl⟩
  | some field =>
    exact ⟨_, Json.readRecord_pretty (List.all_eq_true.mp rfl) (by simp) rfl, rfl, rfl⟩

theorem asksForProgram_pretty (query : Text) :
    AsksForProgram (queryObject query none).pretty query :=
  ⟨_, Json.readRecord_pretty (List.all_eq_true.mp rfl) (by simp) rfl, rfl⟩

variable {service : Service} {body query : Text}

theorem withRecord_post {path : String} {shape : Json.Shape} {found : Json.Found}
    (h : Json.readRecord shape body = .ok found) (answer : Json.Found → Response) :
    withRecord (post path body) shape answer = answer found := by
  have hjson : MediaType.isJson "application/json".toList = true := by decide
  simp only [withRecord, post, hjson, h, Option.map_some, Option.getD_some, if_true]

theorem respond_compile {field? : Option Text} (h : AsksToCompile body query field?) :
    respond service (post "/api/query/translate" body) =
      .ofResult (fun text => .object [("query".toList, .string text)])
        (service.compile query field?) := by
  obtain ⟨found, hread, hquery, hfield⟩ := h
  have hrespond : respond service (post "/api/query/translate" body) =
      withRecord (post "/api/query/translate" body) compileShape (compile service) := rfl
  have hcompile : compile service found =
      .ofResult (fun text => .object [("query".toList, .string text)])
        (service.compile ((found.text? "query".toList).getD []) (found.text? "field".toList)) := rfl
  rw [hrespond, withRecord_post hread, hcompile, hquery, hfield]
  rfl

theorem respond_program (h : AsksForProgram body query) :
    respond service (post "/api/query/postfix" body) =
      .ofResult (fun program => .object [("postfix".toList, program.toJson)])
        (service.program query) := by
  obtain ⟨found, hread, hquery⟩ := h
  have hrespond : respond service (post "/api/query/postfix" body) =
      withRecord (post "/api/query/postfix" body) programShape (program service) := rfl
  have hprogram : program service found =
      .ofResult (fun program => .object [("postfix".toList, program.toJson)])
        (service.program ((found.text? "query".toList).getD [])) := rfl
  rw [hrespond, withRecord_post hread, hprogram, hquery]
  rfl

theorem status_ofResult_ne {α : Type} {toJson : α → Json} {result : Except ServiceError α}
    (h : ∀ fault, result = .error fault → fault.isBadInput = true) :
    (Response.ofResult toJson result).status ≠ 500 := by
  cases result with
  | ok value => simp [Response.ofResult, Response.ok]
  | error fault => simp [Response.ofResult, Response.refused, h fault rfl]

theorem status_withRecord_ne {request : Request} {shape : Json.Shape}
    {answer : Json.Found → Response} (h : ∀ found, (answer found).status ≠ 500) :
    (withRecord request shape answer).status ≠ 500 := by
  rw [withRecord]
  split
  · split
    · exact h _
    · next fault _ => cases fault <;> simp [Response.unreadable]
  · simp [Response.unsupported]

/-- No answer says that the service failed. -/
theorem respond_status_ne (service : Service) (request : Request) :
    (respond service request).status ≠ 500 := by
  have hcompile : ∀ found, (compile service found).status ≠ 500 := fun found =>
    status_ofResult_ne fun _ => Service.isBadInput_of_compile
  have hprogram : ∀ found, (program service found).status ≠ 500 := fun found =>
    status_ofResult_ne fun _ => Service.isBadInput_of_program
  cases hendpoint : Endpoint.ofPath? request.path with
  | none => simp [respond, hendpoint, Response.notFound]
  | some endpoint =>
    cases endpoint with
    | compile =>
      simp only [respond, hendpoint]
      split
      · exact status_withRecord_ne hcompile
      · simp [Response.notAllowed]
    | program =>
      simp only [respond, hendpoint]
      split
      · exact status_withRecord_ne hprogram
      · simp [Response.notAllowed]
    | config =>
      simp only [respond, hendpoint]
      split
      · simp [Response.ok]
      · split <;> simp [Response.notAllowed]

end BooleanSearch.Http
