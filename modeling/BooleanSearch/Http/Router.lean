import BooleanSearch.Config.Json
import BooleanSearch.Http.MediaType
import BooleanSearch.Json.Record
import BooleanSearch.Query.NodeJson
import BooleanSearch.Service.Basic

/-!
# Requests over HTTP

The service answers three kinds of requests: to compile a query, to show its program, and to show
the configuration. Queries come in JSON bodies, whose type is checked before they are read.
-/

namespace BooleanSearch.Http

/-- A request. -/
structure Request where
  method : Text
  /-- The path, with what follows a `?`. -/
  target : Text
  contentType : Option Text
  body : Text
  deriving DecidableEq, Repr

/-- The body of an answer. -/
inductive Body where
  | text (text : Text)
  /-- A JSON value, left out in the answer to a `HEAD` request. -/
  | json (value : Option Json)

/-- An answer. -/
structure Response where
  status : Nat
  body : Body
  /-- The methods that the target knows, where the request has another one. -/
  allow : Option Text := none

/-- What can be requested. -/
inductive Endpoint where
  | compile
  | program
  | config
  deriving DecidableEq, Repr

/-- The endpoint at a path, which has to match character by character. -/
def Endpoint.ofPath? (path : Text) : Option Endpoint :=
  if path = "/api/query/translate".toList then some .compile
  else if path = "/api/query/postfix".toList then some .program
  else if path = "/api/config".toList then some .config
  else none

/-- The path of a target. -/
def Request.path (request : Request) : Text :=
  request.target.takeWhile fun c => c ≠ '?' && c ≠ '#'

private def queryKey : Text := "query".toList
private def fieldKey : Text := "field".toList

/-- The body of a request to compile a query: the query and perhaps a field. -/
def compileShape : Json.Shape :=
  ⟨"struct TranslateRequest".toList, [⟨queryKey, false⟩, ⟨fieldKey, true⟩]⟩

/-- The body of a request for a program: the query. -/
def programShape : Json.Shape := ⟨"struct PostfixRequest".toList, [⟨queryKey, false⟩]⟩

namespace Response

/-- There is nothing at the target. -/
def notFound : Response := ⟨404, .text [], none⟩

/-- The target does not know the method. -/
def notAllowed (methods : String) : Response := ⟨405, .text [], some methods.toList⟩

/-- The body is not declared as JSON. -/
def unsupported : Response :=
  ⟨415, .text "Expected request with \x60Content-Type: application/json\x60".toList, none⟩

/-- The body cannot be read. Of a body that is no JSON the answer says more than stands here: the
reader's own words on what it met, which are left out. -/
def unreadable : Json.RecordFault → Response
  | .malformed => ⟨400, .text "Failed to parse the request body as JSON".toList, none⟩
  | fault =>
    ⟨422, .text ("Failed to deserialize the JSON body into the target type: ".toList ++
      fault.message), none⟩

/-- An answer with a JSON body. -/
def ok (value : Json) : Response := ⟨200, .json (some value), none⟩

/-- The service refuses the request, or fails. -/
def refused (fault : ServiceError) : Response :=
  ⟨if fault.isBadInput then 400 else 500,
    .json (some (.object [("error".toList, .string fault.message)])), none⟩

/-- The answer to a request that the service answers with a value. -/
def ofResult (toJson : α → Json) : Except ServiceError α → Response
  | .ok value => ok (toJson value)
  | .error fault => refused fault

end Response

/-- The answer to a request with a JSON body of some shape. -/
def withRecord (request : Request) (shape : Json.Shape) (answer : Json.Found → Response) :
    Response :=
  if (request.contentType.map MediaType.isJson).getD false then
    match Json.readRecord shape request.body with
    | .ok found => answer found
    | .error fault => .unreadable fault
  else .unsupported

/-- The answer to a request to compile a query. -/
def compile (service : Service) (found : Json.Found) : Response :=
  .ofResult (fun text => .object [(queryKey, .string text)])
    (service.compile ((found.text? queryKey).getD []) (found.text? fieldKey))

/-- The answer to a request for a program. -/
def program (service : Service) (found : Json.Found) : Response :=
  .ofResult (fun program => .object [("postfix".toList, program.toJson)])
    (service.program ((found.text? queryKey).getD []))

/-- The answer to a request. -/
def respond (service : Service) (request : Request) : Response :=
  let isPost := request.method = "POST".toList
  match Endpoint.ofPath? request.path with
  | none => .notFound
  | some .compile =>
    if isPost then withRecord request compileShape (compile service) else .notAllowed "POST"
  | some .program =>
    if isPost then withRecord request programShape (program service) else .notAllowed "POST"
  | some .config =>
    if request.method = "GET".toList then .ok service.config.toJson
    else if request.method = "HEAD".toList then ⟨200, .json none, none⟩
    else .notAllowed "GET,HEAD"

end BooleanSearch.Http
