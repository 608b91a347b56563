import BooleanSearch.Command.Error
import BooleanSearch.Json.Pretty
import BooleanSearch.Query.NodeJson
import BooleanSearch.Service.Basic

/-!
# Commands

What a user can ask for on the command line, and the text that answers it.
-/

namespace BooleanSearch

/-- A command. -/
inductive Command where
  /-- Print the query in the target language. -/
  | translate (query : Text) (field : Option Text)
  /-- Print the program of the query, as JSON if asked. -/
  | program (query : Text) (json : Bool)
  /-- Print the tokens of the query. -/
  | tokens (query : Text)
  /-- Serve requests at an address. -/
  | daemon (address : Option Text)
  deriving DecidableEq, Repr

namespace Command

/-- The query in the target language. A field that is chosen is checked first. -/
def compileText (service : Service) (query : Text) (field : Option Text) :
    Except CommandError Text := do
  match field with
  | some name =>
    if !isField name then
      throw (.argument "field".toList
        "Field must be a word of letters, digits, '_' or '.'".toList)
  | none => pure ()
  (service.compile query field).mapError .service

/-- The program of the query, as a listing or as JSON. -/
def programText (service : Service) (query : Text) (json : Bool) : Except CommandError Text := do
  let program ← (service.program query).mapError .service
  return if json then program.toJson.pretty else Node.listing program

/-- The tokens of the query as a listing. -/
def tokensText (service : Service) (query : Text) : Text := Token.listing (service.tokens query)

/-- What a command leads to. -/
inductive Outcome where
  /-- A text is printed. -/
  | printed (text : Text)
  /-- Requests are served at an address. -/
  | served (address : Text)
  deriving DecidableEq, Repr

/-- A text on a line of its own; nothing for an empty text. -/
def printedLine (text : Text) : Text := if text.isEmpty then [] else text ++ ['\n']

/-- The address to serve at: the chosen one, which must be a socket address, or else the configured
one, which must at least have a port. -/
def serveAt (config : Config) (address : Option Text) : Except CommandError Text := do
  match address with
  | some address =>
    if !SocketAddress.isValid address then
      throw (.argument "addr".toList "Address must look like 127.0.0.1:8080".toList)
    return address
  | none =>
    match SocketAddress.lookupFault? config.address with
    | some fault =>
      throw (.ofCauses ["failed to bind ".toList ++ config.address, fault.message])
    | none => return config.address

/-- Carries out a command under a configuration. -/
def run (config : Config) : Command → Except CommandError Outcome
  | .translate query field => do
    return .printed ((← compileText ⟨config⟩ query field) ++ ['\n'])
  | .program query json => do
    return .printed (printedLine (← programText ⟨config⟩ query json))
  | .tokens query => .ok (.printed (printedLine (tokensText ⟨config⟩ query)))
  | .daemon address => do return .served (← serveAt config address)

end Command

end BooleanSearch
