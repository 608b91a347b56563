import BooleanSearch.Proofs.Json.Values
import BooleanSearch.Proofs.Service.EntryPoints

/-!
# Programs as JSON

A program is read back from its JSON text, so whoever receives the text that a command prints can
render the program as the service would.
-/

namespace BooleanSearch

theorem Operator.meaning_byKeyword (op : Operator) :
    Json.meaning Operator.byKeyword op.keyword = .ok op := by
  cases op <;> rfl

namespace Node

theorem ofJson_toJson (node : Node) : ofJson node.toJson = .ok node := by
  cases node with
  | term text => rfl
  | operator op =>
    have hop := op.meaning_byKeyword
    have hvalue : ofValue .operator (.string op.keyword) = .ok (.operator op) := by
      simp only [ofValue, Json.alternative, hop]
      rfl
    exact hvalue

theorem isNumberless_toJson (node : Node) : node.toJson.isNumberless = true := by
  cases node <;> rfl

end Node

namespace Program

theorem mapM_ofJson_map_toJson (program : Program) :
    (program.map Node.toJson).mapM Node.ofJson = .ok program := by
  induction program with
  | nil => rfl
  | cons node program ih =>
    rw [List.map_cons, List.mapM_cons, node.ofJson_toJson, ih]
    rfl

theorem ofJson_toJson (program : Program) : ofJson program.toJson = .ok program :=
  mapM_ofJson_map_toJson program

theorem isNumberless_toJson (program : Program) : program.toJson.isNumberless = true := by
  have hitems : Json.areNumberless (program.map Node.toJson) = true := by
    induction program with
    | nil => rfl
    | cons node program ih =>
      rw [List.map_cons, Json.areNumberless, node.isNumberless_toJson, ih]
      rfl
  exact hitems

/-- The program that a JSON text stands for. -/
def ofJsonText? (t : Text) : Option Program :=
  (Json.ofText? t).bind fun json => (ofJson json).toOption

theorem ofJsonText?_pretty (program : Program) (rest : Text) (h : Json.skipSpace rest = []) :
    ofJsonText? (program.toJson.pretty ++ rest) = some program := by
  rw [ofJsonText?, Json.ofText?_pretty program.isNumberless_toJson h, Option.bind_some,
    program.ofJson_toJson]
  rfl

/-- Every program is read back from its JSON. The text that a command prints of a query is read as
the program of the query, and rendering what was read gives the text or the fault of the query. -/
theorem json_faithful (program : Program) :
    ofJson program.toJson = .ok program ∧
    ofJsonText? program.toJson.pretty = some program ∧
    ∀ (config : Config) (query : Text), ofQuery query = .ok program →
      ∃ text received, Command.run config (.program query true) = .ok (.printed text) ∧
        ofJsonText? text = some received ∧ received = program ∧
        ∀ field, received.render field = ofQuery query >>= render field := by
  refine ⟨program.ofJson_toJson, ?_, ?_⟩
  · have hread := program.ofJsonText?_pretty [] rfl
    rwa [List.append_nil] at hread
  · intro config query hquery
    have hrun := Command.run_program config query true
    rw [hquery] at hrun
    refine ⟨_, program, of_mapError_eq_ok hrun, program.ofJsonText?_pretty _ (by decide), rfl, ?_⟩
    intro field
    rw [hquery]
    rfl

/-- A query that cannot be rendered, with characters that JSON escapes. -/
theorem json_faithful_escapes :
    let query := "\"C:\\new\\\x01\" AND caf\u00e9* OR".toList
    let program : Program := [.term "\"C:\\new\\\x01\"".toList, .term "caf\u00e9*".toList,
      .operator .and, .operator .or]
    ofQuery query = .ok program ∧
    ∃ text received, Command.run {} (.program query true) = .ok (.printed text) ∧
      ofJsonText? text = some received ∧ received = program ∧
      received.render defaultField = .error (.underflow .or 2 1) := by
  intro query program
  have hquery : ofQuery query = .ok program := rfl
  obtain ⟨-, -, hprinted⟩ := json_faithful program
  obtain ⟨text, received, hrun, hread, heq, hrender⟩ := hprinted {} query hquery
  exact ⟨hquery, text, received, hrun, hread, heq, by rw [hrender, hquery]; rfl⟩

end Program

end BooleanSearch
