import BooleanSearch.Command.Line
import BooleanSearch.Proofs.Config.Load
import BooleanSearch.Proofs.Service.EntryPoints

/-!
# Runs of the program

A command line that asks for a query first loads the configuration and then answers under it. What
is left of the files is what loading left, whatever becomes of the query. A field that is chosen is
checked by the command and the configured one when it is loaded, so the service never refuses one.
-/

namespace BooleanSearch

namespace Command

variable {config : Config} {command : Command} {query : Text} {field? : Option Text}

theorem compileText_ne_field (h : isField config.field = true) (name : Text) :
    compileText ⟨config⟩ query field? ≠ .error (.service (.field name)) := by
  have hcompiled : (∀ field ∈ field?, isField field = true) →
      isField (field?.getD config.field) = true →
      compileText ⟨config⟩ query field? ≠ .error (.service (.field name)) := by
    intro hchosen hfield hfault
    rw [compileText_of_isField hchosen] at hfault
    obtain ⟨cause, hcompile, hcause⟩ := exists_of_mapError_eq_error hfault
    cases hcause
    exact Service.compile_ne_field hfield name hcompile
  cases field? with
  | none => exact hcompiled nofun h
  | some field =>
    cases hfield : isField field with
    | true => exact hcompiled (fun other hmem => Option.some.inj hmem ▸ hfield) hfield
    | false =>
      rw [compileText_of_not_isField hfield]
      nofun

theorem programText_ne_field {json : Bool} (name : Text) :
    programText ⟨config⟩ query json ≠ .error (.service (.field name)) := by
  rw [programText, Service.program]
  cases Program.ofQuery query <;> rintro ⟨⟩

/-- Under a configuration that can be used, a command that asks for a query prints a text, or fails
for another reason than that the service refuses a field. -/
theorem run_cases (hquery : ∀ address, command ≠ .daemon address)
    (h : isField config.field = true) :
    (∃ text, command.run config = .ok (.printed text)) ∨
      ∃ fault, command.run config = .error fault ∧ ∀ name, fault ≠ .service (.field name) := by
  cases command with
  | daemon address => exact absurd rfl (hquery address)
  | translate query field? =>
    rw [run]
    cases htext : compileText ⟨config⟩ query field? with
    | ok text => exact .inl ⟨_, rfl⟩
    | error fault =>
      refine .inr ⟨fault, rfl, ?_⟩
      rintro name rfl
      exact compileText_ne_field h name htext
  | program query json =>
    rw [run]
    cases htext : programText ⟨config⟩ query json with
    | ok text => exact .inl ⟨_, rfl⟩
    | error fault =>
      refine .inr ⟨fault, rfl, ?_⟩
      rintro name rfl
      exact programText_ne_field name htext
  | tokens query => exact .inl ⟨_, rfl⟩

end Command

section Line

variable {σ : Type} [MonadFiles (StateM σ)] [Config.Wording]
variable {args : List Text} {invocation : Invocation}

/-- The end of a command line that names a command, by what came of loading the configuration. -/
def endingOf (command : Command) : Except Config.LoadError Config → Ending
  | .error error => .ofFault error.fault
  | .ok config => .ofResult config (command.run config)

/-- A command line loads the configuration, which is all that it does to the files. -/
theorem run_runLine (hargs : Invocation.ofArguments args = .ok invocation) (directory : Text)
    (files : σ) : (runLine (m := StateM σ) directory args).run files =
      let loaded := (Config.load (m := StateM σ) directory).run.run files
      (endingOf invocation.command loaded.1, loaded.2) := by
  rw [runLine, hargs]
  dsimp only
  rw [StateT.run_bind]
  rcases (Config.load (m := StateM σ) directory).run.run files with ⟨error | config, left⟩
  · rfl
  · rfl

/-- The program carries out a command line that asks for a query in two parts, whatever holds the
files: it loads the configuration, and answers under it. The files are left as loading leaves them.
If loading fails, so does the program, and it reports that fault whatever was asked for. Else it
prints what the command prints, or it reports the fault of the command, which is never that the
service refuses a field. -/
theorem runLine_loads_then_answers (hargs : Invocation.ofArguments args = .ok invocation)
    (hquery : ∀ address, invocation.command ≠ .daemon address) (directory : Text) (files : σ) :
    let loaded := (Config.load (m := StateM σ) directory).run.run files
    let ended := (runLine (m := StateM σ) directory args).run files
    ended.2 = loaded.2 ∧
    (∀ error, loaded.1 = .error error →
      ended.1 = .exit 1 [] ("Error: Configuration error: ".toList ++
        Causes.inline ("failed to load config.yaml".toList :: error.causes) ++ ['\n'])) ∧
    ∀ config, loaded.1 = .ok config →
      (∃ text, invocation.command.run config = .ok (.printed text) ∧
        ended.1 = .exit 0 text []) ∨
      ∃ fault, invocation.command.run config = .error fault ∧
        (∀ name, fault ≠ .service (.field name)) ∧
        ended.1 = .exit 1 [] ("Error: ".toList ++ fault.causes.report ++ ['\n']) := by
  intro loaded ended
  have hended : ended = (endingOf invocation.command loaded.1, loaded.2) :=
    run_runLine hargs directory files
  refine ⟨congrArg Prod.snd hended, fun error herror => ?_, fun config hconfig => ?_⟩
  · rw [hended, herror]
    rfl
  · have hcheck : config.check = .ok () := Config.check_of_load (eq_mk_of_fst_eq hconfig)
    rw [hended, hconfig]
    rcases Command.run_cases hquery (Config.check_eq_ok.mp hcheck).1 with
      ⟨text, htext⟩ | ⟨fault, hfault, hne⟩
    · refine .inl ⟨text, htext, ?_⟩
      rw [endingOf, htext]
      rfl
    · refine .inr ⟨fault, hfault, hne, ?_⟩
      rw [endingOf, hfault]
      rfl

end Line

/-- A malformed query, for which the file is brought into its form all the same; and two files that
cannot be used, which is reported although the query is malformed, and which are left as they are.
The second one is no configuration, and the words for that are those of the library that reads
YAML. -/
theorem runLine_loads_then_answers_malformed :
    let _ : Config.Wording := ⟨fun t =>
      if t = "reject_orphaned_operands: maybe\n".toList then
        "reject_orphaned_operands: invalid type: string \"maybe\", expected a boolean".toList ++
          " at line 1 column 27".toList
      else []⟩
    let directory := "conf".toList
    let args := ["translate".toList, "plum )".toList, "-ftitle".toList]
    let invocation : Invocation := ⟨false, .translate "plum )".toList (some "title".toList)⟩
    let file : Location := [directory, Config.fileName]
    let tree := fun (content : Text) => FileTree.mk
      [([directory], .directory), (file, .file (Utf8.encode content))] ['/']
    let ended := fun (content : Text) =>
      (runLine (m := StateM FileTree) directory args).run (tree content)
    let short := "default_field: body\n".toList
    let settled := "default_field: body\n".toList ++
      "listen_addr: '127.0.0.1:8080'\nreject_orphaned_operands: false\n".toList
    let unfit := "default_field: -x\n".toList
    let wrong := "reject_orphaned_operands: maybe\n".toList
    Invocation.ofArguments args = .ok invocation ∧
    (∀ address, invocation.command ≠ .daemon address) ∧
    (ended short).1 = .exit 1 [] ("Error: malformed query: unmatched ')' at token 1\n".toList ++
      "\nCaused by:\n    unmatched ')' at token 1\n".toList) ∧
    (ended short).2.get? file = some (.file (Utf8.encode settled)) ∧
    (ended unfit).1 = .exit 1 [] ("Error: Configuration error: ".toList ++
      "failed to load config.yaml: ".toList ++
      "default_field must match [A-Za-z0-9_][A-Za-z0-9_.]*, got \"-x\"\n".toList) ∧
    (ended unfit).2.get? file = some (.file (Utf8.encode unfit)) ∧
    (ended wrong).1 = .exit 1 [] ("Error: Configuration error: ".toList ++
      "failed to load config.yaml: config is malformed: ".toList ++
      "reject_orphaned_operands: invalid type: string \"maybe\", expected a boolean".toList ++
      " at line 1 column 27\n".toList) ∧
    (ended wrong).2.get? file = some (.file (Utf8.encode wrong)) := by
  intro _ directory args invocation file tree ended short settled unfit wrong
  have hargs : Invocation.ofArguments args = .ok invocation := by rfl
  have hquery : ∀ address, invocation.command ≠ .daemon address := nofun
  obtain ⟨hleft, -, hanswers⟩ := runLine_loads_then_answers hargs hquery directory (tree short)
  obtain ⟨hunfit, hfails, -⟩ := runLine_loads_then_answers hargs hquery directory (tree unfit)
  obtain ⟨hwrong, hrefused, -⟩ := runLine_loads_then_answers hargs hquery directory (tree wrong)
  have hmalformed := hanswers { field := "body".toList } (by decide +kernel)
  have hunusable := hfails (.setting (.field "-x".toList)) (by decide +kernel)
  have hunreadable := hrefused (.malformed (Config.Wording.reason wrong)) (by decide +kernel)
  refine ⟨hargs, hquery, ?_, ?_, hunusable.trans (by decide +kernel), ?_,
    hunreadable.trans (by decide +kernel), ?_⟩
  · obtain ⟨text, htext, -⟩ | ⟨fault, hfault, -, hended⟩ := hmalformed
    · cases htext
    · cases hfault
      exact hended.trans (by decide +kernel)
  · rw [hleft]
    decide +kernel
  · rw [hunfit]
    decide +kernel
  · rw [hwrong]
    decide +kernel

end BooleanSearch
