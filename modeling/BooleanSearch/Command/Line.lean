import BooleanSearch.Command.Arguments
import BooleanSearch.Config.Load

/-!
# Carrying out a command line

A command line is read, the configuration is loaded, and the command is carried out under it. The
arguments alone decide whether the configuration is loaded at all.
-/

namespace BooleanSearch

/-- How the program ends. The lines of its log, which go to the second output stream as well, are
left out. -/
inductive Ending where
  /-- With this code, after these texts on the two output streams. -/
  | exit (code : Nat) (output errors : Text)
  /-- By serving requests at an address. -/
  | serve (config : Config) (address : Text)
  deriving DecidableEq, Repr

/-- The version of the program. -/
def versionText : Text := "bq 0.1.0\n".toList

/-- How the program is used. -/
def helpText : Text :=
  "Usage: bq [-v] <COMMAND>\n\nCommands:\n".toList ++ "  translate [-f FIELD] <QUERY>\n".toList ++
  "  postfix [-j] <QUERY>\n".toList ++ "  tokens <QUERY>\n".toList ++
  "  daemon [-a ADDR]\n".toList ++ "  help [COMMAND]\n".toList

/-- The message for a command line that names no command to carry out. -/
def Usage.message : Usage → Text
  | .missingArgument => "error: the query is missing\n".toList
  | .unknownArgument => "error: an argument is not expected\n".toList
  | .unknownCommand => "error: there is no such command\n".toList
  | .missingValue => "error: an option lacks its value\n".toList
  | .repeated => "error: an option is given twice\n".toList
  | .surplusValue => "error: an option takes no value\n".toList
  | .missingCommand => "error: the command is missing\n".toList
  | .emptyLine => helpText
  | .help => helpText
  | .version => versionText

namespace Ending

/-- The end of a program whose command line names no command to carry out. -/
def ofUsage : Usage → Ending
  | .help => .exit 0 helpText []
  | .version => .exit 0 versionText []
  | usage => .exit 2 [] usage.message

/-- The end of a program that fails. -/
def ofFault (fault : CommandError) : Ending :=
  .exit 1 [] ("Error: ".toList ++ fault.causes.report ++ ['\n'])

/-- The end of a program that carries out a command. -/
def ofResult (config : Config) : Except CommandError Command.Outcome → Ending
  | .ok (.printed text) => .exit 0 text []
  | .ok (.served address) => .serve config address
  | .error fault => ofFault fault

end Ending

/-- The fault of a program whose configuration cannot be loaded. -/
def Config.LoadError.fault (error : Config.LoadError) : CommandError :=
  .configuration (Causes.inline ("failed to load config.yaml".toList :: error.causes))

/-- Carries out a command line, with the configuration that is kept in a directory. -/
def runLine {m : Type → Type} [Monad m] [MonadFiles m] [Config.Wording] (directory : Text)
    (args : List Text) : m Ending :=
  match Invocation.ofArguments args with
  | .error usage => pure (.ofUsage usage)
  | .ok invocation => do
    match ← (Config.load directory).run with
    | .error error => return .ofFault error.fault
    | .ok config => return .ofResult config (invocation.command.run config)

end BooleanSearch
