import BooleanSearch.Service.Error

/-!
# Faults of a command

The ways in which a command can fail, with their messages.
-/

namespace BooleanSearch

/-- Why a command fails. -/
inductive CommandError where
  | input (message : Text)
  | configuration (message : Text)
  /-- An argument has a value that cannot be used. -/
  | argument (name message : Text)
  | service (fault : ServiceError)
  | internal (message : Text)
  deriving DecidableEq, Repr

namespace CommandError

/-- The message of a fault. -/
def message : CommandError → Text
  | .input message => "Invalid input: ".toList ++ message
  | .configuration message => "Configuration error: ".toList ++ message
  | .argument name message => "Validation error: ".toList ++ name ++ [':', ' '] ++ message
  | .service fault => fault.message
  | .internal message => "Internal error: ".toList ++ message

/-- The fault of a chain of causes that nobody foresaw. -/
def ofCauses (causes : Causes) : CommandError := .internal causes.inline

/-- The texts of a fault and of what caused it. -/
def causes : CommandError → Causes
  | .service fault => fault.causes
  | fault => [fault.message]

end CommandError

end BooleanSearch
