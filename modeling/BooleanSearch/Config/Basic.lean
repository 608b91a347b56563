import BooleanSearch.Field
import BooleanSearch.Net.SocketAddress
import BooleanSearch.Text.Causes
import BooleanSearch.Text.Quoted

/-!
# Configurations

What a user can set: the field of a term when none is chosen, the address that the service listens
on, and whether a query with terms that no operator joins is refused.
-/

namespace BooleanSearch

/-- A configuration. -/
structure Config where
  /-- The field of a term when no other is chosen. -/
  field : Text := defaultField
  /-- The address that the service listens on. -/
  address : Text := "127.0.0.1:8080".toList
  /-- Whether a query with operands that no operator joins is refused. -/
  strict : Bool := false
  deriving DecidableEq, Repr

namespace Config

/-- The name of the field setting in a file. -/
def fieldKey : Text := "default_field".toList

/-- The name of the address setting in a file. -/
def addressKey : Text := "listen_addr".toList

/-- The name of the strictness setting in a file. -/
def strictKey : Text := "reject_orphaned_operands".toList

/-- A setting with a value that cannot be used. -/
inductive Fault where
  | field (found : Text)
  | address (found : Text)
  deriving DecidableEq, Repr

/-- The texts of a fault. -/
def Fault.causes : Fault → Causes
  | .field found =>
    ["default_field must match [A-Za-z0-9_][A-Za-z0-9_.]*, got ".toList ++ Text.quoted found]
  | .address found =>
    ["listen_addr is not a socket address: ".toList ++ found,
      "invalid socket address syntax".toList]

/-- Checks that the settings can be used, the field first. -/
def check (config : Config) : Except Fault Unit :=
  if !isField config.field then .error (.field config.field)
  else if !SocketAddress.isValid config.address then .error (.address config.address)
  else .ok ()

end Config

end BooleanSearch
