import BooleanSearch.Config.Yaml
import BooleanSearch.Storage.Store

/-!
# Keeping a configuration

A configuration is kept in a file of a directory. Loading it writes the defaults if the file is
missing, and brings a file that is written in another way into the one form that saving gives it.
A file that cannot be read is left as it is.
-/

namespace BooleanSearch.Config

/-- The name of the file. -/
def fileName : Text := "config.yaml".toList

/-- Why no configuration can be loaded. -/
inductive LoadError where
  /-- The directory cannot be made. -/
  | directory (path : Text) (fault : FileError)
  /-- The file cannot be read or written. -/
  | file (fault : FileError)
  /-- The file holds no text. -/
  | encoding (fault : Utf8.Fault)
  /-- The text of the file is no configuration, for this reason. -/
  | malformed (reason : Text)
  /-- A setting cannot be used. -/
  | setting (fault : Config.Fault)
  deriving DecidableEq, Repr

/-- The texts of a fault. -/
def LoadError.causes : LoadError → Causes
  | .directory path fault => ["failed to create ".toList ++ path, fault.message]
  | .file fault => [fault.message]
  | .encoding fault => ["config file is not valid utf8".toList, fault.message]
  | .malformed reason => ["config is malformed".toList, reason]
  | .setting fault => fault.causes

/-- How the library that reads YAML words its faults: what it says of a text that cannot be read as
a configuration. The words are its own, and nothing hangs on them. -/
class Wording where
  reason (t : Text) : Text

/-- The content of the file of a configuration. -/
def content (config : Config) : Bytes := Utf8.encode config.toYaml

/-- The configuration of a text, with settings that can be used. -/
def ofText [Wording] (t : Text) : Except LoadError Config :=
  match ofYaml? t with
  | none => .error (.malformed (Wording.reason t))
  | some config => do
    config.check.mapError .setting
    return config

variable {m : Type → Type} [Monad m] [MonadFiles m]

/-- A configuration is saved in a directory, which is made if it is missing. -/
def save (config : Config) (directory : Text) : ExceptT LoadError m Unit :=
  ExceptT.adapt .file do
    let store ← Store.create directory
    store.write fileName config.content

/-- The configuration that is kept in a directory, which is made if it is missing. -/
def load [Wording] (directory : Text) : ExceptT LoadError m Config := do
  let store ← ExceptT.adapt (.directory directory) (Store.create directory)
  if !(← store.contains (m := m) fileName) then
    ExceptT.adapt .file (store.write fileName (content {}))
  let bytes ← ExceptT.adapt .file (store.read fileName)
  let text ← liftExcept ((Utf8.decode bytes).mapError .encoding)
  let config ← liftExcept (ofText text)
  if text ≠ config.toYaml then config.save directory
  return config
where
  /-- The result of a computation without files. -/
  liftExcept {α : Type} (result : Except LoadError α) : ExceptT LoadError m α :=
    ExceptT.mk (pure result)

end BooleanSearch.Config
