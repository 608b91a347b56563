import BooleanSearch.Command.Line
import BooleanSearch.Config.Location

/-!
# The program

The command line program: files are those of the system, the directory of the configuration is the
one that the environment names, and what is printed goes to the output streams.
-/

namespace BooleanSearch

/-- The number of a fault of the system, which may be reported with either sign. -/
def faultNumber (code : UInt32) : Nat :=
  if code.toNat < Nat.pow 2 31 then code.toNat else Nat.pow 2 32 - code.toNat

/-- The fault that the system reports. -/
def FileError.ofIO (fault : IO.Error) : FileError :=
  let other := FileError.other (toString fault).toList
  match fault with
  | .noFileOrDirectory .. => .notFound
  | .alreadyExists .. => .alreadyExists
  | .unsatisfiedConstraints .. => .directoryNotEmpty
  | .resourceBusy .. => .busy
  | .inappropriateType _ code _ =>
    match faultNumber code with
    | 20 => .notDirectory
    | 21 => .isDirectory
    | _ => other
  | .invalidArgument _ code _ =>
    match faultNumber code with
    | 36 => .nameTooLong
    | 40 => .tooManyLinks
    | _ => other
  | _ => other

/-- An operation of the system on files. -/
def ofSystem (operation : IO α) : ExceptT FileError IO α :=
  ExceptT.mk do
    match ← operation.toBaseIO with
    | .ok a => return .ok a
    | .error fault => return .error (.ofIO fault)

/-- A text as the system takes it. -/
def systemPath (path : Text) : String := String.ofList path

/-- The bytes of a file of the system. -/
def readSystemFile (path : Text) : ExceptT FileError IO Bytes := do
  if path.contains '\x00' then throw .nullCharacter
  let content ← ofSystem (IO.FS.readBinFile (systemPath path))
  return content.toList

/-- The path of these parts. -/
def partsPath (isAbsolute : Bool) (parts : List Text) : Text :=
  (if isAbsolute then ['/'] else []) ++ ['/'].intercalate parts

/-- Whether a directory of the system stands at a path: a part that leads nowhere can be added to
the path of a directory only. -/
def isSystemDirectory (path : Text) : ExceptT FileError IO Bool := do
  try
    ofSystem (IO.FS.createDir (systemPath (Path.join path Path.here)))
    return true
  catch fault => return fault = .alreadyExists

/-- A directory of the system is made, or found to be there. -/
def ensureSystemDirectory (path : Text) : ExceptT FileError IO Unit := do
  try ofSystem (IO.FS.createDir (systemPath path))
  catch fault => if !(← isSystemDirectory path) then throw fault

/-- A directory of the system is made after the missing ones above it, of which the nearest comes
first. -/
def ensureSystemDirectories : List Text → ExceptT FileError IO Unit
  | [] => return
  | path :: ancestors => do
    try ensureSystemDirectory path
    catch fault =>
      if fault ≠ .notFound then throw fault
      ensureSystemDirectories ancestors
      ensureSystemDirectory path

/-- The path of a directory of the system, from the root on. -/
def absolutePath (directory : Text) : ExceptT FileError IO Text := do
  let working ← ofSystem IO.currentDir
  return Path.join working.toString.toList directory

/-- A file of the system is removed if possible. -/
def removeSystemFile (path : Text) : IO Unit := do
  let _ ← (ofSystem (IO.FS.removeFile (systemPath path))).run

/-- A new and empty file, which its owner alone may use, is made at a path of the system. -/
def createSystemFile (path : Text) : ExceptT FileError IO Unit := do
  if path.contains '\x00' then throw .nullCharacter
  let _ ← ofSystem (IO.FS.Handle.mk (systemPath path) .writeNew)
  try
    ofSystem (IO.setAccessRights (systemPath path) { user := { read := true, write := true } })
  catch fault =>
    removeSystemFile path
    throw fault

/-- A new file is made in a directory of the system. If its name is taken, another one is tried, up
to so many times. -/
def createFreshSystemFile (directory : Text) : Nat → ExceptT FileError IO Text
  | 0 => throw (.atPath (.other "too many temporary files exist".toList) directory)
  | tries + 1 => do
    let name := FileTree.passingName (← IO.rand 0 (FileTree.passingNames - 1))
    let path := Path.join directory name
    try
      createSystemFile path
      return name
    catch fault =>
      if fault = .alreadyExists then createFreshSystemFile directory tries
      else throw (.atPath fault path)

instance : MonadFiles IO where
  createDirectories path := do
    if path.contains '\x00' then throw .nullCharacter
    let ancestors := Path.ancestors (Path.parts path)
    ensureSystemDirectories (path :: ancestors.map (partsPath (Path.isAbsolute path)))
  isFile path := do
    match ← (readSystemFile path).run with
    | .ok _ => return true
    | .error (.other _) => return true
    | .error _ => return false
  read := readSystemFile
  createFresh directory := do
    createFreshSystemFile (← absolutePath directory) (Nat.pow 2 16)
  append directory name content := do
    let path := Path.join (← absolutePath directory) name
    ExceptT.adapt (FileError.atPath · path) <| ofSystem do
      let handle ← IO.FS.Handle.mk (systemPath path) .append
      handle.write ⟨content.toArray⟩
      handle.flush
  move directory name target := do
    if target.contains '\x00' then throw .nullCharacter
    let source := Path.join (← absolutePath directory) name
    ofSystem (IO.FS.rename (systemPath source) (systemPath target))
  remove directory name := do
    match ← (absolutePath directory).run with
    | .ok path => removeSystemFile (Path.join path name)
    | .error _ => return

/-- The reader of YAML gives no reasons. -/
instance : Config.Wording where
  reason _ := "the text is no mapping of the settings".toList

end BooleanSearch

open BooleanSearch in
/-- Carries out the command line of the program. -/
def main (args : List String) : IO UInt32 := do
  let chosen := (← IO.getEnv "BQ_BASE_PATH").map String.toList
  let home := ((← IO.getEnv "HOME").getD "").toList
  match ← runLine (m := IO) (Config.directory chosen home) (args.map String.toList) with
  | .exit code output errors =>
    (← IO.getStdout).putStr (String.ofList output)
    (← IO.getStderr).putStr (String.ofList errors)
    return UInt32.ofNat code
  | .serve _ address =>
    (← IO.getStderr).putStrLn s!"Error: requests cannot be served at {String.ofList address}"
    return 1
