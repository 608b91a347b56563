import BooleanSearch.Storage.Error
import BooleanSearch.Text.Utf8

/-!
# Paths

A path is a text whose parts stand between slashes. The part `.` leads nowhere and the part `..`
leads one directory up.
-/

namespace BooleanSearch.Path

/-- The parts of a path. -/
def parts (path : Text) : List Text := (Text.splitAt '/' path).filter (fun part => !part.isEmpty)

/-- Whether a path ends in a slash, so that it can name nothing but a directory. -/
def endsInSlash (path : Text) : Bool := path.getLast? = some '/'

/-- Whether a path starts with a slash, so that it starts at the root. -/
def isAbsolute (path : Text) : Bool := path.head? = some '/'

/-- A path that starts in a directory, unless it starts at the root. -/
def join (directory path : Text) : Text :=
  if isAbsolute path then path
  else if directory.isEmpty || endsInSlash directory then directory ++ path
  else directory ++ '/' :: path

/-- The part that stands for the directory itself. -/
def here : Text := ['.']

/-- The part that stands for the directory above. -/
def above : Text := ['.', '.']

/-- The parts of a path as they are followed to its end: a path that ends in a slash leads into a
directory. -/
def route (path : Text) : List Text := parts path ++ if endsInSlash path then [here] else []

/-- Whether a part is the name of an entry of its directory. -/
def isName (part : Text) : Bool := part ≠ here && part ≠ above

/-- A name has at most 255 bytes. -/
def checkName (name : Text) : Except FileError Unit :=
  if 255 < (Utf8.encode name).length then .error .nameTooLong else .ok ()

/-- A path is not empty, has less than 4096 bytes and holds no null character. -/
def check (path : Text) : Except FileError Unit :=
  if path.contains '\x00' then .error .nullCharacter
  else if path.isEmpty then .error .notFound
  else if 4095 < (Utf8.encode path).length then .error .nameTooLong
  else .ok ()

/-- The beginnings of a list of parts that is given from the last to the first: without the last
part, without the last two, and so on while a part is left. -/
def beginnings : List Text → List (List Text)
  | [] => []
  | [_] => []
  | _ :: parts => parts.reverse :: beginnings parts

/-- The paths of the directories above a path, the nearest first. Parts that lead nowhere count for
nothing. -/
def ancestors (parts : List Text) : List (List Text) :=
  beginnings (parts.filter fun part => part ≠ here).reverse

end BooleanSearch.Path
