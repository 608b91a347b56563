import BooleanSearch.Text.Quoted

/-!
# Faults of the file system

Why an operation on files fails, with the messages that a user sees.
-/

namespace BooleanSearch

/-- Why an operation on files fails. -/
inductive FileError where
  | notFound
  | alreadyExists
  | isDirectory
  | notDirectory
  /-- A name is longer than a directory can hold. -/
  | nameTooLong
  /-- A path holds the character that ends texts of the system. -/
  | nullCharacter
  /-- A path ends in no name, so nothing can be put there. -/
  | busy
  | directoryNotEmpty
  /-- More links stand on the way of a path than are followed. -/
  | tooManyLinks
  /-- A fault of a file that the user did not name, with the path of that file. -/
  | atPath (fault : FileError) (path : Text)
  | other (message : Text)
  deriving DecidableEq, Repr

/-- The message of a fault. -/
def FileError.message : FileError → Text
  | .notFound => "No such file or directory (os error 2)".toList
  | .alreadyExists => "File exists (os error 17)".toList
  | .isDirectory => "Is a directory (os error 21)".toList
  | .notDirectory => "Not a directory (os error 20)".toList
  | .nameTooLong => "File name too long (os error 36)".toList
  | .nullCharacter => "file name contained an unexpected NUL byte".toList
  | .busy => "Device or resource busy (os error 16)".toList
  | .directoryNotEmpty => "Directory not empty (os error 39)".toList
  | .tooManyLinks => "Too many levels of symbolic links (os error 40)".toList
  | .atPath fault path => fault.message ++ " at path ".toList ++ Text.quoted path
  | .other message => message

end BooleanSearch
