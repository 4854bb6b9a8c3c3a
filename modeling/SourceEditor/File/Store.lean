import SourceEditor.File.Path

/-!
# File stores

What the program needs of a file system, as a class of monads: a program over `FileStore m` runs on
real files and, for reasoning about it, on a file system that is a value.
-/

namespace SourceEditor

/-- Why a file operation failed. -/
inductive FileError where
  | notFound
  | alreadyExists
  | notDirectory
  | isDirectory
  | nameTooLong
  /-- The path has a NUL character, which no name can have. -/
  | nulCharacter
  /-- The bytes of the file are no text. -/
  | notText
  | other (description : String)
  deriving DecidableEq, Repr

/-- The text shown for a failed file operation. -/
def FileError.message : FileError → String
  | .notFound => "No such file or directory (os error 2)"
  | .alreadyExists => "File exists (os error 17)"
  | .notDirectory => "Not a directory (os error 20)"
  | .isDirectory => "Is a directory (os error 21)"
  | .nameTooLong => "File name too long (os error 36)"
  | .nulCharacter => "file name contained an unexpected NUL byte"
  | .notText => "stream did not contain valid UTF-8"
  | .other description => description

/-- Operations on files. -/
class FileStore (m : Type → Type) where
  /-- The text of a file. -/
  readText : Path → m (Except FileError (List Char))
  /-- Whether there is a file or a directory. -/
  isPresent : Path → m Bool
  /-- Replaces the text of a file, which is made if it is missing. -/
  writeText : Path → List Char → m (Except FileError Unit)
  /-- Makes an empty file if it is missing. -/
  ensureFile : Path → m (Except FileError Unit)
  /-- Makes a directory and those it lies in, as far as they are missing. -/
  ensureDirectory : Path → m (Except FileError Unit)
  /-- The absolute path, without links and dots, of what is there. -/
  absolute : Path → m (Except FileError Path)

end SourceEditor
