/-! # Access to files

What a migration does with files: it reads and writes whole files by their paths, and asks what is
there. Every action can fail, and an error says which action failed and why.
-/

namespace ManifestMigration

/-- What was to be done with a file. -/
inductive FileAction where
  | openFile
  | readFile
  | createFile
  | writeFile
  deriving DecidableEq, Repr

/-- Why an action on a file failed. -/
inductive FileFault where
  | notFound
  | notADirectory
  | isADirectory
  | permissionDenied
  /-- The bytes of the file are no text. -/
  | invalidText
  /-- Another fault, in the words of the file system. -/
  | other (words : String)
  deriving DecidableEq, Repr

def FileFault.message : FileFault → String
  | notFound => "No such file or directory (os error 2)"
  | permissionDenied => "Permission denied (os error 13)"
  | notADirectory => "Not a directory (os error 20)"
  | isADirectory => "Is a directory (os error 21)"
  | invalidText => "stream did not contain valid UTF-8"
  | other words => words

structure FileError where
  path : String
  action : FileAction
  fault : FileFault
  deriving DecidableEq, Repr

def FileAction.message (path : String) : FileAction → String
  | openFile => "failed to open file `" ++ path ++ "`"
  | readFile => "failed to read from file `" ++ path ++ "`"
  | createFile => "failed to create file `" ++ path ++ "`"
  | writeFile => "failed to write to file `" ++ path ++ "`"

def FileError.message (e : FileError) : String :=
  e.action.message e.path ++ ": " ++ e.fault.message

class FileAccess (m : Type → Type) where
  /-- The bytes of a file. -/
  readBytes : String → m (Except FileError ByteArray)
  /-- Make these bytes the whole content of a file. -/
  writeBytes : String → ByteArray → m (Except FileError Unit)
  /-- There is a file at the path, and not a directory. -/
  isFile : String → m Bool
  /-- There is something at the path. -/
  isThere : String → m Bool

/-- The text that the bytes of a file are. -/
def decodeFile (path : String) (bytes : ByteArray) : Except FileError String :=
  match String.fromUTF8? bytes with
  | some text => .ok text
  | none => .error ⟨path, .readFile, .invalidText⟩

variable {m : Type → Type} [Monad m] [FileAccess m]

def readText (path : String) : m (Except FileError String) := do
  return (← FileAccess.readBytes path) >>= decodeFile path

def writeText (path text : String) : m (Except FileError Unit) :=
  FileAccess.writeBytes path text.toUTF8

end ManifestMigration
