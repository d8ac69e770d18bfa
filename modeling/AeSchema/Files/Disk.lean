import AeSchema.Files.Path

/-! What the library asks about files, and the answers that are no answer. -/

namespace AeSchema.Files

inductive SystemError where
  | notFound
  | notDirectory
  | isDirectory
  | nameTooLong
  | tooManyLinks
  | zeroByte
  | other (text : String)
  deriving DecidableEq, Repr

def SystemError.message : SystemError → String
  | notFound => "No such file or directory (os error 2)"
  | notDirectory => "Not a directory (os error 20)"
  | isDirectory => "Is a directory (os error 21)"
  | nameTooLong => "File name too long (os error 36)"
  | tooManyLinks => "Too many levels of symbolic links (os error 40)"
  | zeroByte => "file name contained an unexpected NUL byte"
  | other text => text

/-- A directory that could not be looked into, by the names that lead there from where the search
began. -/
structure SearchFailure where
  below : List FileName
  error : SystemError
  deriving DecidableEq, Repr

inductive EntryKind where
  | file
  | directory
  | link
  | other
  deriving DecidableEq, Repr

structure Entry where
  /-- From the directory that is walked. -/
  names : List FileName
  kind : EntryKind
  deriving DecidableEq, Repr

/-- The questions. All of them follow links on the way to the path and at its end. -/
structure Disk (m : Type → Type) where
  isFile : Path → m Bool
  read : Path → m (Except SystemError ByteArray)
  /-- What lies at any depth below a directory, in any order. Links below the directory are not
  followed. -/
  walk : Path → m (Except SearchFailure (List Entry))
  standardInput : m ByteArray

variable {m : Type → Type} [Monad m]

/-- The regular files among what lies below a directory, each by the names that lead there. -/
def Disk.filesBelow (disk : Disk m) (path : Path) :
    m (Except SearchFailure (List (List FileName))) := do
  match ← disk.walk path with
  | .ok entries => return .ok ((entries.filter (·.kind = .file)).map (·.names))
  | .error failure => return .error failure

end AeSchema.Files
