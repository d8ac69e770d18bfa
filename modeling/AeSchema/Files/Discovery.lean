import AeSchema.Diagnostic.Basic
import AeSchema.Files.Disk

/-! Finding schema files and reading them. -/

namespace AeSchema.Files

variable {m : Type → Type} [Monad m]

def isSourceChain (names : List FileName) : Bool :=
  names.getLast?.any FileName.isSource

/-- Names are compared one by one, each byte by byte. -/
def chainLe (first second : List FileName) : Bool :=
  decide (first ≤ second)

def SearchFailure.reason (failure : SearchFailure) (root : Path) : String :=
  "IO error for operation on " ++ (root.join failure.below).display ++ ": " ++
    failure.error.message

/-- A file stands for itself, whatever its name; a directory for the schema files below it. -/
def discover (disk : Disk m) (root : Path) : m (Except Diagnostic (List Path)) := do
  if ← disk.isFile root then return .ok [root]
  match ← disk.filesBelow root with
  | .ok found => return .ok (((found.filter isSourceChain).mergeSort chainLe).map root.join)
  | .error failure => return .error (.unreadable root.display (failure.reason root))

def standardInputName : String := "<stdin>"

def Path.isHyphen (path : Path) : Bool :=
  match path.segments with
  | [] => false
  | first :: rest =>
      first == utf8 "-" && rest.all fun segment => segment == [] || segment == FileName.here

def decodeSource (name : String) (content : ByteArray) : Except Diagnostic SourceText :=
  match String.fromUTF8? content with
  | some text => .ok ⟨name, text⟩
  | none => .error (.unreadable name "stream did not contain valid UTF-8")

def readSource (disk : Disk m) (path : Path) : m (Except Diagnostic SourceText) := do
  if path.isHyphen then return decodeSource standardInputName (← disk.standardInput)
  match ← disk.read path with
  | .ok content => return decodeSource path.display content
  | .error error => return .error (.unreadable path.display error.message)

end AeSchema.Files
