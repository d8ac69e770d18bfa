import AeSchema.Text.Lossy
import AeSchema.Text.Split

/-! Paths and file names as the system knows them: any bytes, with slashes between names. -/

namespace AeSchema.Files

open Text

abbrev FileName := List UInt8

structure Path where
  bytes : List UInt8
  deriving DecidableEq, Repr

def slash : UInt8 := 0x2f

def dot : UInt8 := 0x2e

def hyphen : UInt8 := 0x2d

def utf8 (text : String) : List UInt8 :=
  text.toUTF8.toList

def displayBytes (bytes : List UInt8) : String :=
  match String.fromUTF8? ⟨bytes.toArray⟩ with
  | some text => text
  | none => lossy bytes

namespace FileName

def here : FileName := [dot]

def parent : FileName := [dot, dot]

/-- What follows the last dot, unless the dot is missing or comes first. -/
def extension? (name : FileName) : Option (List UInt8) :=
  match name.reverse.dropWhile (· ≠ dot) with
  | [] | [_] => none
  | _ :: _ :: _ => some (name.reverse.takeWhile (· ≠ dot)).reverse

end FileName

namespace Path

def ofString (text : String) : Path := ⟨utf8 text⟩

def display (path : Path) : String :=
  displayBytes path.bytes

def isAbsolute (path : Path) : Bool :=
  path.bytes.head? == some slash

def segments (path : Path) : List (List UInt8) :=
  splitAtEach slash path.bytes

def names (path : Path) : List FileName :=
  path.segments.filter fun segment => segment ≠ [] ∧ segment ≠ FileName.here

/-- The name of what the path leads to; the way up and the place itself have none. -/
def lastName? (path : Path) : Option FileName :=
  path.names.getLast?.filter (· ≠ FileName.parent)

def join (path : Path) (below : List FileName) : Path :=
  let tail := [slash].intercalate below
  if below = [] then path
  else if path.bytes.getLast? = some slash then ⟨path.bytes ++ tail⟩
  else ⟨path.bytes ++ slash :: tail⟩

end Path

def sourceExtension : String := "ae"

def FileName.isSource (name : FileName) : Bool :=
  name.extension? == some (utf8 sourceExtension)

def Path.isSource (path : Path) : Bool :=
  path.lastName?.any FileName.isSource

end AeSchema.Files
