import AeSchema.Source.Location

/-! Why writing a result failed: the message of the writer and, often, a place in what it wrote. -/

namespace AeSchema

open Source

structure WriteFault where
  message : String
  place? : Option Location
  deriving DecidableEq, Repr

namespace WriteFault

/-- Lines and columns are told in 64 bits. -/
def placeLimit : Nat := UInt64.size

def splitNumber? (text : List Char) : Option (List Char × Nat) :=
  let digits := (text.reverse.takeWhile Char.isDigit).reverse
  let number := digits.foldl (fun value digit => 10 * value + (digit.toNat - '0'.toNat)) 0
  if digits = [] ∨ placeLimit ≤ number then none
  else some (text.take (text.length - digits.length), number)

def splitPlace? (text : List Char) : Option (List Char × Location) := do
  let (text, col) ← splitNumber? text
  let text ← " column ".toList.isSuffixOf? text
  let (text, line) ← splitNumber? text
  let text ← " at line ".toList.isSuffixOf? text
  return (text, ⟨line, col⟩)

/-- A place on line 0 is none. -/
def ofText (text : String) : WriteFault :=
  match splitPlace? text.toList with
  | none => ⟨text, none⟩
  | some (message, place) =>
      ⟨String.ofList message, if place.line = 0 then none else some place⟩

def display (fault : WriteFault) : String :=
  match fault.place? with
  | none => fault.message
  | some place =>
      fault.message ++ " at line " ++ Nat.repr place.line ++ " column " ++ Nat.repr place.col

end WriteFault

end AeSchema
