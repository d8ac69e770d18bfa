/-! Places in a source text: line and column for people, byte ranges for tools. -/

namespace AeSchema.Source

/-- Line and column of a character, both counted from one. -/
structure Location where
  line : Nat
  col : Nat
  deriving DecidableEq, Repr

namespace Location

def start : Location := ⟨1, 1⟩

/-- The place after `c`; a line feed belongs to the line it ends. -/
def next (place : Location) (c : Char) : Location :=
  if c = '\n' then ⟨place.line + 1, 1⟩ else ⟨place.line, place.col + 1⟩

def after (place : Location) (text : List Char) : Location :=
  text.foldl next place

def display (place : Location) : String :=
  Nat.repr place.line ++ ":" ++ Nat.repr place.col

end Location

/-- The bytes from `start` up to, and without, `stop`. -/
structure Span where
  start : Nat
  stop : Nat
  deriving DecidableEq, Repr

namespace Span

/-- A reversed span covers nothing. -/
def size (span : Span) : Nat :=
  span.stop - span.start

def isEmpty (span : Span) : Bool :=
  span.size == 0

end Span

def byteSize : List Char → Nat
  | [] => 0
  | c :: rest => c.utf8Size + byteSize rest

theorem byteSize_append (first second : List Char) :
    byteSize (first ++ second) = byteSize first + byteSize second := by
  induction first with
  | nil => simp [byteSize]
  | cons c rest ih => simp [byteSize, ih, Nat.add_assoc]

theorem Location.after_append (place : Location) (first second : List Char) :
    place.after (first ++ second) = (place.after first).after second := by
  simp [Location.after]

/-- Splits off the first `size` bytes, unless that would cut a character or pass the end; `front`
is what was split off before, latest first. -/
def splitBytes? (size : Nat) (text : List Char) (front : List Char) :
    Option (List Char × List Char) :=
  match size, text with
  | 0, rest => some (front.reverse, rest)
  | _ + 1, [] => none
  | size + 1, c :: rest =>
      if c.utf8Size ≤ size + 1 then splitBytes? (size + 1 - c.utf8Size) rest (c :: front) else none

/-- The text of `span`, if it is a range of whole characters of `text`. -/
def slice? (text : List Char) (span : Span) : Option (List Char) :=
  if span.start ≤ span.stop then do
    let (_, rest) ← splitBytes? span.start text []
    let (front, _) ← splitBytes? span.size rest []
    return front
  else none

end AeSchema.Source
