import AeSchema.Source.Location

/-! A source text as a list of characters, each with its place. -/

namespace AeSchema.Source

structure LocatedChar where
  char : Char
  location : Location
  offset : Nat
  deriving DecidableEq, Repr

def LocatedChar.span (c : LocatedChar) : Span :=
  ⟨c.offset, c.offset + c.char.utf8Size⟩

def locateFrom (place : Location) (offset : Nat) : List Char → List LocatedChar
  | [] => []
  | c :: rest => ⟨c, place, offset⟩ :: locateFrom (place.next c) (offset + c.utf8Size) rest

/-- As `locateFrom`, in a loop that keeps what it found so far, latest first. -/
def locateOnto (found : List LocatedChar) (place : Location) (offset : Nat) :
    List Char → List LocatedChar
  | [] => found.reverse
  | c :: rest =>
      locateOnto (⟨c, place, offset⟩ :: found) (place.next c) (offset + c.utf8Size) rest

def locate (text : String) : List LocatedChar :=
  locateOnto [] .start 0 text.toList

theorem locateOnto_eq (found : List LocatedChar) (place : Location) (offset : Nat)
    (text : List Char) :
    locateOnto found place offset text = found.reverse ++ locateFrom place offset text := by
  induction text generalizing found place offset with
  | nil => simp [locateOnto, locateFrom]
  | cons c rest ih => simp [locateOnto, locateFrom, ih]

theorem locate_eq (text : String) : locate text = locateFrom .start 0 text.toList := by
  simp [locate, locateOnto_eq]

theorem map_char_locateFrom (place : Location) (offset : Nat) (text : List Char) :
    (locateFrom place offset text).map (·.char) = text := by
  induction text generalizing place offset with
  | nil => rfl
  | cons c rest ih => simp [locateFrom, ih]

end AeSchema.Source
