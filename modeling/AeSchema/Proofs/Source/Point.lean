import AeSchema.Source.Located
import AeSchema.Token.Basic

/-! Points of a text: where a character or a token starts, for people and for tools at once. -/

namespace AeSchema.Source

structure Point where
  location : Location
  offset : Nat
  deriving DecidableEq, Repr

namespace Point

def start : Point := ⟨.start, 0⟩

def after (point : Point) (text : List Char) : Point :=
  ⟨point.location.after text, point.offset + byteSize text⟩

def char (point : Point) (c : Char) : LocatedChar :=
  ⟨c, point.location, point.offset⟩

def chars (point : Point) (text : List Char) : List LocatedChar :=
  locateFrom point.location point.offset text

def span (point : Point) (text : List Char) : Span :=
  ⟨point.offset, (point.after text).offset⟩

def token (point : Point) (kind : TokenKind) (value : String) (spelled : List Char) : Token :=
  ⟨value, kind, point.location, point.span spelled⟩

@[simp]
theorem after_nil (point : Point) : point.after [] = point := rfl

theorem after_append (point : Point) (first second : List Char) :
    point.after (first ++ second) = (point.after first).after second := by
  simp [after, Location.after_append, byteSize_append, Nat.add_assoc]

theorem after_cons (point : Point) (c : Char) (text : List Char) :
    point.after (c :: text) = (point.after [c]).after text :=
  after_append point [c] text

@[simp]
theorem after_offset (point : Point) (text : List Char) :
    (point.after text).offset = point.offset + byteSize text := rfl

@[simp]
theorem start_offset : start.offset = 0 := rfl

@[simp]
theorem chars_nil (point : Point) : point.chars [] = [] := rfl

@[simp]
theorem chars_cons (point : Point) (c : Char) (text : List Char) :
    point.chars (c :: text) = point.char c :: (point.after [c]).chars text := rfl

@[simp]
theorem length_chars (point : Point) (text : List Char) :
    (point.chars text).length = text.length := by
  induction text generalizing point with
  | nil => rfl
  | cons c rest ih => simp [ih]

@[simp]
theorem char_char (point : Point) (c : Char) : (point.char c).char = c := rfl

@[simp]
theorem char_location (point : Point) (c : Char) : (point.char c).location = point.location := rfl

@[simp]
theorem char_offset (point : Point) (c : Char) : (point.char c).offset = point.offset := rfl

theorem char_span (point : Point) (c : Char) : (point.char c).span = point.span [c] := by
  simp [LocatedChar.span, span, byteSize]

end Point

theorem locate_eq_chars (text : String) : locate text = Point.start.chars text.toList :=
  locate_eq text

theorem byteSize_pos {text : List Char} (nonempty : text ≠ []) : 0 < byteSize text := by
  cases text with
  | nil => exact absurd rfl nonempty
  | cons c rest =>
      have positive := c.utf8Size_pos
      simp only [byteSize]
      omega

end AeSchema.Source
