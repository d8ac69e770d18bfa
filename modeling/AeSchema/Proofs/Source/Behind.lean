import AeSchema.Proofs.Source.Point
import AeSchema.Token.Scan
import Mathlib.Data.List.DropRight

/-! Places behind another text: the lines, columns and bytes that something has once that text is
put in front of its own. -/

namespace AeSchema

namespace Source

def lastLine (text : List Char) : List Char :=
  text.rtakeWhile (· != '\n')

/-- Only the first line is moved to the right, by the line that it now continues. -/
def Location.behind (place : Location) (text : List Char) : Location :=
  ⟨place.line + text.count '\n',
    if place.line = 1 then place.col + (lastLine text).length else place.col⟩

def Span.behind (span : Span) (text : List Char) : Span :=
  ⟨span.start + byteSize text, span.stop + byteSize text⟩

def LocatedChar.behind (c : LocatedChar) (text : List Char) : LocatedChar :=
  ⟨c.char, c.location.behind text, c.offset + byteSize text⟩

def Point.behind (point : Point) (text : List Char) : Point :=
  ⟨point.location.behind text, point.offset + byteSize text⟩

end Source

open Source

def Token.behind (token : Token) (text : List Char) : Token :=
  { token with location := token.location.behind text, span := token.span.behind text }

def ScanFailure.behind (failure : ScanFailure) (text : List Char) : ScanFailure :=
  ⟨failure.fault, failure.culprit.behind text⟩

namespace Source

theorem lastLine_concat (text : List Char) (c : Char) :
    lastLine (text ++ [c]) = if c = '\n' then [] else lastLine text ++ [c] := by
  by_cases feed : c = '\n' <;> simp [lastLine, feed]

theorem Location.start_after (text : List Char) :
    start.after text = ⟨1 + text.count '\n', 1 + (lastLine text).length⟩ := by
  induction text using List.reverseRecOn with
  | nil => rfl
  | append_singleton text c ih =>
      rw [after_append, ih, lastLine_concat, List.count_append]
      by_cases feed : c = '\n'
      · simp [after, next, feed, Nat.add_assoc]
      · simp [after, next, feed, Nat.add_assoc]

theorem Location.next_behind {place : Location} (positive : 0 < place.line) (text : List Char)
    (c : Char) : (place.behind text).next c = (place.next c).behind text := by
  by_cases feed : c = '\n'
  · have later : place.line + 1 ≠ 1 := by omega
    simp only [next, feed, if_true, behind, if_neg later, Location.mk.injEq, and_true]
    omega
  · simp only [next, feed, if_false, behind, Location.mk.injEq, true_and]
    split <;> omega

theorem Location.next_line_pos {place : Location} (positive : 0 < place.line) (c : Char) :
    0 < (place.next c).line := by
  rw [next]
  split
  · exact Nat.succ_pos place.line
  · exact positive

theorem Location.after_line_pos {place : Location} (positive : 0 < place.line) (text : List Char) :
    0 < (place.after text).line := by
  induction text generalizing place with
  | nil => exact positive
  | cons c rest ih => exact ih (next_line_pos positive c)

theorem Location.after_behind {place : Location} (positive : 0 < place.line)
    (text more : List Char) : (place.behind text).after more = (place.after more).behind text := by
  induction more generalizing place with
  | nil => rfl
  | cons c rest ih =>
      rw [after, List.foldl_cons, next_behind positive]
      exact ih (next_line_pos positive c)

theorem Point.after_behind {point : Point} (positive : 0 < point.location.line)
    (text more : List Char) : (point.behind text).after more = (point.after more).behind text := by
  simp only [behind, after, Location.after_behind positive, Point.mk.injEq, true_and]
  omega

theorem Point.start_behind (text : List Char) : start.behind text = start.after text := by
  have line := Location.start_after text
  simp only [behind, after, start, Point.mk.injEq, and_true]
  exact line.symm

theorem Point.char_behind (point : Point) (text : List Char) (c : Char) :
    (point.behind text).char c = (point.char c).behind text := rfl

theorem Point.token_behind (point : Point) (text : List Char) (kind : TokenKind) (value : String)
    (spelled : List Char) :
    (point.behind text).token kind value spelled =
      (point.token kind value spelled).behind text := by
  simp only [token, Token.behind, span, Span.behind, behind, after_offset, Token.mk.injEq,
    Span.mk.injEq, true_and]
  omega

end Source

end AeSchema
