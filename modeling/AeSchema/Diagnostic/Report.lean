import AeSchema.Diagnostic.Basic
import AeSchema.Text.Blank
import AeSchema.Text.Lines

/-! Diagnostics as plain text: what is wrong and where, the lines around it with a pointer below
the place, and help. -/

namespace AeSchema

open Source Text

def contextLines : Nat := 2

/-- No text has more bytes. -/
def textLimit : Nat := 0x7fffffffffffffff

def padLeft (width : Nat) (text : List Char) : List Char :=
  List.replicate (width - text.length) ' ' ++ text

/-- The number of characters of `span` on its first line; one if it is empty or no range. -/
def markedWidth (source : List Char) (span : Span) : Nat :=
  match slice? source span with
  | some marked => max 1 (marked.takeWhile (· ≠ '\n')).length
  | none => 1

def numberedLine (width number : Nat) (line : List Char) : List Char :=
  trimEnd (padLeft width (Nat.toDigits 10 number) ++ [' ', '|', ' '] ++ line)

/-- A caret below column `col` and dashes up to `marked` characters. -/
def pointerLine (width col marked : Nat) : List Char :=
  List.replicate width ' ' ++ [' ', '|', ' '] ++ List.replicate (col - 1) ' ' ++
    ['^'] ++ List.replicate (marked - 1) '-' ++ " here".toList

def snippet? (source : List Char) (place : Location) (span : Span) : Option (List (List Char)) :=
  let sourceLines := lines source
  if 1 ≤ place.line ∧ place.line ≤ sourceLines.length then
    let first := max 1 (place.line - contextLines)
    let last := min (place.line + contextLines) sourceLines.length
    let width := (Nat.toDigits 10 last).length
    let shown := (sourceLines.drop (first - 1)).take (last + 1 - first)
    some ((shown.zipIdx first).flatMap fun (line, number) =>
      numberedLine width number line ::
        if number = place.line then
          [pointerLine width place.col (markedWidth source span)]
        else [])
  else none

namespace Diagnostic

def snippetLines (diagnostic : Diagnostic) : List (List Char) :=
  match diagnostic.location?, diagnostic.span?, diagnostic.source? with
  | some place, some span, some source =>
      match snippet? source.text.toList place span with
      | some found => [] :: found
      | none => []
  | _, _, _ => []

/-- The report after its first word; every part ends its line. -/
def reportBody (diagnostic : Diagnostic) : String :=
  let place := match diagnostic.location? with
    | some place => " " ++ place.display
    | none => ""
  let text := match diagnostic.text? with
    | some text => "    " ++ text ++ "\n"
    | none => ""
  let snippet := String.join (diagnostic.snippetLines.map fun line => String.ofList line ++ "\n")
  let help := match diagnostic.help? with
    | some help => "help: " ++ help ++ "\n"
    | none => ""
  place ++ ": " ++ diagnostic.message ++ "\n" ++ text ++ snippet ++ help

def report (diagnostic : Diagnostic) : String :=
  "Error" ++ diagnostic.reportBody

/-- More blanks would stand in front of the pointer than a text can hold. -/
def overflows (diagnostic : Diagnostic) : Bool :=
  match diagnostic.location?, diagnostic.span?, diagnostic.source? with
  | some place, some _, some source =>
      1 ≤ place.line ∧ place.line ≤ (lines source.text.toList).length ∧ textLimit < place.col - 1
  | _, _, _ => false

/-- The report, if a text can hold it. The blanks in front of the pointer are counted before they
are written. -/
def render? (diagnostic : Diagnostic) : Option String :=
  if diagnostic.overflows then none
  else if diagnostic.report.utf8ByteSize ≤ textLimit then some diagnostic.report
  else none

end Diagnostic

end AeSchema
