import AeSchema.Proofs.Diagnostic.Marked
import AeSchema.Proofs.Diagnostic.Pointer
import Mathlib.Data.String.Basic

/-! The window that a report opens on its source: which lines it shows, and how, for every
diagnostic that can be put together. -/

namespace AeSchema

open Source Text

/-- A line behind its number, which stands to the right in a field of `width` characters, without
the white space at its end. -/
def IsRow (width number : Nat) (line row : List Char) : Prop :=
  ∃ indent blanks, indent + (Nat.toDigits 10 number).length = width ∧
    List.replicate indent ' ' ++ Nat.toDigits 10 number ++ [' ', '|', ' '] ++ line =
      row ++ blanks ∧
    Blank blanks ∧ ∀ c ∈ row.getLast?, isBlank c = false

/-- The rows are those of the lines from two above the place to two below it, as far as there are
lines, and the pointer follows the row of the place. Every number is that of a line, and the gutter
is as wide as the last of them. -/
structure Snippet.Window (snippet : Snippet) (all : List (List Char)) (place : Location)
    (width marked : Nat) : Prop where
  rows : List.Forall₂ (fun number row => 1 ≤ number ∧
      ∃ line, all[number - 1]? = some line ∧ IsRow width number line row)
    (List.range' (max 1 (place.line - 2))
      (min (place.line + 2) all.length + 1 - max 1 (place.line - 2)))
    (snippet.above ++ snippet.numbered :: snippet.below)
  gutter : width = (Nat.toDigits 10 (min (place.line + 2) all.length)).length
  placed : max 1 (place.line - 2) + snippet.above.length = place.line
  pointer : snippet.pointer = List.replicate width ' ' ++ [' ', '|', ' '] ++
    List.replicate (max 1 place.col - 1) ' ' ++ '^' :: List.replicate (marked - 1) '-' ++
    " here".toList

namespace Diagnostic

def headline (diagnostic : Diagnostic) : String :=
  let place := match diagnostic.location? with
    | some place => " " ++ place.display
    | none => ""
  "Error" ++ place ++ ": " ++ diagnostic.message ++ "\n"

def quotation (diagnostic : Diagnostic) : String :=
  match diagnostic.text? with
  | some text => "    " ++ text ++ "\n"
  | none => ""

theorem heading_eq (diagnostic : Diagnostic) :
    diagnostic.heading = diagnostic.headline ++ diagnostic.quotation := rfl

/-- The diagnostic says where it belongs, and its source has a line there. -/
structure Opens (diagnostic : Diagnostic) (place : Location) (span : Span) (source : SourceText) :
    Prop where
  location : diagnostic.location? = some place
  span : diagnostic.span? = some span
  attached : diagnostic.source? = some source
  lower : 1 ≤ place.line
  upper : place.line ≤ (lines source.text.toList).length

end Diagnostic

section Rows

variable {width number first : Nat} {line : List Char} {all shown : List (List Char)}

theorem isRow_numberedLine (fits : (Nat.toDigits 10 number).length ≤ width) (line : List Char) :
    IsRow width number line (numberedLine width number line) := by
  let whole := padLeft width (Nat.toDigits 10 number) ++ [' ', '|', ' '] ++ line
  refine ⟨width - (Nat.toDigits 10 number).length, whole.rtakeWhile isBlank, by omega, ?_, ?_, ?_⟩
  · exact List.rdropWhile_append_rtakeWhile.symm
  · intro c member
    exact List.mem_rtakeWhile_imp member
  · intro c last
    obtain ⟨nonempty, rfl⟩ := List.mem_getLast?_eq_getLast last
    have visible := List.rdropWhile_last_not isBlank whole nonempty
    rwa [Bool.not_eq_true] at visible

theorem numberedLines_append_cons (width first : Nat) (front : List (List Char))
    (line : List Char) (rest : List (List Char)) :
    numberedLines width first (front ++ line :: rest) =
      numberedLines width first front ++ numberedLine width (first + front.length) line ::
        numberedLines width (first + front.length + 1) rest := by
  simp [numberedLines, List.zipIdx_append]

theorem rows_numberedLines (inside : shown <+: all.drop first)
    (fits : (Nat.toDigits 10 (first + shown.length)).length ≤ width) :
    List.Forall₂ (fun number row => 1 ≤ number ∧
        ∃ line, all[number - 1]? = some line ∧ IsRow width number line row)
      (List.range' (first + 1) shown.length) (numberedLines width (first + 1) shown) := by
  induction shown generalizing first with
  | nil => exact .nil
  | cons line shown ih =>
      obtain ⟨rest, split⟩ := inside
      have here : all[first]? = some line := by
        rw [← Nat.add_zero first, ← List.getElem?_drop, ← split]
        rfl
      have later : shown <+: all.drop (first + 1) := by
        refine ⟨rest, ?_⟩
        rw [← List.drop_drop, ← split]
        rfl
      rw [List.length_cons] at fits
      have narrow : (Nat.toDigits 10 (first + 1)).length ≤ width :=
        (length_toDigits_mono (by omega)).trans fits
      refine .cons ⟨Nat.le_add_left 1 first, line, here, isRow_numberedLine narrow line⟩ ?_
      apply ih later
      rwa [Nat.add_assoc, Nat.add_comm 1]

theorem prefix_drop_append_cons {α : Type} {above : List α} {skipped : Nat}
    (le : skipped ≤ above.length) (item : α) (below : List α) (count : Nat) :
    above.drop skipped ++ item :: below.take count <+: (above ++ item :: below).drop skipped := by
  rw [List.drop_append_of_le_length le, List.prefix_append_right_inj, List.cons_prefix_cons]
  exact ⟨rfl, List.take_prefix count below⟩

end Rows

theorem Snippet.window_around {all above below : List (List Char)} {line : List Char}
    {place : Location} (split : all = above ++ line :: below)
    (count : place.line = above.length + 1) (marked : Nat) :
    ∃ width, (around above line below place.col marked).Window all place width marked := by
  let first := above.length - contextLines
  let shown := above.drop first ++ line :: below.take contextLines
  let width := (Nat.toDigits 10 (above.length + 1 + (below.take contextLines).length)).length
  have firstLine : max 1 (place.line - 2) = first + 1 := by
    simp only [first, contextLines]
    omega
  have size : min (place.line + 2) all.length + 1 - (first + 1) = shown.length := by
    simp only [split, shown, first, contextLines, List.length_append, List.length_cons,
      List.length_drop, List.length_take]
    omega
  have inside : shown <+: all.drop first := by
    rw [split]
    exact prefix_drop_append_cons (Nat.sub_le _ _) line below contextLines
  have middle : first + 1 + (above.drop first).length = above.length + 1 := by
    rw [List.length_drop]
    omega
  have together : numberedLines width (first + 1) shown =
      numberedLines width (first + 1) (above.drop first) ++
        numberedLine width (above.length + 1) line ::
          numberedLines width (above.length + 1 + 1) (below.take contextLines) := by
    rw [numberedLines_append_cons, middle]
  have fits : (Nat.toDigits 10 (first + shown.length)).length ≤ width := by
    apply length_toDigits_mono
    simp only [shown, List.length_append, List.length_cons, List.length_drop]
    omega
  refine ⟨width, ?_, ?_, ?_, ?_⟩
  · have rows := rows_numberedLines inside fits
    rw [together] at rows
    rw [firstLine, size]
    exact rows
  · have last : above.length + 1 + (below.take contextLines).length =
        min (place.line + 2) all.length := by
      simp only [split, contextLines, List.length_append, List.length_cons, List.length_take]
      omega
    simp only [width, last]
  · have length : (around above line below place.col marked).above.length =
        (above.drop first).length := by
      simp [around, numberedLines, first]
    rw [firstLine, length]
    omega
  · have indent : max 1 place.col - 1 = place.col - 1 := by omega
    rw [indent]
    simp [around, pointerLine, width]

namespace Diagnostic

variable {diagnostic : Diagnostic} {place : Location} {span : Span} {source : SourceText}

theorem Opens.exists_window (opens : diagnostic.Opens place span source) :
    ∃ snippet width marked,
      diagnostic.report = diagnostic.headline ++ diagnostic.quotation ++ "\n" ++
        Snippet.text snippet ++ diagnostic.advice ∧
      snippet.Window (lines source.text.toList) place width marked ∧
      IsMarkedWidth source.text.toList span marked := by
  let all := lines source.text.toList
  have lower := opens.lower
  have upper : place.line ≤ all.length := opens.upper
  have bound : place.line - 1 < all.length := by omega
  have split : all = all.take (place.line - 1) ++
      all[place.line - 1] :: all.drop (place.line - 1 + 1) := by
    rw [← List.drop_eq_getElem_cons bound, List.take_append_drop]
  have count : place.line = (all.take (place.line - 1)).length + 1 := by
    rw [List.length_take]
    omega
  let marked := markedWidth source.text.toList span
  obtain ⟨width, window⟩ := Snippet.window_around split count marked
  refine ⟨_, width, marked, ?_, window, isMarkedWidth_markedWidth _ span⟩
  rw [← heading_eq]
  exact report_of_snippet opens.location opens.span opens.attached (snippet?_eq split count span)

end Diagnostic

end AeSchema
