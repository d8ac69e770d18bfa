import AeSchema.Diagnostic.Report
import AeSchema.Proofs.Text.Json
import AeSchema.Proofs.Text.Lines

/-! Snippets: the lines of a text around a place, each behind its own number, and a pointer below
the line of the place. -/

namespace AeSchema

open Source Text

section Trim

theorem trimEnd_concat (text : List Char) (c : Char) :
    trimEnd (text ++ [c]) = if isBlank c then trimEnd text else text ++ [c] := by
  by_cases blank : isBlank c = true
  · simp [trimEnd, blank]
  · simp [trimEnd, blank]

theorem trimEnd_append_cons {c : Char} (visible : isBlank c = false) (front rest : List Char) :
    ∃ kept, trimEnd (front ++ c :: rest) = front ++ c :: kept := by
  induction rest using List.reverseRecOn with
  | nil => exact ⟨[], by rw [trimEnd_concat, if_neg (by simp [visible])]⟩
  | append_singleton rest last ih =>
      obtain ⟨kept, trimmed⟩ := ih
      rw [← List.cons_append, ← List.append_assoc, trimEnd_concat]
      by_cases blank : isBlank last = true
      · exact ⟨kept, by rw [if_pos blank, trimmed]⟩
      · exact ⟨rest ++ [last], by rw [if_neg blank, List.append_assoc, List.cons_append]⟩

end Trim

def Numbered (number : Nat) (line : List Char) : Prop :=
  ∃ indent rest, line =
    List.replicate indent ' ' ++ (Nat.toDigits 10 number ++ ' ' :: '|' :: rest)

/-- A caret with blanks and a bar in front of it, dashes and a word behind it. -/
def IsPointer (line : List Char) : Prop :=
  ∃ indent gap dashes, line =
    List.replicate indent ' ' ++ '|' :: (List.replicate gap ' ' ++
      '^' :: (List.replicate dashes '-' ++ " here".toList))

section Numbers

variable {number other width : Nat} {line : List Char}

theorem indent_append_inj {first second : Nat} {rest more : List Char}
    (restOther : ∀ c ∈ rest.head?, c ≠ ' ') (moreOther : ∀ c ∈ more.head?, c ≠ ' ')
    (same : List.replicate first ' ' ++ rest = List.replicate second ' ' ++ more) :
    rest = more := by
  have blanks (count : Nat) : ∀ c ∈ List.replicate count ' ', (c == ' ') = true := by simp
  have visible {back : List Char} (other : ∀ c ∈ back.head?, c ≠ ' ') :
      ∀ c ∈ back.head?, (c == ' ') = false := by simpa using other
  exact (splits_unique (blanks first) (blanks second) (visible restOther) (visible moreOther)
    same).2

theorem Numbered.unique (numbered : Numbered number line) (also : Numbered other line) :
    number = other := by
  have visible (number : Nat) (rest : List Char) :
      ∀ c ∈ (Nat.toDigits 10 number ++ rest).head?, c ≠ ' ' := by
    obtain ⟨first, head, digit⟩ := Json.head?_digits number rest
    rw [head]
    rintro c ⟨rfl⟩ rfl
    exact absurd digit (by decide)
  obtain ⟨indent, rest, rfl⟩ := numbered
  obtain ⟨otherIndent, more, same⟩ := also
  have shown := indent_append_inj (visible number _) (visible other _) same
  exact (Json.digits_append_inj (Json.ends_cons rfl _) (Json.ends_cons rfl _) shown).1

theorem IsPointer.not_numbered (pointer : IsPointer line) (number : Nat) :
    ¬Numbered number line := by
  obtain ⟨indent, gap, dashes, rfl⟩ := pointer
  rintro ⟨otherIndent, rest, same⟩
  obtain ⟨first, head, digit⟩ := Json.head?_digits number (' ' :: '|' :: rest)
  have shown := indent_append_inj (by simp) ?_ same
  · rw [← shown, List.head?_cons, Option.some.injEq] at head
    exact absurd digit (by rw [← head]; decide)
  · rw [head]
    rintro c ⟨rfl⟩ rfl
    exact absurd digit (by decide)

end Numbers

section Gutter

variable {width number : Nat}

theorem length_padLeft {text : List Char} (fits : text.length ≤ width) :
    (padLeft width text).length = width := by
  rw [padLeft, List.length_append, List.length_replicate]
  omega

theorem length_toDigits_mono {first second : Nat} (le : first ≤ second) :
    (Nat.toDigits 10 first).length ≤ (Nat.toDigits 10 second).length := by
  have positive := Nat.length_toDigits_pos (b := 10) (n := second)
  rw [Nat.length_toDigits_le_iff (by decide) positive]
  have bound := (Nat.length_toDigits_le_iff (n := second) (by decide) positive).mp le_rfl
  omega

theorem numberedLine_append_cons {c : Char} (visible : isBlank c = false)
    (width number : Nat) (front rest : List Char) :
    ∃ kept, numberedLine width number (front ++ c :: rest) =
      padLeft width (Nat.toDigits 10 number) ++ [' ', '|', ' '] ++ front ++ c :: kept := by
  rw [numberedLine, ← List.append_assoc]
  exact trimEnd_append_cons visible _ rest

theorem numbered_numberedLine (width number : Nat) (line : List Char) :
    Numbered number (numberedLine width number line) := by
  obtain ⟨kept, shown⟩ := trimEnd_append_cons (c := '|') (by decide)
    (padLeft width (Nat.toDigits 10 number) ++ [' ']) (' ' :: line)
  refine ⟨width - (Nat.toDigits 10 number).length, kept, ?_⟩
  rw [numberedLine]
  simpa [padLeft] using shown

theorem isPointer_pointerLine (width col marked : Nat) :
    IsPointer (pointerLine width col marked) := by
  refine ⟨width + 1, 1 + (col - 1), marked - 1, ?_⟩
  simp [pointerLine, List.replicate_add, List.replicate_one]

theorem idxOf_pointerLine (width col marked : Nat) :
    (pointerLine width col marked).idxOf '^' = width + 3 + (col - 1) := by
  have absent : '^' ∉ List.replicate width ' ' ++ [' ', '|', ' '] ++
      List.replicate (col - 1) ' ' := by
    simp
  rw [pointerLine, List.append_assoc, List.append_assoc, List.idxOf_append_of_notMem absent]
  simp only [List.length_append, List.length_replicate, List.length_cons, List.length_nil,
    List.cons_append, List.idxOf_cons_self, Nat.add_zero]

end Gutter

def numberedLines (width first : Nat) (shown : List (List Char)) : List (List Char) :=
  (shown.zipIdx first).map fun (line, number) => numberedLine width number line

theorem mem_numberedLines {width first : Nat} {shown : List (List Char)} {line : List Char}
    (member : line ∈ numberedLines width first shown) :
    ∃ number, first ≤ number ∧ number < first + shown.length ∧ Numbered number line := by
  obtain ⟨⟨stretch, number⟩, inside, rfl⟩ := List.mem_map.mp member
  have bounds := List.mem_zipIdx inside
  exact ⟨number, bounds.1, bounds.2.1, numbered_numberedLine width number stretch⟩

theorem flatMap_eq_numberedLines {width first line : Nat} {pointer : List (List Char)}
    (shown : List (List Char)) (other : line < first ∨ first + shown.length ≤ line) :
    ((shown.zipIdx first).flatMap fun (stretch, number) =>
      numberedLine width number stretch :: if number = line then pointer else []) =
    numberedLines width first shown := by
  induction shown generalizing first with
  | nil => rfl
  | cons stretch shown ih =>
      rw [List.length_cons] at other
      have later := @ih (first + 1) (by omega)
      have different : first ≠ line := by omega
      simp only [List.zipIdx_cons, List.flatMap_cons, if_neg different]
      rw [later]
      rfl

structure Snippet where
  above : List (List Char)
  numbered : List Char
  pointer : List Char
  below : List (List Char)

namespace Snippet

def shown (snippet : Snippet) : List (List Char) :=
  snippet.above ++ snippet.numbered :: snippet.pointer :: snippet.below

def text (snippet : Snippet) : String :=
  String.join (snippet.shown.map fun line => String.ofList line ++ "\n")

/-- A line with up to two lines above it and up to two below; the gutter is as wide as the last of
their numbers. -/
def around (above : List (List Char)) (line : List Char) (below : List (List Char))
    (col marked : Nat) : Snippet :=
  let number := above.length + 1
  let shownBelow := below.take contextLines
  let width := (Nat.toDigits 10 (number + shownBelow.length)).length
  { above := numberedLines width (above.length - contextLines + 1)
      (above.drop (above.length - contextLines))
    numbered := numberedLine width number line
    pointer := pointerLine width col marked
    below := numberedLines width (number + 1) shownBelow }

theorem around_not_numbered (above : List (List Char)) (line : List Char)
    (below : List (List Char)) (col marked : Nat) :
    let snippet := around above line below col marked
    ∀ other ∈ snippet.above ++ snippet.pointer :: snippet.below,
      ¬Numbered (above.length + 1) other := by
  intro snippet other member numbered
  rcases List.mem_append.mp member with earlier | later
  · obtain ⟨number, _, upper, also⟩ := mem_numberedLines earlier
    have same := numbered.unique also
    rw [List.length_drop] at upper
    omega
  rcases List.mem_cons.mp later with rfl | behind
  · exact (isPointer_pointerLine _ _ _).not_numbered _ numbered
  · obtain ⟨number, lower, _, also⟩ := mem_numberedLines behind
    have same := numbered.unique also
    omega

end Snippet

theorem snippet?_eq {source line : List Char} {above below : List (List Char)} {place : Location}
    (split : lines source = above ++ line :: below) (count : place.line = above.length + 1)
    (span : Span) :
    snippet? source place span =
      some (Snippet.around above line below place.col (markedWidth source span)).shown := by
  let first := above.length - contextLines
  let shownBelow := below.take contextLines
  have total : (lines source).length = place.line + below.length := by
    rw [split, List.length_append, List.length_cons]
    omega
  have inside : 1 ≤ place.line ∧ place.line ≤ (lines source).length := by omega
  have firstLine : max 1 (place.line - contextLines) = first + 1 := by
    simp only [contextLines, first]
    omega
  have lastLine : min (place.line + contextLines) (lines source).length =
      place.line + shownBelow.length := by
    rw [total, List.length_take]
    omega
  have window : ((lines source).drop first).take
      (place.line + shownBelow.length + 1 - (first + 1)) =
      above.drop first ++ line :: shownBelow := by
    have size : place.line + shownBelow.length + 1 - (first + 1) =
        (above.drop first ++ line :: shownBelow).length := by
      rw [List.length_append, List.length_drop, List.length_cons]
      omega
    have front : line :: shownBelow <+: line :: below :=
      List.cons_prefix_cons.mpr ⟨rfl, List.take_prefix contextLines below⟩
    rw [split, List.drop_append_of_le_length (by omega), size]
    exact (List.prefix_iff_eq_take.mp ((List.prefix_append_right_inj _).mpr front)).symm
  have middle : first + 1 + (above.drop first).length = place.line := by
    rw [List.length_drop]
    omega
  simp only [snippet?, if_pos inside, firstLine, lastLine, Nat.add_sub_cancel, window]
  rw [List.zipIdx_append, List.flatMap_append, middle, List.zipIdx_cons, List.flatMap_cons,
    flatMap_eq_numberedLines _ (by omega), flatMap_eq_numberedLines _ (by omega), if_pos rfl, count]
  rfl

end AeSchema
