import AeSchema.Proofs.Diagnostic.Located
import AeSchema.Proofs.Diagnostic.Snippet

/-! Reports point at what is wrong: below the line of the place stands a caret, under the very
character that the place is about. -/

namespace AeSchema

open Source Text

namespace Diagnostic

def heading (diagnostic : Diagnostic) : String :=
  let place := match diagnostic.location? with
    | some place => " " ++ place.display
    | none => ""
  let text := match diagnostic.text? with
    | some text => "    " ++ text ++ "\n"
    | none => ""
  "Error" ++ place ++ ": " ++ diagnostic.message ++ "\n" ++ text

def advice (diagnostic : Diagnostic) : String :=
  match diagnostic.help? with
  | some help => "help: " ++ help ++ "\n"
  | none => ""

theorem report_eq (diagnostic : Diagnostic) :
    diagnostic.report = diagnostic.heading ++
      String.join (diagnostic.snippetLines.map fun line => String.ofList line ++ "\n") ++
      diagnostic.advice := by
  have regroup (place message text snippet help : String) :
      "Error" ++ (place ++ ": " ++ message ++ "\n" ++ text ++ snippet ++ help) =
        "Error" ++ place ++ ": " ++ message ++ "\n" ++ text ++ snippet ++ help := by
    simp only [String.append_assoc]
  exact regroup _ _ _ _ _

end Diagnostic

/-- The line above the pointer is the one with the number of the place, and no other line has that
number. The caret is under `c`, blanks apart, which may be cut off. -/
structure Snippet.PointsAt (snippet : Snippet) (place : Location) (c : Char) : Prop where
  numbered : Numbered place.line snippet.numbered
  others : ∀ line ∈ snippet.above ++ snippet.pointer :: snippet.below, ¬Numbered place.line line
  pointer : IsPointer snippet.pointer
  under : isBlank c = false → snippet.numbered[snippet.pointer.idxOf '^']? = some c

theorem IsLexeme.exists_visible {kind : TokenKind} {value : String} {spelled : List Char}
    (lexeme : IsLexeme kind value spelled) :
    ∃ c tail, spelled = c :: tail ∧ isBlank c = false := by
  have stops : kind.Stops [] := by
    intro _ c member
    cases member
  obtain ⟨c, tail, _, split, visible, _⟩ := scanToken_lexeme lexeme stops .start
  exact ⟨c, tail, split, visible⟩

theorem ne_of_visible {c d : Char} (visible : isBlank c = false) (blank : isBlank d = true) :
    c ≠ d := by
  rintro rfl
  rw [blank] at visible
  cases visible

variable {source : SourceText} {diagnostic : Diagnostic} {front marked rest : List Char} {c : Char}

theorem caret_under {line : List Char} (shows : Shows line
      (lastLine front ++ (c :: marked).takeWhile (· ≠ '\n'))) (visible : isBlank c = false)
    {width number count : Nat} (fits : (Nat.toDigits 10 number).length ≤ width) :
    (numberedLine width number line)[(pointerLine width (1 + (lastLine front).length)
      count).idxOf '^']? = some c := by
  have noFeed : c ≠ '\n' := ne_of_visible visible (by decide)
  have noReturn : c ≠ '\r' := ne_of_visible visible (by decide)
  rw [List.takeWhile_cons_of_pos (by simpa using noFeed)] at shows
  obtain ⟨more, rfl⟩ := shows.exists_append_cons noReturn
  obtain ⟨kept, shown⟩ := numberedLine_append_cons visible width number (lastLine front) more
  have index : width + 3 + (1 + (lastLine front).length - 1) =
      (padLeft width (Nat.toDigits 10 number) ++ [' ', '|', ' '] ++ lastLine front).length := by
    simp only [List.length_append, length_padLeft fits, List.length_cons, List.length_nil]
    omega
  rw [idxOf_pointerLine, index, shown, List.getElem?_append_right le_rfl, Nat.sub_self]
  rfl

theorem Diagnostic.report_of_snippet {place : Location} {span : Span} {snippet : Snippet}
    (location : diagnostic.location? = some place) (marks : diagnostic.span? = some span)
    (attached : diagnostic.source? = some source)
    (found : snippet? source.text.toList place span = some snippet.shown) :
    diagnostic.report = diagnostic.heading ++ "\n" ++ snippet.text ++ diagnostic.advice := by
  have lines : diagnostic.snippetLines = [] :: snippet.shown := by
    simp only [snippetLines, location, marks, attached, found]
  rw [report_eq, lines, List.map_cons, String.join_cons, Snippet.text]
  simp only [String.ofList_nil, String.empty_append, String.append_assoc]

theorem Diagnostic.Marks.exists_snippet (marks : diagnostic.Marks front (c :: marked))
    (split : source.text.toList = front ++ (c :: marked ++ rest))
    (attached : diagnostic.source? = some source) :
    ∃ place snippet, diagnostic.location? = some place ∧
      diagnostic.report = diagnostic.heading ++ "\n" ++ Snippet.text snippet ++ diagnostic.advice ∧
      snippet.PointsAt place c := by
  obtain ⟨above, line, below, parts, count, shows⟩ :=
    lines_append (List.cons_ne_nil c (marked ++ rest)) front
  rw [← List.cons_append, ← split] at parts
  let place : Location := ⟨1 + front.count '\n', 1 + (lastLine front).length⟩
  let span : Span := ⟨byteSize front, byteSize (front ++ c :: marked)⟩
  let width := markedWidth source.text.toList span
  have number : place.line = above.length + 1 := by rw [count, Nat.add_comm]
  have found := snippet?_eq parts number span
  refine ⟨place, .around above line below place.col width, marks.location, ?_, ?_⟩
  · exact Diagnostic.report_of_snippet marks.location marks.span attached found
  · constructor
    · rw [number]
      exact numbered_numberedLine _ _ line
    · rw [number]
      exact Snippet.around_not_numbered above line below place.col width
    · exact isPointer_pointerLine _ _ _
    · intro visible
      exact caret_under shows visible (length_toDigits_mono (Nat.le_add_right _ _))

/-- The report on a text shows the line of the place, and right below it a caret under the character
that the place is about, always when that is a token or a string left open. -/
theorem report_points_out (failed : parseSource source = .error diagnostic) :
    ∃ place front c rest stop snippet,
      diagnostic.location? = some place ∧
      source.text.toList = front ++ c :: rest ∧
      diagnostic.span? = some ⟨byteSize front, stop⟩ ∧
      diagnostic.report = diagnostic.heading ++ "\n" ++ Snippet.text snippet ++ diagnostic.advice ∧
      snippet.PointsAt place c ∧
      (diagnostic.category ≠ .lex → isBlank c = false) ∧
      ∀ failure, tokenize source.text = .error failure → failure.fault = .unclosedString →
        isBlank c = false := by
  rcases parseSource_error_cases failed with
    ⟨failure, broken, rfl⟩ | ⟨tokens, failure, tokenized, parsed, rfl⟩
  · obtain ⟨front, c, rest, split, marks, quote⟩ := marks_ofScanFailure broken
    obtain ⟨place, snippet, location, report, points⟩ := marks.exists_snippet split rfl
    refine ⟨place, front, c, rest, _, snippet, location, split, marks.span, report, points, ?_, ?_⟩
    · intro other
      exact absurd rfl other
    · intro other same unclosed
      rw [broken, Except.error.injEq] at same
      rw [quote (by rw [same, unclosed])]
      decide
  · obtain ⟨token, _, front, spelled, rest, split, lexeme, _, marks⟩ :=
      marks_ofParseFailure tokenized parsed
    obtain ⟨c, tail, rfl, visible⟩ := lexeme.exists_visible
    have attached := Diagnostic.source?_withSource _ source
      (Diagnostic.category_ofParseFailure_ne failure).2
    obtain ⟨place, snippet, location, report, points⟩ := marks.exists_snippet split attached
    refine ⟨place, front, c, tail ++ rest, _, snippet, location, split, marks.span, report, points,
      ?_, ?_⟩
    · intro _
      exact visible
    · intro _ _ _
      exact visible

theorem report_points_out_sample :
    let source : SourceText := ⟨"s", "\n\n\n\n\n\n\nroute \"é\" ü\n\n \n"⟩
    let unknown : Diagnostic := .unknownName "ü"
      ⟨some source, some ⟨8, 11⟩, some ⟨18, 20⟩, some "ü",
        some "names must be defined with `def` before they are used"⟩
    parseSource source = .error unknown ∧
      unknown.report = "Error 8:11: unknown name `ü`\n    ü\n\n" ++
        " 6 |\n 7 |\n 8 | route \"é\" ü\n   |           ^ here\n 9 |\n10 |\n" ++
        "help: names must be defined with `def` before they are used\n" ∧
      ∃ place front c rest stop snippet, unknown.location? = some place ∧
        source.text.toList = front ++ c :: rest ∧ unknown.span? = some ⟨byteSize front, stop⟩ ∧
        unknown.report = unknown.heading ++ "\n" ++ Snippet.text snippet ++ unknown.advice ∧
        snippet.PointsAt place c ∧ isBlank c = false := by
  intro source unknown
  have failed : parseSource source = .error unknown := by decide +kernel
  obtain ⟨place, front, c, rest, stop, snippet, location, split, span, report, points, visible,
      _⟩ :=
    report_points_out failed
  refine ⟨failed, by decide +kernel, place, front, c, rest, stop, snippet, location, split, span,
    report, points, visible ?_⟩
  intro lex
  cases lex

end AeSchema
