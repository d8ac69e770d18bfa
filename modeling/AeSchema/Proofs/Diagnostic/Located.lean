import AeSchema.Program.Read
import AeSchema.Proofs.Program.Earliest
import AeSchema.Proofs.Token.Concatenation

/-! Where a text is said to be wrong: at characters of its own, told alike in lines and columns, in
bytes and by the label. -/

namespace AeSchema

open Source

namespace Diagnostic

/-- The place is that of `marked`, which stands right behind `front`. -/
structure Marks (diagnostic : Diagnostic) (front marked : List Char) : Prop where
  location : diagnostic.location? = some ⟨1 + front.count '\n', 1 + (lastLine front).length⟩
  span : diagnostic.span? = some ⟨byteSize front, byteSize (front ++ marked)⟩
  label : diagnostic.label? = some ⟨diagnostic.labelText, byteSize front, byteSize marked⟩

structure Located (diagnostic : Diagnostic) (source : SourceText) : Prop where
  category : diagnostic.category = .lex ∨ diagnostic.category = .parse ∨
    diagnostic.category = .scope
  attached : diagnostic.source? = some source
  place : ∃ front marked rest, source.text.toList = front ++ (marked ++ rest) ∧ marked ≠ [] ∧
    diagnostic.Marks front marked
  ofScan : diagnostic.category = .lex → diagnostic.text? = none
  ofToken : diagnostic.category ≠ .lex →
    ∃ tokens token, tokenize source.text = .ok tokens ∧ token ∈ tokens ∧ diagnostic.PointsAt token

section WithSource

variable (diagnostic : Diagnostic) (source : SourceText)

@[simp]
theorem category_withSource : (diagnostic.withSource source).category = diagnostic.category := by
  cases diagnostic <;> rfl

@[simp]
theorem location?_withSource :
    (diagnostic.withSource source).location? = diagnostic.location? := by
  cases diagnostic <;> rfl

@[simp]
theorem span?_withSource : (diagnostic.withSource source).span? = diagnostic.span? := by
  cases diagnostic <;> rfl

@[simp]
theorem text?_withSource : (diagnostic.withSource source).text? = diagnostic.text? := by
  cases diagnostic <;> rfl

theorem source?_withSource (inside : diagnostic.category ≠ .io) :
    (diagnostic.withSource source).source? = some source := by
  cases diagnostic with
  | lex | parse | unknownName => rfl
  | unreadable | unwritable => exact absurd rfl inside

end WithSource

variable {diagnostic : Diagnostic} {source : SourceText} {front marked : List Char} {token : Token}

theorem PointsAt.withSource (points : diagnostic.PointsAt token) (source : SourceText) :
    (diagnostic.withSource source).PointsAt token := by
  constructor
  · rw [location?_withSource, points.location]
  · rw [span?_withSource, points.span]
  · rw [text?_withSource, points.text]

theorem marks_of_point (nonempty : marked ≠ [])
    (location : diagnostic.location? = some (Point.start.after front).location)
    (span : diagnostic.span? = some ((Point.start.after front).span marked)) :
    diagnostic.Marks front marked := by
  have positive := byteSize_pos nonempty
  have bytes : (Point.start.after front).span marked =
      ⟨byteSize front, byteSize (front ++ marked)⟩ := by
    simp [Point.span, byteSize_append]
  rw [bytes] at span
  constructor
  · rw [location]
    exact congrArg some (Location.start_after front)
  · exact span
  -- What is marked takes a byte at least, so the label is not widened.
  · have size : max (byteSize (front ++ marked) - byteSize front) 1 = byteSize marked := by
      rw [byteSize_append]
      omega
    rw [label?, span, Option.map_some, Span.size, size]

theorem category_ofParseFailure (failure : ParseFailure) :
    (ofParseFailure failure).category = .parse ∨ (ofParseFailure failure).category = .scope := by
  obtain ⟨fault, culprit⟩ := failure
  cases fault with
  | unknownName => exact .inr rfl
  | _ => exact .inl rfl

theorem category_ofParseFailure_ne (failure : ParseFailure) :
    (ofParseFailure failure).category ≠ .lex ∧ (ofParseFailure failure).category ≠ .io := by
  rcases category_ofParseFailure failure with parse | scope
  · simp [parse]
  · simp [scope]

end Diagnostic

theorem Scanned.exists_of_failure {point : Point} {text : List Char} {tokens : List Token}
    {failure : ScanFailure} (scanned : Scanned point text tokens (some failure)) :
    ∃ front c rest, text = front ++ ([c] ++ rest) ∧
      failure.culprit = (point.after front).char c ∧
      (failure.fault = .unclosedString → c = '"') := by
  generalize broken : some failure = outcome at scanned
  induction scanned with
  | done => cases broken
  | @token point gap kind value spelled rest tokens outcome blank lexeme stops _ ih =>
      obtain ⟨front, c, back, rfl, culprit, quote⟩ := ih broken
      refine ⟨gap ++ spelled ++ front, c, back, by simp, ?_, quote⟩
      rw [Point.after_append, Point.after_append]
      exact culprit
  | @unclosed point gap body content tail blank spells ends =>
      cases broken
      exact ⟨gap, '"', body ++ tail, rfl, rfl, fun _ => rfl⟩
  | @badEscape point gap body content letter rest blank spells unknown =>
      cases broken
      refine ⟨gap ++ '"' :: (body ++ ['\\']), letter, rest, by simp, rfl, ?_⟩
      intro unclosed
      cases unclosed

variable {source : SourceText} {diagnostic : Diagnostic}

theorem parseSource_of_tokenize_error {failure : ScanFailure}
    (broken : tokenize source.text = .error failure) :
    parseSource source = .error ((Diagnostic.ofScanFailure failure).withSource source) := by
  simp [parseSource, parseText, broken]

theorem parseSource_of_parse_error {tokens : List Token} {failure : ParseFailure}
    (tokenized : tokenize source.text = .ok tokens) (failed : parse tokens = .error failure) :
    parseSource source = .error ((Diagnostic.ofParseFailure failure).withSource source) := by
  simp [parseSource, parseText, tokenized, failed]

theorem parseSource_error_cases (failed : parseSource source = .error diagnostic) :
    (∃ failure, tokenize source.text = .error failure ∧
      diagnostic = (Diagnostic.ofScanFailure failure).withSource source) ∨
    ∃ tokens failure, tokenize source.text = .ok tokens ∧ parse tokens = .error failure ∧
      diagnostic = (Diagnostic.ofParseFailure failure).withSource source := by
  cases tokenized : tokenize source.text with
  | error failure =>
      rw [parseSource_of_tokenize_error tokenized, Except.error.injEq] at failed
      exact .inl ⟨failure, rfl, failed.symm⟩
  | ok tokens =>
      cases parsed : parse tokens with
      | error failure =>
          rw [parseSource_of_parse_error tokenized parsed, Except.error.injEq] at failed
          exact .inr ⟨tokens, failure, rfl, parsed, failed.symm⟩
      | ok program =>
          simp [parseSource, parseText, tokenized, parsed] at failed

theorem marks_ofScanFailure {failure : ScanFailure}
    (broken : tokenize source.text = .error failure) :
    ∃ front c rest, source.text.toList = front ++ ([c] ++ rest) ∧
      ((Diagnostic.ofScanFailure failure).withSource source).Marks front [c] ∧
      (failure.fault = .unclosedString → c = '"') := by
  obtain ⟨tokens, scanned⟩ := tokenize_eq_error_iff_scanned.mp broken
  obtain ⟨front, c, rest, split, culprit, quote⟩ := scanned.exists_of_failure
  refine ⟨front, c, rest, split, ?_, quote⟩
  apply Diagnostic.marks_of_point (List.cons_ne_nil c [])
  · show some failure.culprit.location = _
    rw [culprit, Point.char_location]
  · show some failure.culprit.span = _
    rw [culprit, Point.char_span]

theorem located_ofScanFailure {failure : ScanFailure}
    (broken : tokenize source.text = .error failure) :
    ((Diagnostic.ofScanFailure failure).withSource source).Located source := by
  obtain ⟨front, c, rest, split, marks, _⟩ := marks_ofScanFailure broken
  constructor
  · exact .inl rfl
  · rfl
  · exact ⟨front, [c], rest, split, List.cons_ne_nil c [], marks⟩
  · intro _
    rfl
  · intro other
    exact absurd rfl other

theorem marks_ofParseFailure {tokens : List Token} {failure : ParseFailure}
    (tokenized : tokenize source.text = .ok tokens) (failed : parse tokens = .error failure) :
    ∃ token ∈ tokens, ∃ front spelled rest,
      source.text.toList = front ++ (spelled ++ rest) ∧
      IsLexeme token.kind token.value spelled ∧
      ((Diagnostic.ofParseFailure failure).withSource source).PointsAt token ∧
      ((Diagnostic.ofParseFailure failure).withSource source).Marks front spelled := by
  obtain ⟨read, token, after, _, front, last, culprit⟩ := parse_error_reads failed
  have member : token ∈ tokens := by
    rw [front]
    exact List.mem_append_left _ (List.mem_of_getLast? last)
  have points := (Diagnostic.pointsAt_culprit culprit).withSource source
  have scanned := tokenize_eq_ok_iff_scanned.mp tokenized
  obtain ⟨front, spelled, rest, split, placed, lexeme, _⟩ := scanned.exists_of_mem member
  refine ⟨token, member, front, spelled, rest, split, lexeme, points, ?_⟩
  apply Diagnostic.marks_of_point lexeme.nonempty
  · rw [points.location, placed]
    rfl
  · rw [points.span, placed]
    rfl

theorem located_ofParseFailure {tokens : List Token} {failure : ParseFailure}
    (tokenized : tokenize source.text = .ok tokens) (failed : parse tokens = .error failure) :
    ((Diagnostic.ofParseFailure failure).withSource source).Located source := by
  obtain ⟨token, member, front, spelled, rest, split, lexeme, points, marks⟩ :=
    marks_ofParseFailure tokenized failed
  obtain ⟨notLex, notIo⟩ := Diagnostic.category_ofParseFailure_ne failure
  constructor
  · rw [Diagnostic.category_withSource]
    exact .inr (Diagnostic.category_ofParseFailure failure)
  · exact Diagnostic.source?_withSource _ source notIo
  · exact ⟨front, spelled, rest, split, lexeme.nonempty, marks⟩
  · intro lex
    rw [Diagnostic.category_withSource] at lex
    exact absurd lex notLex
  · intro _
    exact ⟨tokens, token, tokenized, member, points⟩

/-- Whatever is wrong with a text is said of some of its characters, or of one of its tokens where
it has tokens; and its scanning is at fault just when it has none. -/
theorem parseSource_error_located (source : SourceText) :
    ((∃ diagnostic, parseSource source = .error diagnostic ∧ diagnostic.category = .lex) ↔
      ∃ failure, tokenize source.text = .error failure) ∧
    ∀ diagnostic, parseSource source = .error diagnostic → diagnostic.Located source := by
  constructor
  · constructor
    · rintro ⟨diagnostic, failed, lex⟩
      rcases parseSource_error_cases failed with ⟨failure, broken, _⟩ | ⟨_, failure, _, _, rfl⟩
      · exact ⟨failure, broken⟩
      · rw [Diagnostic.category_withSource] at lex
        exact absurd lex (Diagnostic.category_ofParseFailure_ne failure).1
    · rintro ⟨failure, broken⟩
      exact ⟨_, parseSource_of_tokenize_error broken, rfl⟩
  · intro diagnostic failed
    rcases parseSource_error_cases failed with
      ⟨failure, broken, rfl⟩ | ⟨tokens, failure, tokenized, parsed, rfl⟩
    · exact located_ofScanFailure broken
    · exact located_ofParseFailure tokenized parsed

theorem parseSource_error_located_sample :
    let broken : SourceText := ⟨"s", "x\n \"é\\é"⟩
    let naming : SourceText := ⟨"s", "def é Url \"\"\nroute \"p\" ü"⟩
    let wrong : Diagnostic := .lex "character 'é' does not correspond to any escape sequence"
      ⟨some broken, some ⟨2, 5⟩, some ⟨7, 9⟩, none,
        some "supported escapes are \\\\ \\n \\t \\r \\\""⟩
    let unknown : Diagnostic := .unknownName "ü"
      ⟨some naming, some ⟨2, 11⟩, some ⟨24, 26⟩, some "ü",
        some "names must be defined with `def` before they are used"⟩
    parseSource broken = .error wrong ∧ wrong.Located broken ∧
      parseSource naming = .error unknown ∧ unknown.Located naming := by
  intro broken naming wrong unknown
  have failed : parseSource broken = .error wrong := by decide +kernel
  have undefinedName : parseSource naming = .error unknown := by decide +kernel
  exact ⟨failed, (parseSource_error_located broken).2 wrong failed, undefinedName,
    (parseSource_error_located naming).2 unknown undefinedName⟩

end AeSchema
