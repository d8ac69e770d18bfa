import AeSchema.Proofs.Diagnostic.Window

/-! What the pointer of a report underlines: the part of the offending token that is on the line of
the place, and what stands behind it if the token goes on behind a carriage return and a line
feed. -/

namespace AeSchema

open Source Text

theorem exists_mem_getElem?_iff {α : Type} {front middle rest : List α} {Marker : α → Prop}
    (before : ∀ item ∈ front, ¬Marker item) (inside : ∀ item ∈ middle, Marker item)
    (behind : ∀ item ∈ rest, ¬Marker item) (index : Nat) :
    (∃ item ∈ (front ++ (middle ++ rest))[index]?, Marker item) ↔
      front.length ≤ index ∧ index < front.length + middle.length := by
  constructor
  · rintro ⟨item, found, marker⟩
    by_contra elsewhere
    by_cases early : index < front.length
    · rw [List.getElem?_append_left early] at found
      exact before item (List.mem_of_getElem? found) marker
    · rw [List.getElem?_append_right (by omega), List.getElem?_append_right (by omega)] at found
      exact behind item (List.mem_of_getElem? found) marker
  · rintro ⟨lower, upper⟩
    have bound : index - front.length < middle.length := by omega
    rw [List.getElem?_append_right lower, List.getElem?_append_left bound,
      List.getElem?_eq_getElem bound]
    exact ⟨_, rfl, inside _ (List.getElem_mem bound)⟩

/-- Below the character at `index` of the line stands the caret or a dash. -/
def Snippet.Underlines (snippet : Snippet) (index : Nat) : Prop :=
  ∃ c ∈ snippet.pointer[snippet.pointer.idxOf '|' + 2 + index]?, c = '^' ∨ c = '-'

/-- The token that is spelled behind `front` has `part` on the line: it ends there, or the line
ends in the token. -/
def OnLine (front spelled line part : List Char) : Prop :=
  ∃ beyond more, spelled = part ++ beyond ∧ line = lastLine front ++ (part ++ more) ∧
    (beyond = [] ∨ more = [])

def Snippet.MarksOut (snippet : Snippet) (front part : List Char) : Prop :=
  ∀ index, snippet.Underlines index ↔
    (lastLine front).length ≤ index ∧ index < (lastLine front ++ part).length

/-- The first line break in what is spelled is a carriage return and a line feed. -/
def BreaksAtReturn (spelled : List Char) : Prop :=
  ∃ first rest, '\n' ∉ first ∧ spelled = first ++ '\r' :: '\n' :: rest

theorem idxOf_gutter (width : Nat) (rest : List Char) :
    (List.replicate width ' ' ++ [' ', '|', ' '] ++ rest).idxOf '|' = width + 1 := by
  have absent : '|' ∉ List.replicate width ' ' ++ [' '] := by simp
  have bar : List.replicate width ' ' ++ [' ', '|', ' '] ++ rest =
      List.replicate width ' ' ++ [' '] ++ '|' :: ' ' :: rest := by simp
  rw [bar, List.idxOf_append_of_notMem absent, List.idxOf_cons_self]
  simp

theorem exists_marker_iff (width indent dashes index : Nat) :
    (∃ c ∈ (List.replicate width ' ' ++ [' ', '|', ' '] ++ (List.replicate indent ' ' ++
        ('^' :: List.replicate dashes '-' ++ " here".toList)))[width + 3 + index]?,
      c = '^' ∨ c = '-') ↔ indent ≤ index ∧ index < indent + (dashes + 1) := by
  have before : ∀ c ∈ List.replicate width ' ' ++ [' ', '|', ' '] ++ List.replicate indent ' ',
      ¬(c = '^' ∨ c = '-') := by
    intro c member
    have blank : c = ' ' ∨ c = '|' := by
      simp only [List.mem_append, List.mem_replicate, List.mem_cons, List.not_mem_nil] at member
      tauto
    rcases blank with rfl | rfl
    · decide
    · decide
  have inside : ∀ c ∈ '^' :: List.replicate dashes '-', c = '^' ∨ c = '-' := by
    intro c member
    rcases List.mem_cons.mp member with caret | dash
    · exact .inl caret
    · exact .inr (List.eq_of_mem_replicate dash)
  have behind : ∀ c ∈ " here".toList, ¬(c = '^' ∨ c = '-') := by simp
  rw [← List.append_assoc, exists_mem_getElem?_iff before inside behind]
  simp only [List.length_append, List.length_replicate, List.length_cons, List.length_nil]
  omega

theorem Snippet.Window.underlines_iff {snippet : Snippet} {all : List (List Char)}
    {place : Location} {width marked : Nat} (window : snippet.Window all place width marked)
    (positive : 1 ≤ marked) (index : Nat) :
    snippet.Underlines index ↔
      max 1 place.col - 1 ≤ index ∧ index < max 1 place.col - 1 + marked := by
  have pointer := window.pointer
  simp only [List.append_assoc] at pointer
  rw [← List.append_assoc] at pointer
  have markers := exists_marker_iff width (max 1 place.col - 1) (marked - 1) index
  rw [Nat.sub_add_cancel positive, ← pointer] at markers
  have start : snippet.pointer.idxOf '|' + 2 + index = width + 3 + index := by
    rw [pointer, idxOf_gutter]
  rw [Snippet.Underlines, start, markers]

theorem firstLine_append_token {front spelled : List Char} (plain : '\n' ∉ front ++ spelled)
    (last : ∀ c ∈ spelled.getLast?, isBlank c = false) (nonempty : spelled ≠ [])
    (rest : List Char) :
    ∃ more, firstLine (front ++ (spelled ++ rest)) = front ++ (spelled ++ more) := by
  obtain ⟨body, c, rfl⟩ := (List.eq_nil_or_concat' spelled).resolve_left nonempty
  have visible : isBlank c = false := last c (by simp)
  have shows := shows_firstLine (front ++ (body ++ [c] ++ rest))
  rw [← List.append_assoc, takeWhile_ne_of_not_mem plain] at shows
  have stretch : front ++ (body ++ [c]) ++ rest.takeWhile (· ≠ '\n') =
      front ++ body ++ c :: rest.takeWhile (· ≠ '\n') := by simp
  rw [stretch] at shows
  obtain ⟨more, shown⟩ := shows.exists_append_cons (ne_of_visible visible (by decide))
  refine ⟨more, ?_⟩
  simpa using shown

theorem IsLexeme.last_visible {kind : TokenKind} {value : String} {spelled : List Char}
    (lexeme : IsLexeme kind value spelled) : ∀ c ∈ spelled.getLast?, isBlank c = false := by
  intro c last
  rcases lexeme.cases with ⟨mark, known, _, rfl⟩ | ⟨_, body, rfl, _⟩ | ⟨word, _⟩
  · obtain ⟨first, tail, same, visible⟩ := lexeme.exists_visible
    rw [List.getLast?_singleton, Option.mem_some_iff] at last
    rwa [← (List.cons.inj same).1, last] at visible
  · rw [← List.cons_append, List.getLast?_concat, Option.mem_some_iff] at last
    subst last
    decide
  · exact word.visible c (List.mem_of_getLast? last)

section OnLine

variable {kind : TokenKind} {value : String} {front spelled rest : List Char}

theorem IsLexeme.ne_lineFeed_cons (lexeme : IsLexeme kind value spelled) :
    spelled ≠ '\n' :: rest := by
  rintro rfl
  obtain ⟨c, tail, same, visible⟩ := lexeme.exists_visible
  exact ne_of_visible visible (by decide) (List.cons.inj same).1.symm

theorem onLine_of_plain (lexeme : IsLexeme kind value spelled) (plain : '\n' ∉ spelled) :
    OnLine front spelled (firstLine (lastLine front ++ (spelled ++ rest))) spelled := by
  have unbroken : '\n' ∉ lastLine front ++ spelled := by
    rw [List.mem_append, not_or]
    exact ⟨lineFeed_not_mem_lastLine front, plain⟩
  obtain ⟨more, shown⟩ :=
    firstLine_append_token unbroken lexeme.last_visible lexeme.nonempty rest
  exact ⟨[], more, (List.append_nil spelled).symm, shown, .inl rfl⟩

theorem breaksAtReturn_iff {first : List Char} (plain : '\n' ∉ first) (rest : List Char) :
    BreaksAtReturn (first ++ '\n' :: rest) ↔ ∃ body, first = body ++ ['\r'] := by
  constructor
  · rintro ⟨body, after, unbroken, same⟩
    have here : first ++ '\n' :: rest = (body ++ ['\r']) ++ '\n' :: after := by simpa using same
    have bodyPlain : '\n' ∉ body ++ ['\r'] := by simpa using unbroken
    exact ⟨body, (splits_unique_at plain bodyPlain here).1⟩
  · rintro ⟨body, rfl⟩
    exact ⟨body, rest, by simpa using plain, by simp⟩

/-- The pointer marks `count` characters of the token: those that it has on the line, and one more
if the line ends in the token with a carriage return. -/
def Fits (front spelled line part : List Char) (count : Nat) : Prop :=
  ¬BreaksAtReturn spelled ∧ count = part.length ∨
    BreaksAtReturn spelled ∧ count = part.length + 1 ∧ line = lastLine front ++ part

theorem exists_onLine_of_broken {first : List Char} (plain : '\n' ∉ first) (nonempty : first ≠ [])
    (front after rest : List Char) :
    let line := firstLine (lastLine front ++ (first ++ '\n' :: after ++ rest))
    ∃ part, OnLine front (first ++ '\n' :: after) line part ∧
      Fits front (first ++ '\n' :: after) line part first.length := by
  intro line
  have shown : line = dropReturn (lastLine front ++ first) := by
    have unbroken : '\n' ∉ lastLine front ++ first := by
      rw [List.mem_append, not_or]
      exact ⟨lineFeed_not_mem_lastLine front, plain⟩
    have split : lastLine front ++ (first ++ '\n' :: after ++ rest) =
        lastLine front ++ first ++ '\n' :: (after ++ rest) := by simp
    rw [show line = firstLine _ from rfl, split, firstLine_append_cons unbroken]
  -- A carriage return at the end belongs to the line feed, and the line does not show it.
  by_cases returns : ∃ body, first = body ++ ['\r']
  · have breaks := (breaksAtReturn_iff plain after).mpr returns
    obtain ⟨body, rfl⟩ := returns
    have ended : line = lastLine front ++ body := by
      rw [shown, ← List.append_assoc, dropReturn, if_pos (by simp), List.dropLast_concat]
    refine ⟨body, ⟨'\r' :: '\n' :: after, [], by simp, by simp [ended], .inr rfl⟩, .inr ?_⟩
    exact ⟨breaks, by simp, ended⟩
  · have ended : line = lastLine front ++ first := by
      rw [shown, dropReturn, if_neg]
      rw [List.getLast?_append_of_ne_nil _ nonempty, List.getLast?_eq_some_iff]
      exact returns
    refine ⟨first, ⟨'\n' :: after, [], by simp, by simp [ended], .inr rfl⟩, .inl ⟨?_, rfl⟩⟩
    rwa [breaksAtReturn_iff plain after]

theorem exists_onLine (lexeme : IsLexeme kind value spelled) (front rest : List Char) :
    let line := firstLine (lastLine front ++ (spelled ++ rest))
    ∃ part, OnLine front spelled line part ∧
      Fits front spelled line part (spelled.takeWhile (· ≠ '\n')).length := by
  by_cases broken : '\n' ∈ spelled
  · obtain ⟨first, after, rfl, plain⟩ := List.eq_append_cons_of_mem broken
    rw [takeWhile_ne_append_cons plain]
    apply exists_onLine_of_broken plain
    rintro rfl
    exact lexeme.ne_lineFeed_cons rfl
  · have whole := takeWhile_ne_of_not_mem broken []
    rw [List.takeWhile_nil, List.append_nil] at whole
    rw [whole]
    refine ⟨spelled, onLine_of_plain lexeme broken, .inl ⟨?_, rfl⟩⟩
    rintro ⟨first, after, _, rfl⟩
    exact broken (by simp)

theorem IsLexeme.marks_something (lexeme : IsLexeme kind value spelled) :
    1 ≤ (spelled.takeWhile (· ≠ '\n')).length := by
  obtain ⟨c, tail, rfl, visible⟩ := lexeme.exists_visible
  have noFeed : c ≠ '\n' := ne_of_visible visible (by decide)
  rw [List.takeWhile_cons_of_pos (by simpa using noFeed), List.length_cons]
  exact Nat.le_add_left 1 _

end OnLine

structure Diagnostic.Concerns (diagnostic : Diagnostic) (text : String)
    (front spelled : List Char) : Prop where
  split : ∃ rest, text.toList = front ++ (spelled ++ rest)
  token : ∃ tokens token, tokenize text = .ok tokens ∧ token ∈ tokens ∧
    diagnostic.PointsAt token ∧ token.span = ⟨byteSize front, byteSize (front ++ spelled)⟩ ∧
    IsLexeme token.kind token.value spelled

variable {source : SourceText} {diagnostic : Diagnostic}

theorem exists_concerns (failed : parseSource source = .error diagnostic)
    (category : diagnostic.category = .parse ∨ diagnostic.category = .scope) :
    ∃ front spelled, diagnostic.Concerns source.text front spelled ∧
      diagnostic.Marks front spelled ∧ diagnostic.source? = some source := by
  rcases parseSource_error_cases failed with
    ⟨failure, broken, rfl⟩ | ⟨tokens, failure, tokenized, parsed, rfl⟩
  · rcases category with impossible | impossible
    · cases impossible
    · cases impossible
  · obtain ⟨token, member, front, spelled, rest, split, lexeme, points, marks⟩ :=
      marks_ofParseFailure tokenized parsed
    have span := points.span.symm.trans marks.span
    rw [Option.some.injEq] at span
    have attached := Diagnostic.source?_withSource _ source
      (Diagnostic.category_ofParseFailure_ne failure).2
    exact ⟨front, spelled, ⟨⟨rest, split⟩, tokens, token, tokenized, member, points, span, lexeme⟩,
      marks, attached⟩

/-- The caret and its dashes stand below the part of the offending token that is on the line of the
place, and nowhere else, just when the token does not go on behind a carriage return and a line
feed. If it does then they go one character too far, past the end of the line. -/
theorem pointer_underlines (failed : parseSource source = .error diagnostic)
    (category : diagnostic.category = .parse ∨ diagnostic.category = .scope) :
    ∃ place front spelled line part snippet width marked,
      diagnostic.Concerns source.text front spelled ∧
      diagnostic.location? = some place ∧
      (lines source.text.toList)[place.line - 1]? = some line ∧
      OnLine front spelled line part ∧
      diagnostic.report = diagnostic.heading ++ "\n" ++ Snippet.text snippet ++
        diagnostic.advice ∧
      snippet.Window (lines source.text.toList) place width marked ∧
      (snippet.MarksOut front part ↔ ¬BreaksAtReturn spelled) ∧
      (BreaksAtReturn spelled → ∀ index, snippet.Underlines index ↔
        (lastLine front).length ≤ index ∧ index ≤ line.length) := by
  obtain ⟨front, spelled, concerns, marks, attached⟩ := exists_concerns failed category
  obtain ⟨rest, split⟩ := concerns.split
  obtain ⟨_, _, _, _, _, _, lexeme⟩ := concerns.token
  let place : Location := ⟨1 + front.count '\n', 1 + (lastLine front).length⟩
  let span : Span := ⟨byteSize front, byteSize (front ++ spelled)⟩
  let line := firstLine (lastLine front ++ (spelled ++ rest))
  obtain ⟨above, below, parts, count⟩ :=
    exists_lines_append (List.append_ne_nil_of_left_ne_nil lexeme.nonempty rest) front
  rw [← split] at parts
  have number : place.line = above.length + 1 := by rw [count, Nat.add_comm]
  have shown : (lines source.text.toList)[place.line - 1]? = some line := by
    rw [parts, number]
    simp [line]
  have opens : diagnostic.Opens place span source := by
    refine ⟨marks.location, marks.span, attached, by omega, ?_⟩
    rw [parts, number]
    simp
  obtain ⟨snippet, width, marked, report, window, measured⟩ := opens.exists_window
  have measure := measured.inside spelled rest ⟨front, split, rfl⟩
  have something := lexeme.marks_something
  have underlines (index : Nat) : snippet.Underlines index ↔ (lastLine front).length ≤ index ∧
      index < (lastLine front).length + (spelled.takeWhile (· ≠ '\n')).length := by
    have col : max 1 place.col - 1 = (lastLine front).length := by
      simp only [place]
      omega
    rw [window.underlines_iff measured.positive, col, measure, Nat.max_eq_right something]
  obtain ⟨part, onLine, fits⟩ := exists_onLine lexeme front rest
  refine ⟨place, front, spelled, line, part, snippet, width, marked, concerns, marks.location,
    shown, onLine, report, window, ?_⟩
  rcases fits with ⟨whole, size⟩ | ⟨breaks, size, ended⟩
  · have marksOut : snippet.MarksOut front part := by
      intro index
      rw [underlines, size, List.length_append]
    exact ⟨⟨fun _ => whole, fun _ => marksOut⟩, fun breaks => absurd breaks whole⟩
  · have length : line.length = (lastLine front).length + part.length := by
      rw [show line = lastLine front ++ part from ended, List.length_append]
    constructor
    · constructor
      · intro marksOut _
        have beyond := (marksOut line.length).mp ((underlines line.length).mpr (by omega))
        rw [List.length_append] at beyond
        omega
      · intro whole
        exact absurd breaks whole
    · intro _ index
      rw [underlines, size, length]
      omega

theorem pointer_underlines_sample :
    let source : SourceText := ⟨"s", "def A \"ü x\n\""⟩
    let bare : Diagnostic := .parse "definition value cannot be a bare string"
      ⟨some source, some ⟨1, 7⟩, some ⟨6, 13⟩, some "ü x\n",
        some "wrap it in a format object, `Url` or `ArrayOf`"⟩
    parseSource source = .error bare ∧ (bare.category = .parse ∨ bare.category = .scope) ∧
      bare.report = bare.heading ++
        "\n1 | def A \"ü x\n  |       ^--- here\n2 | \"\n" ++ bare.advice ∧
      ∃ place front spelled line part snippet width marked,
        bare.Concerns source.text front spelled ∧ bare.location? = some place ∧
        (lines source.text.toList)[place.line - 1]? = some line ∧
        OnLine front spelled line part ∧
        bare.report = bare.heading ++ "\n" ++ Snippet.text snippet ++ bare.advice ∧
        snippet.Window (lines source.text.toList) place width marked ∧
        (snippet.MarksOut front part ↔ ¬BreaksAtReturn spelled) ∧
        (BreaksAtReturn spelled → ∀ index, snippet.Underlines index ↔
          (lastLine front).length ≤ index ∧ index ≤ line.length) := by
  intro source bare
  have failed : parseSource source = .error bare := by decide +kernel
  exact ⟨failed, .inl rfl, by decide +kernel, pointer_underlines failed (.inl rfl)⟩

/-- A string that goes on behind a carriage return and a line feed. Its part on the first line has
two characters, of which there are no more on that line, and three are underlined. -/
theorem pointer_overhangs :
    let source : SourceText := ⟨"s", "\"a\r\nb\""⟩
    let string : Diagnostic := .parse "expected keyword, got string"
      ⟨some source, some ⟨1, 1⟩, some ⟨0, 6⟩, some "a\r\nb",
        some "top-level expressions start with `def`, `route` or `response`"⟩
    let snippet : Snippet :=
      ⟨[], "1 | \"a".toList, "  | ^-- here".toList, ["2 | b\"".toList]⟩
    parseSource source = .error string ∧ string.category = .parse ∧
      tokenize source.text = .ok [⟨"a\r\nb", .string, ⟨1, 1⟩, ⟨0, 6⟩⟩] ∧
      (lines source.text.toList)[0]? = some ['"', 'a'] ∧
      OnLine [] source.text.toList ['"', 'a'] ['"', 'a'] ∧
      string.report = string.heading ++ "\n" ++ snippet.text ++ string.advice ∧
      snippet.Underlines 2 ∧ ¬snippet.MarksOut [] ['"', 'a'] := by
  intro source string snippet
  have third : snippet.Underlines 2 := ⟨'-', by decide +kernel, .inr rfl⟩
  refine ⟨by decide +kernel, rfl, by decide +kernel, by decide +kernel,
    ⟨['\r', '\n', 'b', '"'], [], by decide, by decide, .inr rfl⟩, by decide +kernel, third, ?_⟩
  intro marksOut
  have beyond := ((marksOut 2).mp third).2
  exact absurd beyond (by decide)

end AeSchema
