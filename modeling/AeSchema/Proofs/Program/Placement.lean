import AeSchema.Proofs.Diagnostic.Located
import AeSchema.Proofs.Expr.Erase
import AeSchema.Proofs.Program.Twins
import AeSchema.Proofs.Token.Respacing

/-! Where tokens stand makes no difference to what they are read as, so that texts may be laid out
in any white space. -/

namespace AeSchema

open Source

/-- Both say the same, each about its own token, and the two tokens have the same index. -/
structure Diagnostic.Echoes (first second : List Token) (diagnostic other : Diagnostic) :
    Prop where
  category : diagnostic.category = other.category
  message : diagnostic.message = other.message
  help : diagnostic.help? = other.help?
  text : diagnostic.text? = other.text?
  place : ∃ (index : Nat) (token twin : Token), first[index]? = some token ∧
    second[index]? = some twin ∧ diagnostic.PointsAt token ∧ other.PointsAt twin

/-- What is read from the two token lists is the same but for places: of the tokens that the trees
keep, kinds and values are equal. -/
inductive ReadAlike (first second : List Token) :
    Except Diagnostic (List (Expr Token)) → Except Diagnostic (List (Expr Token)) → Prop
  | ok {program other} :
      program.map (Expr.map Token.lexeme) = other.map (Expr.map Token.lexeme) →
      prettyAll program = prettyAll other → programJson program = programJson other →
      ReadAlike first second (.ok program) (.ok other)
  | error {diagnostic other} : diagnostic.Echoes first second other →
      ReadAlike first second (.error diagnostic) (.error other)

section WithSource

variable (diagnostic : Diagnostic) (source : SourceText)

@[simp]
theorem Diagnostic.message_withSource :
    (diagnostic.withSource source).message = diagnostic.message := by
  cases diagnostic <;> rfl

@[simp]
theorem Diagnostic.help?_withSource :
    (diagnostic.withSource source).help? = diagnostic.help? := by
  cases diagnostic <;> rfl

end WithSource

variable {first second : List Token}

theorem ReadAlike.withSource {reading other : Except Diagnostic (List (Expr Token))}
    (alike : ReadAlike first second reading other) (source otherSource : SourceText) :
    ReadAlike first second (reading.mapError (·.withSource source))
      (other.mapError (·.withSource otherSource)) := by
  cases alike with
  | ok exprs texts json => exact .ok exprs texts json
  | error echoes =>
      obtain ⟨index, token, twin, found, otherFound, points, otherPoints⟩ := echoes.place
      refine .error ⟨?_, ?_, ?_, ?_, index, token, twin, found, otherFound,
        points.withSource source, otherPoints.withSource otherSource⟩
      · simpa using echoes.category
      · simpa using echoes.message
      · simpa using echoes.help
      · simpa using echoes.text

theorem runParse_matches (limit : Option Nat)
    (same : first.map Token.lexeme = second.map Token.lexeme) :
    Parse.Matches (List.map (Expr.map Token.lexeme)) (runParse limit first)
      (runParse limit second) := by
  have lengths : first.length = second.length := by
    simpa using congrArg List.length same
  have alike : Alike (.ofTokens first) (.ofTokens second) := ⟨same, rfl, rfl⟩
  rw [runParse, runParse, lengths]
  exact Parse.twins_tops second.length second.length rfl _ _ alike

theorem getElem?_of_getLast? {tokens read rest : List Token} {token : Token}
    (split : tokens = read ++ rest) (last : read.getLast? = some token) :
    tokens[read.length - 1]? = some token := by
  have positive : 0 < read.length := List.length_pos_of_mem (List.mem_of_getLast? last)
  rw [List.getLast?_eq_getElem?] at last
  rw [split, List.getElem?_append_left (by omega), last]

theorem Diagnostic.ofParseFailure_congr {failure other : ParseFailure}
    (faults : failure.fault = other.fault) :
    (ofParseFailure failure).category = (ofParseFailure other).category ∧
      (ofParseFailure failure).message = (ofParseFailure other).message ∧
      (ofParseFailure failure).help? = (ofParseFailure other).help? := by
  obtain ⟨fault, culprit⟩ := failure
  obtain ⟨_, otherCulprit⟩ := other
  obtain rfl : fault = _ := faults
  cases fault <;> exact ⟨rfl, rfl, rfl⟩

theorem echoes_of_matches {failure other : ParseFailure} {after twin : ParseState}
    (same : first.map Token.lexeme = second.map Token.lexeme)
    (ran : runParse (some nestingLimit) first = .error failure after)
    (twinRan : runParse (some nestingLimit) second = .error other twin)
    (faults : failure.fault = other.fault) (alike : Alike after twin) :
    (Diagnostic.ofParseFailure failure).Echoes first second (.ofParseFailure other) := by
  obtain ⟨read, token, _, ranRead, split, last, culprit⟩ :=
    parse_error_reads (parse_eq_error_iff.mpr ⟨after, ran⟩)
  obtain ⟨twinRead, twinToken, _, twinRanRead, twinSplit, twinLast, twinCulprit⟩ :=
    parse_error_reads (parse_eq_error_iff.mpr ⟨twin, twinRan⟩)
  rw [ran] at ranRead
  rw [twinRan] at twinRanRead
  obtain rfl := (EStateM.Result.error.inj ranRead).2
  obtain rfl := (EStateM.Result.error.inj twinRanRead).2
  -- Equally many tokens are left, so equally many have been read.
  have lengths : read.length = twinRead.length := by
    have whole : first.length = second.length := by simpa using congrArg List.length same
    have left : after.upcoming.length = twin.upcoming.length := by
      simpa using congrArg List.length alike.upcoming
    have parts := congrArg List.length split
    have twinParts := congrArg List.length twinSplit
    rw [List.length_append] at parts twinParts
    omega
  have found := getElem?_of_getLast? split last
  have twinFound := getElem?_of_getLast? twinSplit twinLast
  rw [← lengths] at twinFound
  have points := Diagnostic.pointsAt_culprit culprit
  have twinPoints := Diagnostic.pointsAt_culprit twinCulprit
  have lexemes : token.lexeme = twinToken.lexeme := by
    have entries := congrArg (·[read.length - 1]?) same
    simpa [found, twinFound] using entries
  have texts : (Diagnostic.ofParseFailure failure).text? =
      (Diagnostic.ofParseFailure other).text? := by
    rw [points.text, twinPoints.text, Token.value_of_lexeme_eq lexemes]
  obtain ⟨categories, messages, helps⟩ := Diagnostic.ofParseFailure_congr faults
  exact ⟨categories, messages, helps, texts, _, token, twinToken, found, twinFound, points,
    twinPoints⟩

theorem parse_alike (same : first.map Token.lexeme = second.map Token.lexeme) :
    ReadAlike first second ((parse first).mapError .ofParseFailure)
      ((parse second).mapError .ofParseFailure) := by
  have outcomes := runParse_matches (some nestingLimit) same
  generalize ran : runParse (some nestingLimit) first = outcome at outcomes
  generalize twinRan : runParse (some nestingLimit) second = twinOutcome at outcomes
  cases outcomes with
  | ok exprs _ =>
      rw [parse_eq_ok_iff.mpr ⟨_, ran⟩, parse_eq_ok_iff.mpr ⟨_, twinRan⟩]
      exact .ok exprs (prettyAll_congr exprs) (programJson_congr exprs)
  | error faults alike =>
      rw [parse_eq_error_iff.mpr ⟨_, ran⟩, parse_eq_error_iff.mpr ⟨_, twinRan⟩]
      exact .error (echoes_of_matches same ran twinRan faults alike)

theorem parseSource_eq_mapError {source : SourceText} {tokens : List Token}
    (tokenized : tokenize source.text = .ok tokens) :
    parseSource source =
      ((parse tokens).mapError Diagnostic.ofParseFailure).mapError (·.withSource source) := by
  cases parsed : parse tokens <;>
    simp [parseSource, parseText, tokenized, parsed, Except.mapError]

theorem parseSource_alike (source other : SourceText) (tokenized : tokenize source.text = .ok first)
    (otherTokenized : tokenize other.text = .ok second)
    (same : first.map Token.lexeme = second.map Token.lexeme) :
    ReadAlike first second (parseSource source) (parseSource other) := by
  rw [parseSource_eq_mapError tokenized, parseSource_eq_mapError otherTokenized]
  exact (parse_alike same).withSource source other

/-- Token lists that differ in places only are read alike, and so are texts with such tokens. Every
text that has tokens is a layout of their lexemes, and stays what it is when the white space in
front of these is changed, if only none of it goes from between two of them. -/
theorem parse_ignores_layout :
    (∀ first second : List Token, first.map Token.lexeme = second.map Token.lexeme →
      ReadAlike first second ((parse first).mapError .ofParseFailure)
        ((parse second).mapError .ofParseFailure)) ∧
    (∀ (source other : SourceText) (first second : List Token),
      tokenize source.text = .ok first → tokenize other.text = .ok second →
      first.map Token.lexeme = second.map Token.lexeme →
        ReadAlike first second (parseSource source) (parseSource other)) ∧
    (∀ text tokens, tokenize text = .ok tokens → ∃ pieces trailing, Written pieces trailing ∧
      text = String.ofList (layout pieces trailing) ∧ tokens = placed .start pieces) ∧
    ∀ pieces others trailing spaces, Written pieces trailing →
      List.Forall₂ Piece.Respaced pieces others → Blank spaces → ∀ name otherName,
        ReadAlike (placed .start pieces) (placed .start others)
          (parseSource ⟨name, String.ofList (layout pieces trailing)⟩)
          (parseSource ⟨otherName, String.ofList (layout others spaces)⟩) := by
  refine ⟨fun _ _ => parse_alike, fun source other _ _ => parseSource_alike source other, ?_, ?_⟩
  · intro text tokens tokenized
    obtain ⟨pieces, trailing, written, split, rfl⟩ :=
      (tokenize_eq_ok_iff_scanned.mp tokenized).exists_layout
    exact ⟨pieces, trailing, written, by rw [← split, String.ofList_toList], rfl⟩
  · intro pieces others trailing spaces written pairs blank name otherName
    refine parseSource_alike ⟨name, _⟩ ⟨otherName, _⟩ (tokenize_layout_placed written)
      (tokenize_layout_placed (written.respaced pairs blank)) ?_
    rw [map_lexeme_placed, map_lexeme_placed, map_lexeme_respaced pairs]

/-- Tokens of a program, all at one place or all at another one; and a text with a name that is not
defined, on one line and on several. -/
theorem parse_ignores_layout_sample :
    let tokens (place : Nat) : List Token :=
      [⟨"route", .keyword, ⟨place, place⟩, ⟨place, place⟩⟩, ⟨"p", .string, ⟨place, 1⟩, ⟨0, 0⟩⟩,
        ⟨"Url", .keyword, ⟨1, place⟩, ⟨0, place⟩⟩, ⟨"", .string, ⟨place, 2⟩, ⟨0, 0⟩⟩]
    let source : SourceText := ⟨"one", "route \"p\" b"⟩
    let other : SourceText := ⟨"two", "\nroute\t \"p\"\n b\n"⟩
    let first : List Token :=
      [⟨"route", .keyword, ⟨1, 1⟩, ⟨0, 5⟩⟩, ⟨"p", .string, ⟨1, 7⟩, ⟨6, 9⟩⟩,
        ⟨"b", .identifier, ⟨1, 11⟩, ⟨10, 11⟩⟩]
    let second : List Token :=
      [⟨"route", .keyword, ⟨2, 1⟩, ⟨1, 6⟩⟩, ⟨"p", .string, ⟨2, 8⟩, ⟨8, 11⟩⟩,
        ⟨"b", .identifier, ⟨3, 2⟩, ⟨13, 14⟩⟩]
    let pieces (front : List Char) (gap : List Char) : List Piece :=
      [⟨front, .keyword, "route", "route".toList⟩, ⟨gap, .string, "p", ['"', 'p', '"']⟩,
        ⟨gap, .identifier, "b", ['b']⟩]
    ReadAlike (tokens 1) (tokens 7) ((parse (tokens 1)).mapError .ofParseFailure)
        ((parse (tokens 7)).mapError .ofParseFailure) ∧
      tokenize source.text = .ok first ∧ tokenize other.text = .ok second ∧
      ReadAlike first second (parseSource source) (parseSource other) ∧
      (∃ pieces trailing, Written pieces trailing ∧
        source.text = String.ofList (layout pieces trailing) ∧ first = placed .start pieces) ∧
      ReadAlike (placed .start (pieces [] [' '])) (placed .start (pieces ['\n'] ['\t', '\n']))
        (parseSource ⟨"one", String.ofList (layout (pieces [] [' ']) [])⟩)
        (parseSource ⟨"two", String.ofList (layout (pieces ['\n'] ['\t', '\n']) ['\n'])⟩) := by
  intro tokens source other first second pieces
  have tokenized : tokenize source.text = .ok first := by decide +kernel
  have otherTokenized : tokenize other.text = .ok second := by decide +kernel
  have written : Written (pieces [] [' ']) [] := by
    refine ⟨?_, ?_, by decide⟩
    · intro piece member
      simp only [pieces, List.mem_cons, List.not_mem_nil, or_false] at member
      rcases member with rfl | rfl | rfl
      · exact ⟨by decide, ⟨by decide, by decide⟩, rfl⟩
      · exact ⟨by decide, trivial, ['p'], rfl, .plain (by decide) (by decide) .nil⟩
      · exact ⟨by decide, ⟨by decide, by decide⟩, rfl⟩
    · simp [pieces, Piece.Apart, TokenKind.OfWord]
  have pairs : List.Forall₂ Piece.Respaced (pieces [] [' ']) (pieces ['\n'] ['\t', '\n']) :=
    .cons ⟨rfl, rfl, rfl, by decide, by simp⟩ (.cons ⟨rfl, rfl, rfl, by decide, by simp⟩
      (.cons ⟨rfl, rfl, rfl, by decide, by simp⟩ .nil))
  refine ⟨parse_ignores_layout.1 (tokens 1) (tokens 7) (by decide), tokenized, otherTokenized, ?_,
    parse_ignores_layout.2.2.1 source.text first tokenized, ?_⟩
  · exact parse_ignores_layout.2.1 source other first second tokenized otherTokenized (by decide)
  · exact parse_ignores_layout.2.2.2 _ _ [] ['\n'] written pairs (by decide) "one" "two"

end AeSchema
