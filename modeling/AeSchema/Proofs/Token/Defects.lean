import AeSchema.Diagnostic.Basic
import AeSchema.Proofs.Token.Concatenation

/-! Texts that have no tokens: one of their strings is not closed or has an escape that is none.
There is just one way to see which string that is, and it is the one that the scanner reports. -/

namespace AeSchema

open Source

def Source.charBehind (front : List Char) (c : Char) : LocatedChar :=
  ⟨c, ⟨1 + front.count '\n', 1 + (lastLine front).length⟩, byteSize front⟩

/-- A literal whose text up to here is `body` does not go on with `rest`. What is blamed is the
quote behind `front` that opens it, or the character behind the last backslash. -/
inductive Stuck (front body : List Char) : List Char → ScanFailure → Prop
  | unclosed {rest} : rest = [] ∨ rest = ['\\'] →
      Stuck front body rest ⟨.unclosedString, charBehind front '"'⟩
  | badEscape {letter more} : letter ∉ ['\\', 'n', 't', 'r', '"'] →
      Stuck front body ('\\' :: letter :: more)
        ⟨.badEscape letter, charBehind (front ++ '"' :: (body ++ ['\\'])) letter⟩

/-- Up to the quote that opens the literal the text has tokens, the last of which is no word that
the quote goes on with. -/
structure BreaksOff (text front body rest : List Char) (failure : ScanFailure) : Prop where
  split : text = front ++ '"' :: (body ++ rest)
  opens : ∃ tokens, tokenize (String.ofList front) = .ok tokens ∧
    ∀ token ∈ tokens.getLast?, token.kind.OfWord → token.span.stop ≠ byteSize front
  spelled : ∃ content, Spells body content
  stuck : Stuck front body rest failure

theorem Source.char_start_after (front : List Char) (c : Char) :
    (Point.start.after front).char c = charBehind front c := by
  have place := Location.start_after front
  simp only [Point.char, Point.after, Point.start, charBehind, LocatedChar.mk.injEq, true_and,
    Nat.zero_add, and_true]
  exact place

theorem forall_not_escape_iff {letter : Char} :
    (∀ c, ¬Escape letter c) ↔ letter ∉ ['\\', 'n', 't', 'r', '"'] := by
  constructor
  · intro unknown member
    simp only [List.mem_cons, List.not_mem_nil, or_false] at member
    rcases member with rfl | rfl | rfl | rfl | rfl
    · exact unknown _ .backslash
    · exact unknown _ .lineFeed
    · exact unknown _ .tab
    · exact unknown _ .carriageReturn
    · exact unknown _ .quote
  · rintro missing _ (_ | _ | _ | _ | _) <;> simp at missing

def EndsLiteral (tail : List Char) : Prop :=
  tail = [] ∨ tail = ['\\'] ∨ (∃ rest, tail = '"' :: rest) ∨
    ∃ letter rest, tail = '\\' :: letter :: rest ∧ ∀ c, ¬Escape letter c

namespace EndsLiteral

variable {c letter : Char} {rest : List Char}

theorem not_plain (ends : EndsLiteral (c :: rest)) (quote : c ≠ '"') : c = '\\' := by
  rcases ends with empty | last | ⟨_, closed⟩ | ⟨_, _, escape, _⟩
  · cases empty
  · exact (List.cons.inj last).1
  · exact absurd (List.cons.inj closed).1 quote
  · exact (List.cons.inj escape).1

theorem not_escape (ends : EndsLiteral ('\\' :: letter :: rest)) : ¬Escape letter c := by
  rcases ends with empty | last | ⟨_, closed⟩ | ⟨_, _, escape, unknown⟩
  · cases empty
  · cases last
  · cases closed
  · cases escape
    exact unknown c

end EndsLiteral

theorem Spells.unique {body content tail other meant rest : List Char}
    (spells : Spells body content) (otherSpells : Spells other meant) (ends : EndsLiteral tail)
    (otherEnds : EndsLiteral rest) (same : body ++ tail = other ++ rest) :
    body = other ∧ tail = rest := by
  induction spells generalizing other meant with
  | nil =>
      cases otherSpells with
      | nil => exact ⟨rfl, same⟩
      | plain quote backslash =>
          rw [List.nil_append, List.cons_append] at same
          rw [same] at ends
          exact absurd (ends.not_plain quote) backslash
      | escape known =>
          rw [List.nil_append, List.cons_append, List.cons_append] at same
          rw [same] at ends
          exact absurd known ends.not_escape
  | plain quote backslash _ ih =>
      cases otherSpells with
      | nil =>
          rw [List.nil_append, List.cons_append] at same
          rw [← same] at otherEnds
          exact absurd (otherEnds.not_plain quote) backslash
      | plain _ _ later =>
          rw [List.cons_append, List.cons_append] at same
          obtain ⟨rfl, tails⟩ := List.cons.inj same
          obtain ⟨rfl, rfl⟩ := ih later tails
          exact ⟨rfl, rfl⟩
      | escape =>
          rw [List.cons_append, List.cons_append] at same
          exact absurd (List.cons.inj same).1 backslash
  | escape known _ ih =>
      cases otherSpells with
      | nil =>
          rw [List.nil_append, List.cons_append, List.cons_append] at same
          rw [← same] at otherEnds
          exact absurd known otherEnds.not_escape
      | plain _ backslash =>
          rw [List.cons_append, List.cons_append] at same
          exact absurd (List.cons.inj same).1.symm backslash
      | escape _ later =>
          simp only [List.cons_append, List.cons.injEq, true_and] at same
          obtain ⟨rfl, tails⟩ := same
          obtain ⟨rfl, rfl⟩ := ih later tails
          exact ⟨rfl, rfl⟩

theorem Stuck.endsLiteral {front body rest : List Char} {failure : ScanFailure}
    (stuck : Stuck front body rest failure) : EndsLiteral rest := by
  cases stuck with
  | unclosed ends => exact ends.elim .inl fun last => .inr (.inl last)
  | badEscape unknown => exact .inr (.inr (.inr ⟨_, _, rfl, forall_not_escape_iff.mpr unknown⟩))

theorem Stuck.not_quote {front body rest : List Char} {failure : ScanFailure}
    (stuck : Stuck front body ('"' :: rest) failure) : False := by
  cases stuck with
  | unclosed ends => simp at ends

namespace Scanned

variable {point : Point} {text front : List Char} {tokens others : List Token}
  {failure : ScanFailure}

theorem unique {outcome other : Option ScanFailure} (scanned : Scanned point text tokens outcome)
    (again : Scanned point text others other) : tokens = others ∧ outcome = other := by
  have faces : Scanner.Faces ⟨none, point.chars text, false⟩ (point.chars text) := ⟨rfl, rfl⟩
  have drained := Scanner.drain_scanned scanned faces [] (Nat.le_refl _)
  rw [Scanner.drain_scanned again faces [] (Nat.le_refl _), Prod.mk.injEq] at drained
  exact ⟨drained.1.symm, drained.2.symm⟩

def Apart (point : Point) (front : List Char) (tokens : List Token) : Prop :=
  ∀ token ∈ tokens.getLast?, token.kind.OfWord → token.span.stop ≠ (point.after front).offset

theorem apart_cons {gap spelled front rest : List Char} {kind : TokenKind} {value : String}
    (stops : kind.Stops (front ++ '"' :: rest))
    (apart : Apart ((point.after gap).after spelled) front tokens) :
    Apart point (gap ++ (spelled ++ front))
      ((point.after gap).token kind value spelled :: tokens) := by
  intro token last word
  rw [List.getLast?_cons, Option.mem_some_iff] at last
  rw [Point.after_append, Point.after_append]
  cases later : tokens.getLast? with
  | some found =>
      rw [later, Option.getD_some] at last
      subst last
      exact apart found later word
  | none =>
      -- The first token is the last one as well, so only white space is left in front of the quote.
      rw [later, Option.getD_none] at last
      subst last
      cases front with
      | nil =>
          rcases stops word '"' rfl with blank | mark
          · exact absurd blank (by decide)
          · exact absurd mark (by decide)
      | cons c front =>
          have positive := byteSize_pos (List.cons_ne_nil c front)
          simp only [Point.token, Point.span, Point.after_offset]
          omega

theorem exists_stuck (scanned : Scanned point text tokens (some failure)) :
    ∃ front body content rest, text = front ++ '"' :: (body ++ rest) ∧
      Scanned point front tokens none ∧ Apart point front tokens ∧ Spells body content ∧
      ((rest = [] ∨ rest = ['\\']) ∧
          failure = ⟨.unclosedString, (point.after front).char '"'⟩ ∨
        ∃ letter more, rest = '\\' :: letter :: more ∧ (∀ c, ¬Escape letter c) ∧
          failure = ⟨.badEscape letter,
            (point.after (front ++ '"' :: (body ++ ['\\']))).char letter⟩) := by
  generalize broken : some failure = outcome at scanned
  induction scanned with
  | done => cases broken
  | @unclosed point gap body content tail blank spells ends =>
      cases broken
      exact ⟨gap, body, content, tail, rfl, .done blank, by simp [Apart], spells, .inl ⟨ends, rfl⟩⟩
  | @badEscape point gap body content letter rest blank spells unknown =>
      cases broken
      exact ⟨gap, body, content, _, rfl, .done blank, by simp [Apart], spells,
        .inr ⟨letter, rest, rfl, unknown, rfl⟩⟩
  | @token point gap kind value spelled rest tokens outcome blank lexeme stops _ ih =>
      obtain ⟨front, body, content, tail, rfl, scanned, apart, spells, stuck⟩ := ih broken
      have stopsFront : kind.Stops front := by
        intro word c member
        refine stops word c ?_
        rw [List.head?_append, Option.mem_def.mp member]
        rfl
      refine ⟨gap ++ (spelled ++ front), body, content, tail, by simp,
        .token blank lexeme stopsFront scanned, apart_cons stops apart, spells, ?_⟩
      simp only [List.append_assoc, Point.after_append] at stuck ⊢
      exact stuck

theorem behind_apart {rest : List Char} {outcome : Option ScanFailure}
    (scanned : Scanned point front tokens none) (apart : Apart point front tokens)
    (later : Scanned (point.after front) ('"' :: rest) others outcome) :
    Scanned point (front ++ '"' :: rest) (tokens ++ others) outcome := by
  refine scanned.append later ?_
  intro token last stop word
  exact absurd stop (apart token last word)

theorem exists_closed {more : List Char} (scanned : Scanned point front tokens none)
    (apart : Apart point front tokens)
    (whole : Scanned point (front ++ '"' :: more) others none) :
    ∃ body content rest, more = body ++ '"' :: rest ∧ Spells body content := by
  have fails {failure} (later : Scanned (point.after front) ('"' :: more) [] (some failure)) :
      False := by
    have broken := (scanned.behind_apart apart later).unique whole
    cases broken.2
  have nothing : Blank [] := List.forall_mem_nil _
  obtain ⟨body, content, tail, rfl, spells, ends⟩ := literal_cases more
  rcases ends with empty | last | ⟨rest, rfl⟩ | ⟨letter, rest, rfl, unknown⟩
  · exact (fails (.unclosed nothing spells (.inl empty))).elim
  · exact (fails (.unclosed nothing spells (.inr last))).elim
  · exact ⟨body, content, rest, rfl, spells⟩
  · exact (fails (.badEscape nothing spells unknown)).elim

end Scanned

namespace BreaksOff

variable {text front body rest other inner more : List Char} {failure fault : ScanFailure}

theorem exists_scanned (breaks : BreaksOff text front body rest failure) :
    ∃ tokens, Scanned .start front tokens none ∧ Scanned.Apart .start front tokens := by
  obtain ⟨tokens, done, apart⟩ := breaks.opens
  rw [tokenize_eq_ok_iff_scanned, String.toList_ofList] at done
  refine ⟨tokens, done, ?_⟩
  intro token last word
  rw [Point.after_offset, Point.start_offset, Nat.zero_add]
  exact apart token last word

theorem scanned (breaks : BreaksOff text front body rest failure) :
    ∃ tokens, Scanned .start text tokens (some failure) := by
  obtain ⟨tokens, scanned, apart⟩ := breaks.exists_scanned
  obtain ⟨content, spells⟩ := breaks.spelled
  have nothing : Blank [] := List.forall_mem_nil _
  refine ⟨tokens ++ [], ?_⟩
  rw [breaks.split]
  apply scanned.behind_apart apart
  cases breaks.stuck with
  | unclosed ends =>
      rw [← char_start_after]
      exact .unclosed nothing spells ends
  | badEscape unknown =>
      rw [← char_start_after, Point.after_append]
      exact .badEscape nothing spells (forall_not_escape_iff.mpr unknown)

theorem not_before (breaks : BreaksOff text front body rest failure)
    (again : BreaksOff text (front ++ '"' :: other) inner more fault) : False := by
  obtain ⟨tokens, scanned, apart⟩ := breaks.exists_scanned
  obtain ⟨others, whole, _⟩ := again.exists_scanned
  obtain ⟨closed, _, after, rfl, spellsClosed⟩ := scanned.exists_closed apart whole
  obtain ⟨content, spells⟩ := breaks.spelled
  have same : body ++ rest = closed ++ '"' :: (after ++ '"' :: (inner ++ more)) := by
    have splits := breaks.split.symm.trans again.split
    simpa using splits
  have quoted : EndsLiteral ('"' :: (after ++ '"' :: (inner ++ more))) :=
    .inr (.inr (.inl ⟨_, rfl⟩))
  -- The quote of the second literal would close the first one.
  obtain ⟨_, rfl⟩ := spells.unique spellsClosed breaks.stuck.endsLiteral quoted same
  exact breaks.stuck.not_quote

theorem front_unique (breaks : BreaksOff text front body rest failure)
    (again : BreaksOff text other inner more fault) : front = other := by
  have same := breaks.split.symm.trans again.split
  rcases List.append_eq_append_iff.mp same with ⟨gap, rfl, later⟩ | ⟨gap, rfl, later⟩
  · cases gap with
    | nil => exact (List.append_nil front).symm
    | cons c gap =>
        obtain ⟨rfl, _⟩ := List.cons.inj later
        exact (breaks.not_before again).elim
  · cases gap with
    | nil => exact List.append_nil other
    | cons c gap =>
        obtain ⟨rfl, _⟩ := List.cons.inj later
        exact (again.not_before breaks).elim

theorem unique (breaks : BreaksOff text front body rest failure)
    (again : BreaksOff text other inner more fault) :
    front = other ∧ body = inner ∧ rest = more := by
  obtain rfl := breaks.front_unique again
  obtain ⟨_, spells⟩ := breaks.spelled
  obtain ⟨_, otherSpells⟩ := again.spelled
  have same := breaks.split.symm.trans again.split
  rw [List.append_cancel_left_eq, List.cons.injEq] at same
  exact ⟨rfl, spells.unique otherSpells breaks.stuck.endsLiteral again.stuck.endsLiteral same.2⟩

end BreaksOff

theorem Scanned.exists_breaksOff {text : List Char} {tokens : List Token} {failure : ScanFailure}
    (scanned : Scanned .start text tokens (some failure)) :
    ∃ front body rest, BreaksOff text front body rest failure ∧
      tokenize (String.ofList front) = .ok tokens := by
  obtain ⟨front, body, content, rest, split, before, apart, spells, stuck⟩ := scanned.exists_stuck
  have opens : tokenize (String.ofList front) = .ok tokens := by
    rw [tokenize_eq_ok_iff_scanned, String.toList_ofList]
    exact before
  refine ⟨front, body, rest, ⟨split, ⟨tokens, opens, ?_⟩, ⟨content, spells⟩, ?_⟩, opens⟩
  · intro token last word
    have stop := apart token last word
    rw [Point.after_offset, Point.start_offset, Nat.zero_add] at stop
    exact stop
  · rcases stuck with ⟨ends, rfl⟩ | ⟨letter, more, rfl, unknown, rfl⟩
    · rw [char_start_after]
      exact .unclosed ends
    · rw [char_start_after]
      exact .badEscape (forall_not_escape_iff.mp unknown)

theorem tokenize_eq_error_iff_breaksOff {text : String} {failure : ScanFailure} :
    tokenize text = .error failure ↔
      ∃ front body rest, BreaksOff text.toList front body rest failure := by
  rw [tokenize_eq_error_iff_scanned]
  constructor
  · rintro ⟨tokens, scanned⟩
    obtain ⟨front, body, rest, breaks, _⟩ := scanned.exists_breaksOff
    exact ⟨front, body, rest, breaks⟩
  · rintro ⟨front, body, rest, breaks⟩
    exact breaks.scanned

/-- A text has no tokens just when one of its literals breaks off, and then the failure is that of
this literal, of which there is only one. It is told at the opening quote, or at the character that
was to be escaped. -/
theorem tokenize_eq_error_iff :
    (∀ text failure, tokenize text = .error failure ↔
      ∃ front body rest, BreaksOff text.toList front body rest failure) ∧
    (∀ text front body rest failure other inner more fault,
      BreaksOff text front body rest failure → BreaksOff text other inner more fault →
        front = other ∧ body = inner ∧ rest = more) ∧
    (∀ front, Diagnostic.ofScanFailure ⟨.unclosedString, charBehind front '"'⟩ =
      .lex "unexpected EOF while scanning string literal"
        ⟨none, some ⟨1 + front.count '\n', 1 + (lastLine front).length⟩,
          some ⟨byteSize front, byteSize front + 1⟩, none, some "close the string with `\"`"⟩) ∧
    ∀ front c, Diagnostic.ofScanFailure ⟨.badEscape c, charBehind front c⟩ =
      .lex ("character " ++ Text.quotedChar c ++ " does not correspond to any escape sequence")
        ⟨none, some ⟨1 + front.count '\n', 1 + (lastLine front).length⟩,
          some ⟨byteSize front, byteSize front + c.utf8Size⟩, none,
          some "supported escapes are \\\\ \\n \\t \\r \\\""⟩ := by
  refine ⟨fun text failure => tokenize_eq_error_iff_breaksOff, ?_, fun front => rfl,
    fun front c => rfl⟩
  intro text front body rest failure other inner more fault breaks again
  exact breaks.unique again

/-- Behind a word with a quote in it, a literal with a line feed that breaks off at a character of
two bytes. What looks like another literal further on does not matter. -/
theorem tokenize_eq_error_iff_sample :
    let text := "a\"b \"\n\\n\\é \"x"
    let front := ['a', '"', 'b', ' ']
    let body := ['\n', '\\', 'n']
    let rest := ['\\', 'é', ' ', '"', 'x']
    let failure : ScanFailure := ⟨.badEscape 'é', ⟨'é', ⟨2, 4⟩, 9⟩⟩
    BreaksOff text.toList front body rest failure ∧ tokenize text = .error failure ∧
      ∀ other inner more fault, BreaksOff text.toList other inner more fault →
        front = other ∧ body = inner ∧ rest = more := by
  intro text front body rest failure
  have breaks : BreaksOff text.toList front body rest failure := by
    refine ⟨by decide, ⟨[⟨"a\"b", .identifier, ⟨1, 1⟩, ⟨0, 3⟩⟩], by decide +kernel, ?_⟩, ?_, ?_⟩
    · intro token last _
      rw [List.getLast?_singleton, Option.mem_some_iff] at last
      rw [← last]
      decide
    · exact ⟨['\n', '\n'], .plain (by decide) (by decide) (.escape .lineFeed .nil)⟩
    · exact .badEscape (by decide)
  refine ⟨breaks, (tokenize_eq_error_iff.1 text failure).mpr ⟨front, body, rest, breaks⟩, ?_⟩
  intro other inner more fault again
  exact tokenize_eq_error_iff.2.1 _ _ _ _ _ _ _ _ _ breaks again

end AeSchema
