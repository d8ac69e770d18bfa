import AeSchema.Proofs.Token.Scanned
import Mathlib.Data.List.Chain

/-! Layouts: token sequences written out with any white space around them. However that is done,
the text has these tokens and no others. -/

namespace AeSchema

open Source Text

/-- A token as it is written: the white space in front of it and its lexeme. -/
structure Piece where
  gap : List Char
  kind : TokenKind
  value : String
  spelled : List Char

namespace Piece

structure Sound (piece : Piece) : Prop where
  blank : Blank piece.gap
  lexeme : IsLexeme piece.kind piece.value piece.spelled

/-- Only a word needs white space behind it, and only in front of a word or a string. -/
def Apart (first second : Piece) : Prop :=
  first.kind.OfWord → second.kind.OfWord ∨ second.kind = .string → second.gap ≠ []

end Piece

def layout : List Piece → List Char → List Char
  | [], trailing => trailing
  | piece :: rest, trailing => piece.gap ++ (piece.spelled ++ layout rest trailing)

structure Written (pieces : List Piece) (trailing : List Char) : Prop where
  sound : ∀ piece ∈ pieces, piece.Sound
  apart : pieces.IsChain Piece.Apart
  blank : Blank trailing

def placed : Point → List Piece → List Token
  | _, [] => []
  | point, piece :: rest =>
      (point.after piece.gap).token piece.kind piece.value piece.spelled ::
        placed ((point.after piece.gap).after piece.spelled) rest

/-- The tokens are those of the pieces, at the bytes where the pieces were written. -/
structure TokensOf (pieces : List Piece) (tokens : List Token) : Prop where
  length : tokens.length = pieces.length
  token : ∀ before piece after, pieces = before ++ piece :: after →
    ∃ token, tokens[before.length]? = some token ∧
      token.kind = piece.kind ∧ token.value = piece.value ∧
      token.span = ⟨byteSize (layout before piece.gap),
        byteSize (layout before piece.gap ++ piece.spelled)⟩

variable {pieces : List Piece} {trailing : List Char}

theorem Written.tail {piece : Piece} (written : Written (piece :: pieces) trailing) :
    Written pieces trailing :=
  ⟨fun other member => written.sound other (by simp [member]), written.apart.tail, written.blank⟩

theorem boundary_of_blank {gap rest : List Char} (blank : Blank gap) (nonempty : gap ≠ []) :
    ∀ c ∈ (gap ++ rest).head?, Boundary c := by
  cases gap with
  | nil => exact absurd rfl nonempty
  | cons first gap =>
      intro c member
      rw [List.cons_append, List.head?_cons, Option.mem_some_iff] at member
      exact .inl (blank c (by simp [member]))

theorem IsLexeme.boundary {kind : TokenKind} {value : String} {spelled : List Char}
    (lexeme : IsLexeme kind value spelled) (mark : ¬(kind.OfWord ∨ kind = .string))
    (rest : List Char) : ∀ c ∈ (spelled ++ rest).head?, Boundary c := by
  rcases lexeme.cases with ⟨c, known, _, rfl⟩ | ⟨string, _⟩ | ⟨_, _, word⟩
  · intro first member
    rw [List.singleton_append, List.head?_cons, Option.mem_some_iff] at member
    subst first
    exact .inr (mem_punctuation_iff.mpr (by simp [known]))
  · exact absurd (.inr string) mark
  · refine absurd (.inl ?_) mark
    rw [word]
    split
    · exact .inl rfl
    · exact .inr rfl

theorem stops_layout {piece : Piece} (written : Written (piece :: pieces) trailing) :
    piece.kind.Stops (layout pieces trailing) := by
  intro word
  cases pieces with
  | nil =>
      intro c member
      exact .inl (written.blank c (List.mem_of_head? member))
  | cons next pieces =>
      have sound := written.sound next (by simp)
      have apart : piece.Apart next := by
        have chain := written.apart
        rw [List.isChain_cons_cons] at chain
        exact chain.1
      by_cases empty : next.gap = []
      · have mark : ¬(next.kind.OfWord ∨ next.kind = .string) :=
          fun other => apart word other empty
        rw [layout, empty, List.nil_append]
        exact sound.lexeme.boundary mark _
      · exact boundary_of_blank sound.blank empty

theorem scanned_layout (written : Written pieces trailing) (point : Point) :
    Scanned point (layout pieces trailing) (placed point pieces) none := by
  induction pieces generalizing point with
  | nil => exact .done written.blank
  | cons piece pieces ih =>
      have sound := written.sound piece (by simp)
      exact .token sound.blank sound.lexeme (stops_layout written) (ih written.tail _)

theorem tokenize_layout_placed (written : Written pieces trailing) :
    tokenize (String.ofList (layout pieces trailing)) = .ok (placed .start pieces) := by
  rw [tokenize_eq_ok_iff_scanned, String.toList_ofList]
  exact scanned_layout written .start

theorem length_placed (point : Point) (pieces : List Piece) :
    (placed point pieces).length = pieces.length := by
  induction pieces generalizing point with
  | nil => rfl
  | cons piece pieces ih => simp [placed, ih]

theorem layout_eq_append (pieces : List Piece) (trailing : List Char) :
    layout pieces trailing = layout pieces [] ++ trailing := by
  induction pieces with
  | nil => rfl
  | cons piece rest ih => simp only [layout, List.append_assoc, ← ih]

theorem placed_append (point : Point) (first second : List Piece) :
    placed point (first ++ second) =
      placed point first ++ placed (point.after (layout first [])) second := by
  induction first generalizing point with
  | nil => simp [placed, layout]
  | cons piece rest ih => simp [placed, layout, ih, Point.after_append]

theorem getElem?_placed (before after : List Piece) (piece : Piece) :
    (placed .start (before ++ piece :: after))[before.length]? =
      some ((Point.start.after (layout before piece.gap)).token piece.kind piece.value
        piece.spelled) := by
  rw [placed_append, List.getElem?_append_right (by simp [length_placed]), length_placed,
    layout_eq_append before piece.gap, Point.after_append]
  simp [placed]

/-- However a token sequence is laid out, its text has exactly these tokens, each where it was
written. -/
theorem tokenize_layout (written : Written pieces trailing) :
    ∃ tokens, tokenize (String.ofList (layout pieces trailing)) = .ok tokens ∧
      TokensOf pieces tokens := by
  refine ⟨_, tokenize_layout_placed written, length_placed _ _, ?_⟩
  rintro before piece after rfl
  refine ⟨_, getElem?_placed before after piece, rfl, rfl, ?_⟩
  simp [Point.token, Point.span, byteSize_append]

theorem tokenize_layout_sample :
    let pieces : List Piece :=
      [⟨[' '], .string, "a\n\"", ['"', 'a', '\n', '\\', '"', '"']⟩,
        ⟨[], .keyword, "def", ['d', 'e', 'f']⟩, ⟨[], .curlyOpen, "\x7b", ['{']⟩,
        ⟨[], .identifier, "é\"", ['é', '"']⟩, ⟨['\u3000'], .string, "", ['"', '"']⟩]
    Written pieces ['\n'] ∧
      ∃ tokens, tokenize (String.ofList (layout pieces ['\n'])) = .ok tokens ∧
        TokensOf pieces tokens := by
  intro pieces
  have written : Written pieces ['\n'] := by
    refine ⟨?_, ?_, by decide⟩
    · intro piece member
      simp only [pieces, List.mem_cons, List.not_mem_nil, or_false] at member
      rcases member with rfl | rfl | rfl | rfl | rfl
      · exact ⟨by decide, trivial, ['a', '\n', '\\', '"'], rfl,
          .plain (by decide) (by decide) (.plain (by decide) (by decide) (.escape .quote .nil))⟩
      · exact ⟨by decide, ⟨by decide, by decide⟩, rfl⟩
      · exact ⟨by decide, rfl, rfl⟩
      · exact ⟨by decide, ⟨by decide, by decide⟩, rfl⟩
      · exact ⟨by decide, trivial, [], rfl, .nil⟩
    · simp [pieces, Piece.Apart, TokenKind.OfWord]
  exact ⟨written, tokenize_layout written⟩

end AeSchema
