import AeSchema.Proofs.Token.Scanned

/-! Where the tokens of a text stand: one after the other, each at its lexeme, with nothing but
white space around them. -/

namespace AeSchema

open Source Text

def Source.Span.Covers (span : Span) (position : Nat) : Prop :=
  span.start ≤ position ∧ position < span.stop

def StandsAt (text : List Char) (span : Span) (spelled rest : List Char) : Prop :=
  ∃ front, text = front ++ (spelled ++ rest) ∧
    span = ⟨byteSize front, byteSize (front ++ spelled)⟩

/-- Nothing of the text is lost in the tokens and nothing is added. -/
structure Tiles (text : List Char) (tokens : List Token) : Prop where
  nonempty : ∀ token ∈ tokens, token.span.start < token.span.stop
  ordered : tokens.Pairwise fun first second => first.span.stop ≤ second.span.start
  blank : ∀ front c back, text = front ++ c :: back →
    (∀ token ∈ tokens, ¬token.span.Covers (byteSize front)) → isBlank c = true
  lexeme : ∀ token ∈ tokens, ∃ spelled rest, StandsAt text token.span spelled rest ∧
    IsLexeme token.kind token.value spelled ∧ token.kind.Stops rest

theorem append_eq_append_cons {α : Type} {first second front back : List α} {item : α}
    (split : first ++ second = front ++ item :: back) :
    (∃ inner, first = front ++ item :: inner) ∨
      ∃ inner, front = first ++ inner ∧ second = inner ++ item :: back := by
  rcases List.append_eq_append_iff.mp split with ⟨inner, beyond, rest⟩ | ⟨inner, within, rest⟩
  · exact .inr ⟨inner, beyond, rest⟩
  · cases inner with
    | nil => exact .inr ⟨[], by simpa using within.symm, by simpa using rest.symm⟩
    | cons next inner =>
        simp only [List.cons_append, List.cons.injEq] at rest
        exact .inl ⟨inner, rest.1 ▸ within⟩

namespace Scanned

variable {point : Point} {text : List Char} {tokens : List Token} {failure : Option ScanFailure}

theorem exists_of_mem (scanned : Scanned point text tokens failure) {token : Token}
    (member : token ∈ tokens) :
    ∃ front spelled rest, text = front ++ (spelled ++ rest) ∧
      token = (point.after front).token token.kind token.value spelled ∧
      IsLexeme token.kind token.value spelled ∧ token.kind.Stops rest := by
  induction scanned with
  | done | unclosed | badEscape => simp at member
  | @token point gap kind value spelled rest tokens failure blank lexeme stops _ ih =>
      rcases List.mem_cons.mp member with rfl | later
      · exact ⟨gap, spelled, rest, rfl, rfl, lexeme, stops⟩
      · obtain ⟨front, inner, back, rfl, placed, found⟩ := ih later
        refine ⟨gap ++ spelled ++ front, inner, back, by simp, ?_, found⟩
        rw [Point.after_append, Point.after_append]
        exact placed

theorem span_of_mem (scanned : Scanned point text tokens failure) {token : Token}
    (member : token ∈ tokens) :
    point.offset ≤ token.span.start ∧ token.span.start < token.span.stop := by
  obtain ⟨front, spelled, rest, _, placed, lexeme, _⟩ := scanned.exists_of_mem member
  have positive := byteSize_pos lexeme.nonempty
  rw [placed]
  simp only [Point.token, Point.span, Point.after_offset]
  omega

theorem pairwise_spans (scanned : Scanned point text tokens failure) :
    tokens.Pairwise fun first second => first.span.stop ≤ second.span.start := by
  induction scanned with
  | done | unclosed | badEscape => exact .nil
  | token _ _ _ later ih => exact .cons (fun _ member => (later.span_of_mem member).1) ih

theorem blank_of_uncovered (scanned : Scanned point text tokens none) {front back : List Char}
    {c : Char} (split : text = front ++ c :: back)
    (uncovered : ∀ token ∈ tokens, ¬token.span.Covers (point.offset + byteSize front)) :
    isBlank c = true := by
  generalize complete : none = failure at scanned
  induction scanned generalizing front with
  | unclosed | badEscape => cases complete
  | done blank => exact blank c (by simp [split])
  | @token point gap kind value spelled rest tokens failure blank lexeme stops _ ih =>
      rcases append_eq_append_cons split with ⟨inner, rfl⟩ | ⟨beyond, rfl, visible⟩
      · exact blank c (by simp)
      rcases append_eq_append_cons visible with ⟨inner, rfl⟩ | ⟨later, rfl, remaining⟩
      · have outside := uncovered _ (List.mem_cons_self ..)
        have positive := c.utf8Size_pos
        simp only [Span.Covers, Point.token, Point.span, Point.after_offset, byteSize_append,
          byteSize] at outside
        omega
      · refine ih remaining ?_ complete
        intro token member
        have outside := uncovered token (by simp [member])
        simpa [byteSize_append, Nat.add_assoc] using outside

end Scanned

/-- The spans of the tokens are nonempty and in order; all other characters are white space; and at
each span stands a lexeme of the token's kind and value, as long as it can be. -/
theorem tokenize_tiles {text : String} {tokens : List Token} (done : tokenize text = .ok tokens) :
    Tiles text.toList tokens := by
  have scanned := tokenize_eq_ok_iff_scanned.mp done
  constructor
  · intro token member
    exact (scanned.span_of_mem member).2
  · exact scanned.pairwise_spans
  · intro front c back split uncovered
    exact scanned.blank_of_uncovered split (by simpa using uncovered)
  · intro token member
    obtain ⟨front, spelled, rest, split, placed, lexeme, stops⟩ := scanned.exists_of_mem member
    refine ⟨spelled, rest, ⟨front, split, ?_⟩, lexeme, stops⟩
    rw [placed]
    simp [Point.token, Point.span, byteSize_append]

theorem tokenize_tiles_sample :
    let tokens : List Token :=
      [⟨"é\"k", .identifier, ⟨1, 1⟩, ⟨0, 4⟩⟩, ⟨":", .colon, ⟨1, 4⟩, ⟨4, 5⟩⟩,
        ⟨"\"é", .string, ⟨1, 5⟩, ⟨5, 11⟩⟩]
    tokenize "é\"k:\"\\\"é\" " = .ok tokens ∧ Tiles "é\"k:\"\\\"é\" ".toList tokens := by
  refine ⟨?_, tokenize_tiles ?_⟩
  all_goals decide +kernel

end AeSchema
