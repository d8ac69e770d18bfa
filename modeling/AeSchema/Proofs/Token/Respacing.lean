import AeSchema.Proofs.Token.Lines

/-! Texts in other white space. Every text without a bad string is some layout of its lexemes, and
in any other white space between them it has the same lexemes. -/

namespace AeSchema

open Source

/-- The same lexeme behind other white space, and behind some where there was some. -/
structure Piece.Respaced (piece other : Piece) : Prop where
  kind : other.kind = piece.kind
  value : other.value = piece.value
  spelled : other.spelled = piece.spelled
  blank : Blank other.gap
  kept : piece.gap ≠ [] → other.gap ≠ []

theorem IsLexeme.exists_head? {kind : TokenKind} {value : String} {spelled : List Char}
    (lexeme : IsLexeme kind value spelled) (long : kind.OfWord ∨ kind = .string) :
    ∃ c, spelled.head? = some c ∧ ¬Boundary c := by
  have ofWord (word : IsWord spelled) : ∃ c, spelled.head? = some c ∧ ¬Boundary c := by
    obtain ⟨c, rest, rfl⟩ := List.exists_cons_of_ne_nil word.nonempty
    exact ⟨c, rfl, word.unbroken c (by simp)⟩
  obtain ⟨admits, writes⟩ := lexeme
  rcases long with (rfl | rfl) | rfl
  · obtain rfl : spelled = value.toList := writes
    exact ofWord admits.1
  · obtain rfl : spelled = value.toList := writes
    exact ofWord admits.1
  · obtain ⟨body, rfl, _⟩ := writes
    exact ⟨'"', rfl, by decide⟩

theorem apart_of_stops {piece next : Piece} {pieces : List Piece} {trailing : List Char}
    (sound : next.Sound) (stops : piece.kind.Stops (layout (next :: pieces) trailing)) :
    piece.Apart next := by
  intro word long glued
  obtain ⟨c, head, inside⟩ := sound.lexeme.exists_head? long
  refine inside (stops word c ?_)
  rw [layout, glued, List.nil_append, List.head?_append, head]
  rfl

theorem Scanned.exists_layout {point : Point} {text : List Char} {tokens : List Token}
    (scanned : Scanned point text tokens none) :
    ∃ pieces trailing, Written pieces trailing ∧ text = layout pieces trailing ∧
      tokens = placed point pieces := by
  generalize complete : none = failure at scanned
  induction scanned with
  | unclosed | badEscape => cases complete
  | @done point gap blank => exact ⟨[], gap, ⟨by simp, .nil, blank⟩, rfl, rfl⟩
  | @token point gap kind value spelled rest tokens failure blank lexeme stops _ ih =>
      obtain ⟨pieces, trailing, written, rfl, rfl⟩ := ih complete
      refine ⟨⟨gap, kind, value, spelled⟩ :: pieces, trailing, ?_, rfl, rfl⟩
      constructor
      · rw [List.forall_mem_cons]
        exact ⟨⟨blank, lexeme⟩, written.sound⟩
      · cases pieces with
        | nil => exact .singleton _
        | cons next pieces =>
            rw [List.isChain_cons_cons]
            exact ⟨apart_of_stops (written.sound next (by simp)) stops, written.apart⟩
      · exact written.blank

section Respaced

variable {pieces others : List Piece} {trailing spaces : List Char}

theorem sound_respaced (sound : ∀ piece ∈ pieces, piece.Sound)
    (pairs : List.Forall₂ Piece.Respaced pieces others) : ∀ piece ∈ others, piece.Sound := by
  induction pairs with
  | nil => simp
  | cons pair _ ih =>
      rw [List.forall_mem_cons] at sound ⊢
      refine ⟨⟨pair.blank, ?_⟩, ih sound.2⟩
      rw [pair.kind, pair.value, pair.spelled]
      exact sound.1.lexeme

theorem isChain_respaced (apart : pieces.IsChain Piece.Apart)
    (pairs : List.Forall₂ Piece.Respaced pieces others) : others.IsChain Piece.Apart := by
  induction pairs with
  | nil => exact .nil
  | cons pair later ih =>
      cases later with
      | nil => exact .singleton _
      | cons next later =>
          rw [List.isChain_cons_cons] at apart ⊢
          refine ⟨?_, ih apart.2⟩
          intro word long
          rw [pair.kind] at word
          rw [next.kind] at long
          exact next.kept (apart.1 word long)

theorem Written.respaced (written : Written pieces trailing)
    (pairs : List.Forall₂ Piece.Respaced pieces others) (blank : Blank spaces) :
    Written others spaces :=
  ⟨sound_respaced written.sound pairs, isChain_respaced written.apart pairs, blank⟩

theorem map_lexeme_respaced (pairs : List.Forall₂ Piece.Respaced pieces others) :
    pieces.map Piece.lexeme = others.map Piece.lexeme := by
  induction pairs with
  | nil => rfl
  | cons pair _ ih =>
      rw [List.map_cons, List.map_cons, ih, Piece.lexeme, Piece.lexeme, pair.kind, pair.value]

end Respaced

end AeSchema
