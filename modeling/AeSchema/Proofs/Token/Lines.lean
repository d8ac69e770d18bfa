import AeSchema.Proofs.Token.Layout

/-! Lines of lexemes: single spaces between the lexemes of a line, and each line on its own. -/

namespace AeSchema

open Source

structure Lexeme where
  kind : TokenKind
  value : String
  deriving DecidableEq, Repr

def Token.lexeme (token : Token) : Lexeme :=
  ⟨token.kind, token.value⟩

def literalChar (c : Char) : List Char :=
  if c = '"' ∨ c = '\\' then ['\\', c] else [c]

namespace Lexeme

def keyword (keyword : Keyword) : Lexeme := ⟨.keyword, keyword.text⟩

def identifier (name : String) : Lexeme := ⟨.identifier, name⟩

def string (content : String) : Lexeme := ⟨.string, content⟩

def curlyOpen : Lexeme := ⟨.curlyOpen, "\x7b"⟩

def curlyClose : Lexeme := ⟨.curlyClose, "\x7d"⟩

def colon : Lexeme := ⟨.colon, ":"⟩

def comma : Lexeme := ⟨.comma, ","⟩

/-- In a literal only quotes and backslashes are escaped. -/
def written (lexeme : Lexeme) : String :=
  match lexeme.kind with
  | .string => "\"" ++ String.ofList (lexeme.value.toList.flatMap literalChar) ++ "\""
  | _ => lexeme.value

def Sound (lexeme : Lexeme) : Prop :=
  lexeme.kind.Admits lexeme.value

def piece (gap : List Char) (lexeme : Lexeme) : Piece :=
  ⟨gap, lexeme.kind, lexeme.value, lexeme.written.toList⟩

end Lexeme

def Piece.lexeme (piece : Piece) : Lexeme :=
  ⟨piece.kind, piece.value⟩

def lineText (line : List Lexeme) : String :=
  " ".intercalate (line.map Lexeme.written)

def linesText (lines : List (List Lexeme)) : String :=
  "\n".intercalate (lines.map lineText)

theorem spells_literal (content : List Char) : Spells (content.flatMap literalChar) content := by
  induction content with
  | nil => exact .nil
  | cons c content ih =>
      rw [List.flatMap_cons, literalChar]
      split
      next special =>
        rcases special with rfl | rfl
        · exact .escape .quote ih
        · exact .escape .backslash ih
      next plain =>
        rw [not_or] at plain
        exact .plain plain.1 plain.2 ih

theorem Lexeme.Sound.isLexeme {lexeme : Lexeme} (sound : lexeme.Sound) :
    IsLexeme lexeme.kind lexeme.value lexeme.written.toList := by
  refine ⟨sound, ?_⟩
  unfold written
  cases lexeme.kind
  case string => exact ⟨_, by simp, spells_literal lexeme.value.toList⟩
  all_goals rfl

def linePieces : List Char → List Lexeme → List Piece
  | _, [] => []
  | gap, lexeme :: line => lexeme.piece gap :: linePieces [' '] line

def linesPieces : List Char → List (List Lexeme) → List Piece
  | _, [] => []
  | gap, line :: lines => linePieces gap line ++ linesPieces ['\n'] lines

section Pieces

variable {gap : List Char} {line : List Lexeme} {lines : List (List Lexeme)} {piece : Piece}

theorem layout_append (first second : List Piece) (trailing : List Char) :
    layout (first ++ second) trailing = layout first (layout second trailing) := by
  induction first with
  | nil => rfl
  | cons piece rest ih => simp only [List.cons_append, layout, ih]

theorem layout_linePieces (nonempty : line ≠ []) :
    layout (linePieces gap line) [] = gap ++ (lineText line).toList := by
  induction line generalizing gap with
  | nil => exact absurd rfl nonempty
  | cons lexeme line ih =>
      cases line with
      | nil => simp [linePieces, layout, lineText, Lexeme.piece]
      | cons next line =>
          rw [linePieces, layout, ih (List.cons_ne_nil next line)]
          simp [lineText, Lexeme.piece]

theorem layout_linesPieces (some : lines ≠ []) (nonempty : ∀ line ∈ lines, line ≠ []) :
    layout (linesPieces gap lines) [] = gap ++ (linesText lines).toList := by
  induction lines generalizing gap with
  | nil => exact absurd rfl some
  | cons line lines ih =>
      rw [linesPieces, layout_append, layout_eq_append, layout_linePieces (nonempty line (by simp))]
      cases lines with
      | nil => simp [linesPieces, layout, linesText]
      | cons next lines =>
          rw [ih (List.cons_ne_nil next lines) fun line member => nonempty line (by simp [member])]
          simp [linesText]

theorem mem_linePieces (member : piece ∈ linePieces gap line) :
    ∃ lexeme ∈ line, piece = lexeme.piece gap ∨ piece = lexeme.piece [' '] := by
  induction line generalizing gap with
  | nil => simp [linePieces] at member
  | cons lexeme line ih =>
      rw [linePieces, List.mem_cons] at member
      rcases member with rfl | later
      · exact ⟨lexeme, by simp, .inl rfl⟩
      · obtain ⟨other, inLine, same⟩ := ih later
        exact ⟨other, by simp [inLine], .inr (or_self_iff.mp same)⟩

theorem mem_linesPieces (member : piece ∈ linesPieces gap lines) :
    ∃ lexeme ∈ lines.flatten, piece = lexeme.piece gap ∨ piece = lexeme.piece [' '] ∨
      piece = lexeme.piece ['\n'] := by
  induction lines generalizing gap with
  | nil => simp [linesPieces] at member
  | cons line lines ih =>
      rw [linesPieces, List.mem_append] at member
      rcases member with here | later
      · obtain ⟨lexeme, inLine, same⟩ := mem_linePieces here
        exact ⟨lexeme, by simp [inLine], by tauto⟩
      · obtain ⟨lexeme, inLines, same⟩ := ih later
        exact ⟨lexeme, by simp [inLines], by tauto⟩

theorem gap_ne_nil (nonempty : gap ≠ []) (member : piece ∈ linesPieces gap lines) :
    piece.gap ≠ [] := by
  obtain ⟨_, _, rfl | rfl | rfl⟩ := mem_linesPieces member
  · exact nonempty
  · exact List.cons_ne_nil _ _
  · exact List.cons_ne_nil _ _

theorem sound_linesPieces (blank : Blank gap) (sound : ∀ lexeme ∈ lines.flatten, lexeme.Sound)
    (member : piece ∈ linesPieces gap lines) : piece.Sound := by
  have space : Blank [' '] := by decide
  have lineFeed : Blank ['\n'] := by decide
  obtain ⟨lexeme, inLines, rfl | rfl | rfl⟩ := mem_linesPieces member
  · exact ⟨blank, (sound lexeme inLines).isLexeme⟩
  · exact ⟨space, (sound lexeme inLines).isLexeme⟩
  · exact ⟨lineFeed, (sound lexeme inLines).isLexeme⟩

theorem isChain_apart {pieces : List Piece} (gaps : ∀ piece ∈ pieces, piece.gap ≠ [])
    (first : Piece) : (first :: pieces).IsChain Piece.Apart := by
  induction pieces generalizing first with
  | nil => exact .singleton first
  | cons next pieces ih =>
      rw [List.isChain_cons_cons]
      refine ⟨fun _ _ => gaps next (by simp), ih (fun piece member => ?_) next⟩
      exact gaps piece (by simp [member])

theorem written_linesPieces (sound : ∀ lexeme ∈ lines.flatten, lexeme.Sound)
    (nonempty : ∀ line ∈ lines, line ≠ []) : Written (linesPieces [] lines) [] := by
  refine ⟨fun piece => sound_linesPieces (by decide) sound, ?_, by decide⟩
  cases lines with
  | nil => exact .nil
  | cons line lines =>
      cases line with
      | nil => exact absurd rfl (nonempty [] (by simp))
      | cons lexeme line =>
          refine isChain_apart (fun piece member => ?_) _
          rcases List.mem_append.mp member with here | later
          · obtain ⟨_, _, rfl | rfl⟩ := mem_linePieces here
            all_goals exact List.cons_ne_nil _ _
          · exact gap_ne_nil (List.cons_ne_nil _ _) later

theorem map_lexeme_placed (point : Point) (pieces : List Piece) :
    (placed point pieces).map Token.lexeme = pieces.map Piece.lexeme := by
  induction pieces generalizing point with
  | nil => rfl
  | cons piece pieces ih => simp [placed, ih, Token.lexeme, Piece.lexeme, Point.token]

theorem map_lexeme_linePieces : (linePieces gap line).map Piece.lexeme = line := by
  induction line generalizing gap with
  | nil => rfl
  | cons lexeme line ih => simp [linePieces, ih, Lexeme.piece, Piece.lexeme]

theorem map_lexeme_linesPieces : (linesPieces gap lines).map Piece.lexeme = lines.flatten := by
  induction lines generalizing gap with
  | nil => rfl
  | cons line lines ih => simp [linesPieces, map_lexeme_linePieces, ih]

theorem tokenize_linesText (sound : ∀ lexeme ∈ lines.flatten, lexeme.Sound)
    (nonempty : ∀ line ∈ lines, line ≠ []) :
    ∃ tokens, tokenize (linesText lines) = .ok tokens ∧
      tokens.map Token.lexeme = lines.flatten := by
  refine ⟨placed .start (linesPieces [] lines), ?_, ?_⟩
  · have written := tokenize_layout_placed (written_linesPieces sound nonempty)
    by_cases none : lines = []
    · subst none
      exact written
    · rw [layout_linesPieces none nonempty, List.nil_append, String.ofList_toList] at written
      exact written
  · rw [map_lexeme_placed, map_lexeme_linesPieces]

end Pieces

end AeSchema
