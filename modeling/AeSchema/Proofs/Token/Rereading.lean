import AeSchema.Proofs.Text.Escapes
import AeSchema.Proofs.Text.Lines
import AeSchema.Proofs.Token.Defects

/-! Listed strings as source text: listings and literals agree on the escapes of a few characters
only, and a listed string is a literal again just when it needs no other one. -/

namespace AeSchema

open Source Text

/-- Listings show the character as it is or with an escape of literals. -/
def Rereadable (c : Char) : Prop :=
  escape '"' c ∈ [[c], ['\\', 't'], ['\\', 'r'], ['\\', 'n'], ['\\', '\\'], ['\\', '"']]

instance (c : Char) : Decidable (Rereadable c) :=
  inferInstanceAs (Decidable (_ ∈ _))

theorem escape_cases (c : Char) :
    (c ≠ '"' ∧ c ≠ '\\' ∧ escape '"' c = [c]) ∨
    (∃ letter, Escape letter c ∧ escape '"' c = ['\\', letter]) ∨
    escape '"' c = ['\\', '0'] ∨ escape '"' c = codePointEscape c := by
  have spelling := spelling_escape c
  generalize escape '"' c = word at spelling ⊢
  cases spelling with
  | plain quote backslash => exact .inl ⟨quote, backslash, rfl⟩
  | @letter letter _ known =>
      rw [listed] at known
      split at known
      next nul => exact .inr (.inr (.inl (by rw [nul])))
      next => exact .inr (.inl ⟨letter, unescape?_eq_some_iff.mp known, rfl⟩)
  | number braced => exact .inr (.inr (.inr (by rw [braced]; rfl)))

theorem escape_of_not_rereadable {c : Char} (lost : ¬Rereadable c) :
    (escape '"' c = ['\\', '0'] ∨ escape '"' c = codePointEscape c) ∧
      ∃ letter more, escape '"' c = '\\' :: letter :: more ∧
        letter ∉ ['\\', 'n', 't', 'r', '"'] := by
  rcases escape_cases c with ⟨_, _, plain⟩ | ⟨letter, known, short⟩ | nul | number
  · exact absurd (by simp [Rereadable, plain]) lost
  · cases known <;> exact absurd (by simp [Rereadable, short]) lost
  · exact ⟨.inl nul, '0', [], nul, by decide⟩
  · exact ⟨.inr number, 'u', _, number, by decide⟩

theorem Rereadable.spells {c : Char} {body content : List Char} (kept : Rereadable c)
    (spells : Spells body content) : Spells (escape '"' c ++ body) (c :: content) := by
  rcases escape_cases c with ⟨quote, backslash, plain⟩ | ⟨letter, known, short⟩ | nul | number
  · rw [plain]
    exact .plain quote backslash spells
  · rw [short]
    exact .escape known spells
  · simp [Rereadable, nul] at kept
  · simp [Rereadable, number, codePointEscape] at kept

theorem spells_flatMap_escape {text : List Char} (kept : ∀ c ∈ text, Rereadable c) :
    Spells (text.flatMap (escape '"')) text := by
  induction text with
  | nil => exact .nil
  | cons c rest ih =>
      rw [List.forall_mem_cons] at kept
      rw [List.flatMap_cons]
      exact kept.1.spells (ih kept.2)

theorem exists_first_not {α : Type} {Keeps : α → Prop} {items : List α}
    (lost : ∃ item ∈ items, ¬Keeps item) :
    ∃ front item back, items = front ++ item :: back ∧ (∀ kept ∈ front, Keeps kept) ∧
      ¬Keeps item := by
  induction items with
  | nil => simp at lost
  | cons first rest ih =>
      by_cases keeps : Keeps first
      · obtain ⟨front, item, back, rfl, before, fails⟩ := ih (by simpa [keeps] using lost)
        exact ⟨first :: front, item, back, rfl, List.forall_mem_cons.mpr ⟨keeps, before⟩, fails⟩
      · exact ⟨[], first, rest, rfl, List.forall_mem_nil _, keeps⟩

/-- A string as listings show it is one literal with that string as its value, from the first to the
last character, if every escape in it is one of literals. If not then scanning stops behind the
backslash of the first escape that is none. -/
theorem tokenize_display (value : String) (place : Location) (span : Span) :
    let text := (Token.mk value .string place span).display
    ((∀ c ∈ value.toList, Rereadable c) →
      tokenize text = .ok [⟨value, .string, ⟨1, 1⟩, ⟨0, byteSize text.toList⟩⟩]) ∧
    ((∃ c ∈ value.toList, ¬Rereadable c) →
      ∃ front c back letter more, value.toList = front ++ c :: back ∧
        (∀ kept ∈ front, Rereadable kept) ∧
        (escape '"' c = ['\\', '0'] ∨ escape '"' c = codePointEscape c) ∧
        escape '"' c = '\\' :: letter :: more ∧
        let before := '"' :: (front.flatMap (escape '"') ++ ['\\'])
        text.toList = before ++ letter :: (more ++ back.flatMap (escape '"') ++ ['"']) ∧
        tokenize text =
          .error ⟨.badEscape letter, ⟨letter, ⟨1, 1 + before.length⟩, byteSize before⟩⟩) := by
  intro text
  have shown : text.toList = '"' :: (value.toList.flatMap (escape '"') ++ ['"']) := by
    simp [text, Token.display, quoted, quotedBy]
  have nothing : Blank [] := List.forall_mem_nil _
  constructor
  · intro kept
    have lexeme : IsLexeme .string value text.toList := by
      rw [shown]
      exact ⟨trivial, _, rfl, spells_flatMap_escape kept⟩
    have scanned : Scanned .start ([] ++ (text.toList ++ []))
        [Point.start.token .string value text.toList] none :=
      .token nothing lexeme (by simp [TokenKind.Stops]) (.done nothing)
    rw [List.nil_append, List.append_nil] at scanned
    rw [tokenize_eq_ok_iff_scanned.mpr scanned]
    simp [Point.token, Point.span, Point.start, Location.start]
  · intro lost
    obtain ⟨front, c, back, split, kept, fails⟩ := exists_first_not lost
    obtain ⟨other, letter, more, escaped, unknown⟩ := escape_of_not_rereadable fails
    refine ⟨front, c, back, letter, more, split, kept, other, escaped, ?_⟩
    intro before
    have parts :
        text.toList = before ++ letter :: (more ++ back.flatMap (escape '"') ++ ['"']) := by
      simp [shown, split, escaped, before]
    have oneLine : '\n' ∉ before := by
      simp [before, lineFeed_not_mem_escape]
    have culprit :
        charBehind before letter = ⟨letter, ⟨1, 1 + before.length⟩, byteSize before⟩ := by
      rw [charBehind, List.count_eq_zero.mpr oneLine, lastLine_of_not_mem oneLine]
    have breaks : BreaksOff text.toList [] (front.flatMap (escape '"'))
        ('\\' :: letter :: (more ++ back.flatMap (escape '"') ++ ['"']))
        ⟨.badEscape letter, charBehind before letter⟩ :=
      ⟨by simp [parts, before], ⟨[], rfl, by simp⟩, ⟨front, spells_flatMap_escape kept⟩,
        .badEscape unknown⟩
    rw [← culprit]
    exact ⟨parts, tokenize_eq_error_iff_breaksOff.mpr ⟨[], _, _, breaks⟩⟩

/-- Escapes of literals beside a character of two bytes; and, behind such an escape, a combining
accent, which listings write as a number. -/
theorem tokenize_display_sample :
    let kept : Token := ⟨"é\t\"\\", .string, ⟨3, 4⟩, ⟨30, 40⟩⟩
    let lost : Token := ⟨"é\r\u0301\x00", .string, ⟨3, 4⟩, ⟨30, 40⟩⟩
    (∀ c ∈ kept.value.toList, Rereadable c) ∧ byteSize kept.display.toList = 10 ∧
      tokenize kept.display =
        .ok [⟨kept.value, .string, ⟨1, 1⟩, ⟨0, byteSize kept.display.toList⟩⟩] ∧
      (∃ c ∈ lost.value.toList, ¬Rereadable c) ∧
      lost.display = "\"é\\r\\u\x7b301\x7d\\0\"" ∧
      ∃ front c back letter more, lost.value.toList = front ++ c :: back ∧
        (∀ kept ∈ front, Rereadable kept) ∧
        (escape '"' c = ['\\', '0'] ∨ escape '"' c = codePointEscape c) ∧
        escape '"' c = '\\' :: letter :: more ∧
        let before := '"' :: (front.flatMap (escape '"') ++ ['\\'])
        lost.display.toList = before ++ letter :: (more ++ back.flatMap (escape '"') ++ ['"']) ∧
        tokenize lost.display =
          .error ⟨.badEscape letter, ⟨letter, ⟨1, 1 + before.length⟩, byteSize before⟩⟩ := by
  intro kept lost
  have readable : ∀ c ∈ kept.value.toList, Rereadable c := by
    have chars : kept.value.toList = ['é', '\t', '"', '\\'] := by simp [kept]
    rw [chars]
    simp only [List.forall_mem_cons]
    exact ⟨by decide +kernel, by decide, by decide, by decide, List.forall_mem_nil _⟩
  have unreadable : ∃ c ∈ lost.value.toList, ¬Rereadable c :=
    ⟨'\x00', by simp [lost], by decide⟩
  have size : byteSize kept.display.toList = 10 := by decide +kernel
  have shown : lost.display = "\"é\\r\\u\x7b301\x7d\\0\"" := by decide +kernel
  refine ⟨readable, size, ?_, unreadable, shown, ?_⟩
  · exact (tokenize_display kept.value kept.location kept.span).1 readable
  · exact (tokenize_display lost.value lost.location lost.span).2 unreadable

end AeSchema
