import AeSchema.Proofs.Source.Point
import AeSchema.Token.Scan

/-! String literals: which texts between two quotes stand for which contents, and what the scanner
makes of every text that follows an opening quote. -/

namespace AeSchema

open Source

inductive Escape : Char → Char → Prop
  | backslash : Escape '\\' '\\'
  | lineFeed : Escape 'n' '\n'
  | tab : Escape 't' '\t'
  | carriageReturn : Escape 'r' '\r'
  | quote : Escape '"' '"'

/-- The text between the quotes of a literal and its content. -/
inductive Spells : List Char → List Char → Prop
  | nil : Spells [] []
  | plain {c body content} : c ≠ '"' → c ≠ '\\' → Spells body content →
      Spells (c :: body) (c :: content)
  | escape {letter c body content} : Escape letter c → Spells body content →
      Spells ('\\' :: letter :: body) (c :: content)

theorem unescape?_eq_some_iff {letter c : Char} : unescape? letter = some c ↔ Escape letter c := by
  constructor
  · intro known
    unfold unescape? at known
    split at known
    all_goals cases known
    · exact .backslash
    · exact .lineFeed
    · exact .tab
    · exact .carriageReturn
    · exact .quote
  · rintro (_ | _ | _ | _ | _) <;> rfl

theorem unescape?_eq_none_iff {letter : Char} :
    unescape? letter = none ↔ ∀ c, ¬Escape letter c := by
  simp only [← unescape?_eq_some_iff, Option.eq_none_iff_forall_ne_some, ne_eq]

theorem literal_cases (text : List Char) : ∃ body content tail, text = body ++ tail ∧
    Spells body content ∧
    (tail = [] ∨ tail = ['\\'] ∨ (∃ rest, tail = '"' :: rest) ∨
      ∃ letter rest, tail = '\\' :: letter :: rest ∧ ∀ c, ¬Escape letter c) := by
  induction bound : text.length using Nat.strongRecOn generalizing text with
  | ind size ih =>
      match text with
      | [] => exact ⟨[], [], [], rfl, .nil, .inl rfl⟩
      | c :: rest =>
          by_cases quote : c = '"'
          · exact ⟨[], [], c :: rest, rfl, .nil, .inr (.inr (.inl ⟨rest, by rw [quote]⟩))⟩
          by_cases backslash : c = '\\'
          · subst backslash
            match rest with
            | [] => exact ⟨[], [], ['\\'], rfl, .nil, .inr (.inl rfl)⟩
            | letter :: rest =>
                cases known : unescape? letter with
                | none =>
                    have unknown := unescape?_eq_none_iff.mp known
                    exact ⟨[], [], _, rfl, .nil, .inr (.inr (.inr ⟨letter, rest, rfl, unknown⟩))⟩
                | some plain =>
                    have escape := unescape?_eq_some_iff.mp known
                    simp only [List.length_cons] at bound
                    obtain ⟨body, content, tail, split, spells, ends⟩ :=
                      ih rest.length (by omega) rest rfl
                    exact ⟨'\\' :: letter :: body, plain :: content, tail, by simp [split],
                      .escape escape spells, ends⟩
          · simp only [List.length_cons] at bound
            obtain ⟨body, content, tail, split, spells, ends⟩ :=
              ih rest.length (by omega) rest rfl
            exact ⟨c :: body, c :: content, tail, by simp [split],
              .plain quote backslash spells, ends⟩

section Scan

variable (opening : LocatedChar) {body content : List Char}

theorem scanString_escape {letter c : Char} (escape : Escape letter c) (value rest : List Char)
    (point : Point) :
    scanString opening value (point.chars ('\\' :: letter :: rest)) =
      scanString opening (c :: value) ((point.after ['\\', letter]).chars rest) := by
  have known := unescape?_eq_some_iff.mpr escape
  rw [Point.chars_cons, Point.chars_cons, scanString.eq_def, Point.after_cons point '\\' [letter]]
  simp [known]

theorem scanString_body (spells : Spells body content) (value rest : List Char) (point : Point) :
    scanString opening value (point.chars (body ++ rest)) =
      scanString opening (content.reverse ++ value) ((point.after body).chars rest) := by
  induction spells generalizing value point with
  | nil => rfl
  | @plain c body content quote backslash _ ih =>
      rw [List.cons_append, Point.chars_cons, scanString.eq_def]
      simp only [Point.char_char, quote, backslash, if_false]
      rw [ih, Point.after_cons point c body]
      simp
  | @escape letter c body content escape _ ih =>
      rw [List.cons_append, List.cons_append, scanString_escape opening escape, ih,
        ← Point.after_append]
      simp

theorem scanString_closed (spells : Spells body content) (rest : List Char) (point : Point) :
    scanString opening [] (point.chars (body ++ '"' :: rest)) =
      (.ok ⟨String.ofList content, .string, opening.location,
        ⟨opening.offset, (point.after (body ++ ['"'])).offset⟩⟩,
        (point.after (body ++ ['"'])).chars rest) := by
  rw [scanString_body opening spells, Point.chars_cons, scanString.eq_def, Point.after_append]
  simp [Point.char_span, Point.span]

theorem scanString_unclosed (spells : Spells body content) {tail : List Char}
    (ends : tail = [] ∨ tail = ['\\']) (point : Point) :
    scanString opening [] (point.chars (body ++ tail)) =
      (.error ⟨.unclosedString, opening⟩, []) := by
  rw [scanString_body opening spells]
  rcases ends with rfl | rfl
  · rfl
  · rw [Point.chars_cons, scanString.eq_def]
    simp

theorem scanString_badEscape (spells : Spells body content) {letter : Char}
    (unknown : ∀ c, ¬Escape letter c) (rest : List Char) (point : Point) :
    scanString opening [] (point.chars (body ++ '\\' :: letter :: rest)) =
      (.error ⟨.badEscape letter, (point.after (body ++ ['\\'])).char letter⟩,
        (point.after (body ++ ['\\', letter])).chars rest) := by
  have known := unescape?_eq_none_iff.mpr unknown
  rw [scanString_body opening spells, Point.chars_cons, Point.chars_cons, scanString.eq_def,
    Point.after_append point body ['\\'], Point.after_append point body ['\\', letter],
    Point.after_cons (point.after body) '\\' [letter]]
  simp [known]

end Scan

end AeSchema
