import AeSchema.Proofs.Token.Literal
import Mathlib.Data.List.TakeWhile

/-! Lexemes: which values the tokens of a kind have, how they are written, and what may follow
them. The scanner reads every lexeme as one token. -/

namespace AeSchema

open Source Text

def Boundary (c : Char) : Prop :=
  isBlank c = true ∨ c ∈ ['{', '}', ':', ',']

structure IsWord (text : List Char) : Prop where
  nonempty : text ≠ []
  unbroken : ∀ c ∈ text, ¬Boundary c
  unquoted : text.head? ≠ some '"'

def Reserved (word : String) : Prop :=
  ∃ keyword : Keyword, keyword.text = word

namespace TokenKind

def OfWord (kind : TokenKind) : Prop :=
  kind = keyword ∨ kind = identifier

def Admits : TokenKind → String → Prop
  | keyword, value => IsWord value.toList ∧ Reserved value
  | identifier, value => IsWord value.toList ∧ ¬Reserved value
  | string, _ => True
  | curlyOpen, value => value.toList = ['{']
  | curlyClose, value => value.toList = ['}']
  | colon, value => value.toList = [':']
  | comma, value => value.toList = [',']

def Writes : TokenKind → String → List Char → Prop
  | string, value, spelled =>
      ∃ body, spelled = '"' :: (body ++ ['"']) ∧ Spells body value.toList
  | _, value, spelled => spelled = value.toList

/-- A word goes on as long as it can. -/
def Stops (kind : TokenKind) (rest : List Char) : Prop :=
  kind.OfWord → ∀ c ∈ rest.head?, Boundary c

end TokenKind

structure IsLexeme (kind : TokenKind) (value : String) (spelled : List Char) : Prop where
  admits : kind.Admits value
  writes : kind.Writes value spelled

theorem mem_punctuation_iff {c : Char} :
    c ∈ ['{', '}', ':', ','] ↔ (TokenKind.ofPunctuation? c).isSome = true := by
  constructor
  · intro member
    simp only [List.mem_cons, List.not_mem_nil, or_false] at member
    rcases member with rfl | rfl | rfl | rfl <;> rfl
  · intro known
    unfold TokenKind.ofPunctuation? at known
    split at known <;> simp at known ⊢

theorem endsWord_iff {c : Char} : endsWord c = true ↔ Boundary c := by
  rw [endsWord, Bool.or_eq_true, Boundary, mem_punctuation_iff]

theorem reserved_iff {word : String} : Reserved word ↔ (Keyword.ofText? word).isSome = true := by
  constructor
  · rintro ⟨keyword, rfl⟩
    simp [Keyword.ofText?_text]
  · intro known
    obtain ⟨keyword, found⟩ := Option.isSome_iff_exists.mp known
    exact ⟨keyword, (Keyword.ofText?_eq_some_iff.mp found).symm⟩

instance (c : Char) : Decidable (Boundary c) :=
  inferInstanceAs (Decidable (_ ∨ _))

instance (word : String) : Decidable (Reserved word) :=
  decidable_of_iff _ reserved_iff.symm

theorem isWord_iff {text : List Char} :
    IsWord text ↔ text ≠ [] ∧ (∀ c ∈ text, ¬Boundary c) ∧ text.head? ≠ some '"' :=
  ⟨fun word => ⟨word.nonempty, word.unbroken, word.unquoted⟩,
    fun ⟨nonempty, unbroken, unquoted⟩ => ⟨nonempty, unbroken, unquoted⟩⟩

instance (text : List Char) : Decidable (IsWord text) :=
  haveI := List.decidableBAll (fun c => ¬Boundary c) text
  decidable_of_iff _ isWord_iff.symm

theorem IsWord.visible {text : List Char} (word : IsWord text) :
    ∀ c ∈ text, isBlank c = false := by
  intro c member
  have unbroken := word.unbroken c member
  simpa using fun blank => unbroken (.inl blank)

theorem Reserved.isWord {word : String} (reserved : Reserved word) : IsWord word.toList := by
  obtain ⟨keyword, rfl⟩ := reserved
  cases keyword <;> decide

theorem isLexeme_punctuation {c : Char} {kind : TokenKind}
    (mark : TokenKind.ofPunctuation? c = some kind) :
    IsLexeme kind (String.singleton c) [c] ∧ ¬kind.OfWord := by
  unfold TokenKind.ofPunctuation? at mark
  split at mark
  all_goals cases mark
  all_goals
    exact ⟨⟨by simp [TokenKind.Admits], by simp [TokenKind.Writes]⟩, by simp [TokenKind.OfWord]⟩

theorem IsLexeme.cases {kind : TokenKind} {value : String} {spelled : List Char}
    (lexeme : IsLexeme kind value spelled) :
    (∃ c, TokenKind.ofPunctuation? c = some kind ∧ value = String.singleton c ∧ spelled = [c]) ∨
    (kind = .string ∧ ∃ body, spelled = '"' :: (body ++ ['"']) ∧ Spells body value.toList) ∨
    (IsWord spelled ∧ value = String.ofList spelled ∧
      kind = if (Keyword.ofText? value).isSome then .keyword else .identifier) := by
  obtain ⟨admits, writes⟩ := lexeme
  cases kind
  case keyword =>
    have known := reserved_iff.mp admits.2
    refine .inr (.inr ⟨writes ▸ admits.1, ?_, by simp [known]⟩)
    rw [writes, String.ofList_toList]
  case identifier =>
    have unknown := mt reserved_iff.mpr admits.2
    refine .inr (.inr ⟨writes ▸ admits.1, ?_, by simp [unknown]⟩)
    rw [writes, String.ofList_toList]
  case string => exact .inr (.inl ⟨rfl, writes⟩)
  all_goals
    refine .inl ⟨_, rfl, ?_, writes.trans admits⟩
    apply String.toList_injective
    rw [String.toList_singleton]
    exact admits

theorem IsLexeme.nonempty {kind : TokenKind} {value : String} {spelled : List Char}
    (lexeme : IsLexeme kind value spelled) : spelled ≠ [] := by
  rcases lexeme.cases with ⟨c, _, _, rfl⟩ | ⟨_, body, rfl, _⟩ | ⟨word, _⟩
  · simp
  · simp
  · exact word.nonempty

theorem takeWhile_chars {inside : Char → Bool} {text rest : List Char}
    (all : ∀ c ∈ text, inside c = true) (stops : ∀ c ∈ rest.head?, inside c = false)
    (point : Point) :
    (point.chars (text ++ rest)).takeWhile (inside ·.char) = point.chars text ∧
      (point.chars (text ++ rest)).dropWhile (inside ·.char) = (point.after text).chars rest := by
  induction text generalizing point with
  | nil =>
      cases rest with
      | nil => simp
      | cons c rest => simp [stops c (by simp)]
  | cons c text ih =>
      obtain ⟨taken, dropped⟩ := ih (fun c member => all c (by simp [member])) (point.after [c])
      have first : inside c = true := all c (by simp)
      rw [Point.after_cons point c text]
      simp [first, taken, dropped]

theorem stop_last_chars (c : Char) (text : List Char) (point : Point) :
    (((point.after [c]).chars text).getLast?.getD (point.char c)).span.stop =
      (point.after (c :: text)).offset := by
  induction text generalizing c point with
  | nil => simp [Point.char_span, Point.span]
  | cons next text ih =>
      rw [Point.chars_cons, List.getLast?_cons, Option.getD_some, ih, ← Point.after_cons]

theorem scanWord_word {c : Char} {tail rest : List Char} (word : IsWord (c :: tail))
    (stops : ∀ c ∈ rest.head?, Boundary c) (point : Point) :
    let value := String.ofList (c :: tail)
    let kind := if (Keyword.ofText? value).isSome then .keyword else .identifier
    scanWord (point.char c) ((point.after [c]).chars (tail ++ rest)) =
      (point.token kind value (c :: tail), (point.after (c :: tail)).chars rest) := by
  have inside : ∀ c ∈ tail, (!endsWord c) = true := by
    intro c member
    have unbroken := word.unbroken c (by simp [member])
    simpa [← endsWord_iff] using unbroken
  have outside : ∀ c ∈ rest.head?, (!endsWord c) = false := by
    intro c member
    simpa [← endsWord_iff] using stops c member
  obtain ⟨taken, dropped⟩ := takeWhile_chars inside outside (point.after [c])
  have letters : ((point.after [c]).chars tail).map (·.char) = tail :=
    map_char_locateFrom _ _ tail
  simp only [scanWord]
  rw [taken, dropped, stop_last_chars, List.map_cons, letters, ← Point.after_cons]
  rfl

/-- The scanner goes on as from `chars`; blanks in front of them do not count. -/
structure Scanner.Faces (scanner : Scanner) (chars : List LocatedChar) : Prop where
  running : scanner.done = false
  unread : scanner.unread.dropWhile (isBlank ·.char) = chars.dropWhile (isBlank ·.char)

theorem Scanner.faces_behindWord (chars : List LocatedChar) : (behindWord chars).Faces chars := by
  unfold behindWord
  split
  next => exact ⟨rfl, rfl⟩
  next ender rest =>
    split
    next blank => exact ⟨rfl, (List.dropWhile_cons_of_pos (by simpa using blank)).symm⟩
    next => exact ⟨rfl, rfl⟩

theorem scanToken_lexeme {kind : TokenKind} {value : String} {spelled rest : List Char}
    (lexeme : IsLexeme kind value spelled) (stops : kind.Stops rest) (point : Point) :
    ∃ c tail after, spelled = c :: tail ∧ isBlank c = false ∧
      scanToken (point.char c) ((point.after [c]).chars (tail ++ rest)) =
        (.ok (point.token kind value spelled), after) ∧
      after.Faces ((point.after spelled).chars rest) := by
  rcases lexeme.cases with ⟨c, mark, rfl, rfl⟩ | ⟨rfl, body, rfl, spells⟩ | ⟨word, same, sort⟩
  · refine ⟨c, [], ⟨none, (point.after [c]).chars rest, false⟩, rfl, ?_, ?_, rfl, rfl⟩
    · unfold TokenKind.ofPunctuation? at mark
      split at mark
      all_goals first | decide | cases mark
    · simp [scanToken, mark, Point.token, Point.char_span]
  · refine ⟨'"', body ++ ['"'], ⟨none, (point.after ('"' :: (body ++ ['"']))).chars rest, false⟩,
      rfl, by decide, ?_, rfl, rfl⟩
    have read := scanString_closed (point.char '"') spells rest (point.after ['"'])
    rw [List.append_assoc, List.singleton_append, scanToken]
    simp only [Point.char_char, TokenKind.ofPunctuation?, if_true]
    rw [read, ← Point.after_cons, String.ofList_toList]
    rfl
  · cases spelled with
    | nil => exact absurd rfl word.nonempty
    | cons c tail =>
        have unbroken := word.unbroken c (by simp)
        have visible := word.visible c (by simp)
        have noMark : TokenKind.ofPunctuation? c = none := by
          simpa using fun mark => unbroken (.inr (mem_punctuation_iff.mpr mark))
        have noQuote : c ≠ '"' := by simpa using word.unquoted
        have wordKind : kind.OfWord := by
          rw [sort]
          split
          · exact .inl rfl
          · exact .inr rfl
        refine ⟨c, tail, _, rfl, visible, ?_, Scanner.faces_behindWord _⟩
        rw [scanToken]
        simp only [Point.char_char, noMark, noQuote, if_false]
        rw [scanWord_word word (stops wordKind)]
        rw [← same, ← sort]

theorem isLexeme_word {spelled : List Char} (word : IsWord spelled) :
    IsLexeme (if (Keyword.ofText? (String.ofList spelled)).isSome then .keyword else .identifier)
      (String.ofList spelled) spelled := by
  split
  next known =>
    have reserved := reserved_iff.mpr known
    exact ⟨⟨by simpa using word, reserved⟩, String.toList_ofList.symm⟩
  next unknown =>
    have free := mt reserved_iff.mp unknown
    exact ⟨⟨by simpa using word, free⟩, String.toList_ofList.symm⟩

theorem isLexeme_string {body content : List Char} (spells : Spells body content) :
    IsLexeme .string (String.ofList content) ('"' :: (body ++ ['"'])) :=
  ⟨trivial, body, rfl, by simpa using spells⟩

theorem lexeme_cases {c : Char} (visible : isBlank c = false) (rest : List Char) :
    (∃ kind value spelled after, c :: rest = spelled ++ after ∧ IsLexeme kind value spelled ∧
      kind.Stops after) ∨
    (c = '"' ∧ ∃ body content tail, rest = body ++ tail ∧ Spells body content ∧
      (tail = [] ∨ tail = ['\\'])) ∨
    (c = '"' ∧ ∃ body content letter after, rest = body ++ '\\' :: letter :: after ∧
      Spells body content ∧ ∀ c, ¬Escape letter c) := by
  by_cases quote : c = '"'
  · subst quote
    obtain ⟨body, content, tail, rfl, spells, ends⟩ := literal_cases rest
    rcases ends with rfl | rfl | ⟨after, rfl⟩ | ⟨letter, after, rfl, unknown⟩
    · exact .inr (.inl ⟨rfl, body, content, [], rfl, spells, .inl rfl⟩)
    · exact .inr (.inl ⟨rfl, body, content, _, rfl, spells, .inr rfl⟩)
    · refine .inl ⟨.string, _, _, after, ?_, isLexeme_string spells, ?_⟩
      · simp
      · rintro (impossible | impossible) <;> cases impossible
    · exact .inr (.inr ⟨rfl, body, content, letter, after, rfl, spells, unknown⟩)
  cases mark : TokenKind.ofPunctuation? c with
  | some kind =>
      obtain ⟨lexeme, notWord⟩ := isLexeme_punctuation mark
      exact .inl ⟨kind, _, [c], rest, rfl, lexeme, fun word => absurd word notWord⟩
  | none =>
      let inside := fun c => !endsWord c
      have split : rest = rest.takeWhile inside ++ rest.dropWhile inside :=
        List.takeWhile_append_dropWhile.symm
      have word : IsWord (c :: rest.takeWhile inside) := by
        refine ⟨by simp, ?_, by simpa using quote⟩
        intro letter member
        rw [← endsWord_iff]
        rcases List.mem_cons.mp member with rfl | later
        · simp [endsWord, visible, mark]
        · simpa [inside] using List.mem_takeWhile_imp later
      refine .inl ⟨_, _, c :: rest.takeWhile inside, rest.dropWhile inside, ?_,
        isLexeme_word word, ?_⟩
      · rw [List.cons_append, ← split]
      · intro _ next member
        have stopped := List.head?_dropWhile_not inside rest
        rw [Option.mem_def] at member
        rw [member] at stopped
        simpa [inside, endsWord_iff] using stopped

end AeSchema
