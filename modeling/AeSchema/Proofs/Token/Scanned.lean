import AeSchema.Proofs.Token.Lexeme

/-! What scanning gives, said without the scanner: a text is blanks and lexemes in turn, up to its
end or to the first string that goes wrong. Every text has exactly one such reading, and it is the
one that `scan` finds. -/

namespace AeSchema

open Source Text

def Blank (text : List Char) : Prop :=
  ∀ c ∈ text, isBlank c = true

instance (text : List Char) : Decidable (Blank text) :=
  List.decidableBAll (fun c => isBlank c = true) text

/-- The tokens of a text that stands at a point, and the fault that ends them, if any. -/
inductive Scanned : Point → List Char → List Token → Option ScanFailure → Prop
  | done {point gap} : Blank gap → Scanned point gap [] none
  | token {point gap kind value spelled rest tokens failure} : Blank gap →
      IsLexeme kind value spelled → kind.Stops rest →
      Scanned ((point.after gap).after spelled) rest tokens failure →
      Scanned point (gap ++ (spelled ++ rest))
        ((point.after gap).token kind value spelled :: tokens) failure
  | unclosed {point gap body content tail} : Blank gap → Spells body content →
      tail = [] ∨ tail = ['\\'] →
      Scanned point (gap ++ '"' :: (body ++ tail)) []
        (some ⟨.unclosedString, (point.after gap).char '"'⟩)
  | badEscape {point gap body content letter rest} : Blank gap → Spells body content →
      (∀ c, ¬Escape letter c) →
      Scanned point (gap ++ '"' :: (body ++ '\\' :: letter :: rest)) []
        (some ⟨.badEscape letter,
          (point.after (gap ++ '"' :: (body ++ ['\\']))).char letter⟩)

theorem blank_split (text : List Char) :
    ∃ gap rest, text = gap ++ rest ∧ Blank gap ∧ ∀ c ∈ rest.head?, isBlank c = false := by
  refine ⟨text.takeWhile isBlank, text.dropWhile isBlank,
    List.takeWhile_append_dropWhile.symm, ?_, ?_⟩
  · intro c member
    exact List.mem_takeWhile_imp member
  · intro c member
    have stopped := List.head?_dropWhile_not isBlank text
    rw [Option.mem_def] at member
    simpa [member] using stopped

theorem exists_scanned (point : Point) (text : List Char) :
    ∃ tokens failure, Scanned point text tokens failure := by
  induction bound : text.length using Nat.strongRecOn generalizing point text with
  | ind size ih =>
      obtain ⟨gap, visible, rfl, blank, starts⟩ := blank_split text
      cases visible with
      | nil => exact ⟨[], none, by simpa using .done blank⟩
      | cons c rest =>
          rcases lexeme_cases (starts c (by simp)) rest with
            ⟨kind, value, spelled, after, split, lexeme, stops⟩ |
            ⟨rfl, body, content, tail, rfl, spells, ends⟩ |
            ⟨rfl, body, content, letter, after, rfl, spells, unknown⟩
          · have nonempty := List.length_pos_iff.mpr lexeme.nonempty
            have shorter : after.length < size := by
              have lengths := congrArg List.length split
              simp only [List.length_append, List.length_cons] at lengths bound
              omega
            obtain ⟨tokens, failure, scanned⟩ :=
              ih after.length shorter ((point.after gap).after spelled) after rfl
            rw [split]
            exact ⟨_, failure, .token blank lexeme stops scanned⟩
          · exact ⟨[], _, .unclosed blank spells ends⟩
          · exact ⟨[], _, .badEscape blank spells unknown⟩

namespace Scanner

variable {scanner : Scanner} {gap : List Char} {point : Point}

theorem faces_ofText (text : String) : (ofText text).Faces (Point.start.chars text.toList) := by
  refine ⟨rfl, ?_⟩
  rw [ofText, locate_eq_chars]
  rfl

theorem skip_blank (blank : Blank gap) {c : Char} (visible : isBlank c = false) (rest : List Char)
    (point : Point) :
    (point.chars (gap ++ c :: rest)).dropWhile (isBlank ·.char) =
      (point.after gap).char c :: ((point.after gap).after [c]).chars rest := by
  have starts : ∀ first ∈ (c :: rest).head?, isBlank first = false := by simpa using visible
  rw [(takeWhile_chars blank starts point).2, Point.chars_cons]

theorem next?_blank (faces : scanner.Faces (point.chars gap)) (blank : Blank gap) :
    scanner.next? = (none, ⟨none, [], true⟩) := by
  have starts : ∀ c ∈ ([] : List Char).head?, isBlank c = false := by simp
  have skipped := (takeWhile_chars blank starts point).2
  rw [List.append_nil] at skipped
  simp [next?, faces.running, faces.unread, skipped]

theorem next?_visible {c : Char} {rest : List Char}
    (faces : scanner.Faces (point.chars (gap ++ c :: rest))) (blank : Blank gap)
    (visible : isBlank c = false) {result : Except ScanFailure Token} {after : Scanner}
    (read : scanToken ((point.after gap).char c) (((point.after gap).after [c]).chars rest) =
      (result, after)) : scanner.next? = (some result, after) := by
  rw [next?, if_neg (Bool.eq_false_iff.mp faces.running), faces.unread, skip_blank blank visible]
  simp only [read]

theorem next?_lexeme {kind : TokenKind} {value : String} {spelled rest : List Char}
    (faces : scanner.Faces (point.chars (gap ++ (spelled ++ rest)))) (blank : Blank gap)
    (lexeme : IsLexeme kind value spelled) (stops : kind.Stops rest) :
    ∃ after, scanner.next? = (some (.ok ((point.after gap).token kind value spelled)), after) ∧
      after.Faces (((point.after gap).after spelled).chars rest) := by
  obtain ⟨c, tail, after, rfl, visible, read, later⟩ :=
    scanToken_lexeme lexeme stops (point.after gap)
  exact ⟨after, next?_visible faces blank visible read, later⟩

theorem next?_unclosed {body content tail : List Char}
    (faces : scanner.Faces (point.chars (gap ++ '"' :: (body ++ tail)))) (blank : Blank gap)
    (spells : Spells body content) (ends : tail = [] ∨ tail = ['\\']) :
    scanner.next? = (some (.error ⟨.unclosedString, (point.after gap).char '"'⟩),
      ⟨none, [], true⟩) := by
  have read := scanString_unclosed ((point.after gap).char '"') spells ends
    ((point.after gap).after ['"'])
  apply next?_visible faces blank (by decide)
  simp [scanToken, TokenKind.ofPunctuation?, read]

theorem next?_badEscape {body content : List Char} {letter : Char} {rest : List Char}
    (faces : scanner.Faces (point.chars (gap ++ '"' :: (body ++ '\\' :: letter :: rest))))
    (blank : Blank gap) (spells : Spells body content) (unknown : ∀ c, ¬Escape letter c) :
    scanner.next? = (some (.error ⟨.badEscape letter,
        (point.after (gap ++ '"' :: (body ++ ['\\']))).char letter⟩),
      ⟨none, (point.after (gap ++ '"' :: (body ++ ['\\', letter]))).chars rest, true⟩) := by
  have read := scanString_badEscape ((point.after gap).char '"') spells unknown rest
    ((point.after gap).after ['"'])
  apply next?_visible faces blank (by decide)
  rw [Point.after_append, Point.after_append,
    Point.after_cons (point.after gap) '"' (body ++ ['\\']),
    Point.after_cons (point.after gap) '"' (body ++ ['\\', letter])]
  simp [scanToken, TokenKind.ofPunctuation?, read]

theorem drain_scanned {text : List Char} {tokens : List Token} {failure : Option ScanFailure}
    (scanned : Scanned point text tokens failure) (faces : scanner.Faces (point.chars text))
    (found : List Token) {fuel : Nat} (enough : text.length ≤ fuel) :
    scanner.drain found fuel = (found.reverse ++ tokens, failure) := by
  induction scanned generalizing scanner found fuel with
  | done blank =>
      cases fuel with
      | zero => simp [drain]
      | succ fuel => simp [drain, next?_blank faces blank]
  | token blank lexeme stops _ ih =>
      have positive := List.length_pos_iff.mpr lexeme.nonempty
      simp only [List.length_append] at enough
      obtain ⟨after, step, later⟩ := next?_lexeme faces blank lexeme stops
      cases fuel with
      | zero => omega
      | succ fuel =>
          simp only [drain, step]
          rw [ih later _ (by omega)]
          simp
  | unclosed blank spells ends =>
      cases fuel with
      | zero => simp at enough
      | succ fuel => simp [drain, next?_unclosed faces blank spells ends]
  | badEscape blank spells unknown =>
      cases fuel with
      | zero => simp at enough
      | succ fuel => simp [drain, next?_badEscape faces blank spells unknown]

end Scanner

theorem scan_eq_iff {text : String} {tokens : List Token} {failure : Option ScanFailure} :
    scan text = (tokens, failure) ↔ Scanned .start text.toList tokens failure := by
  have drained {tokens failure} (scanned : Scanned .start text.toList tokens failure) :
      scan text = (tokens, failure) := by
    refine Scanner.drain_scanned scanned (Scanner.faces_ofText text) [] ?_
    simp [Scanner.unread, Scanner.ofText, locate_eq_chars]
  constructor
  · intro found
    obtain ⟨others, fault, scanned⟩ := exists_scanned .start text.toList
    rw [drained scanned, Prod.mk.injEq] at found
    rw [← found.1, ← found.2]
    exact scanned
  · exact drained

theorem tokenize_eq_ok_iff_scanned {text : String} {tokens : List Token} :
    tokenize text = .ok tokens ↔ Scanned .start text.toList tokens none := by
  rw [← scan_eq_iff, tokenize]
  rcases scan text with ⟨found, _ | failure⟩ <;> simp

end AeSchema
