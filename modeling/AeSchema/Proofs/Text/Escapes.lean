import AeSchema.Text.Json
import AeSchema.Text.Quoted
import AeSchema.Token.Scan
import Mathlib.Data.List.TakeWhile

/-! Escapes that can be told apart: what was quoted can be read off again, whatever follows the
closing quote. -/

namespace AeSchema.Text

theorem splits_unique {inside : Char → Bool} {first second rest more : List Char}
    (firstInside : ∀ c ∈ first, inside c = true) (secondInside : ∀ c ∈ second, inside c = true)
    (restOutside : ∀ c ∈ rest.head?, inside c = false)
    (moreOutside : ∀ c ∈ more.head?, inside c = false)
    (same : first ++ rest = second ++ more) : first = second ∧ rest = more := by
  have taken {front back : List Char} (frontInside : ∀ c ∈ front, inside c = true)
      (backOutside : ∀ c ∈ back.head?, inside c = false) :
      (front ++ back).takeWhile inside = front := by
    rw [List.takeWhile_append_of_pos frontInside]
    cases back with
    | nil => simp
    | cons c back => simp [backOutside c (by simp)]
  have fronts : first = second := by
    rw [← taken firstInside restOutside, same, taken secondInside moreOutside]
  subst fronts
  exact ⟨rfl, List.append_cancel_left same⟩

theorem splits_unique_at {mark : Char} {first second rest more : List Char}
    (notFirst : mark ∉ first) (notSecond : mark ∉ second)
    (same : first ++ mark :: rest = second ++ mark :: more) : first = second ∧ rest = more := by
  have inside {front : List Char} (absent : mark ∉ front) : ∀ c ∈ front, (c != mark) = true := by
    intro c member
    rw [bne_iff_ne]
    rintro rfl
    exact absent member
  obtain ⟨fronts, backs⟩ :=
    splits_unique (inside notFirst) (inside notSecond) (by simp) (by simp) same
  exact ⟨fronts, (List.cons.inj backs).2⟩

/-- No word of the code begins with the mark or with another word. -/
structure Separates (code : Char → List Char) (mark : Char) : Prop where
  starts : ∀ c rest, (code c ++ rest).head? ≠ some mark
  apart : ∀ {c d rest more}, code c ++ rest = code d ++ more → c = d ∧ rest = more

theorem Separates.flatMap {code : Char → List Char} {mark : Char}
    (separates : Separates code mark) {first second rest more : List Char}
    (same : first.flatMap code ++ mark :: rest = second.flatMap code ++ mark :: more) :
    first = second ∧ rest = more := by
  induction first generalizing second with
  | nil =>
      cases second with
      | nil => exact ⟨rfl, (List.cons.inj same).2⟩
      | cons d second =>
          rw [List.flatMap_cons, List.append_assoc] at same
          exact absurd (congrArg List.head? same).symm (separates.starts d _)
  | cons c first ih =>
      rw [List.flatMap_cons, List.append_assoc] at same
      cases second with
      | nil => exact absurd (congrArg List.head? same) (separates.starts c _)
      | cons d second =>
          rw [List.flatMap_cons, List.append_assoc] at same
          obtain ⟨rfl, later⟩ := separates.apart same
          obtain ⟨rfl, behind⟩ := ih later
          exact ⟨rfl, behind⟩

inductive Spelling (named : Char → Option Char) (Numbers : List Char → Char → Prop) :
    Char → List Char → Prop
  | plain {c} : c ≠ '"' → c ≠ '\\' → Spelling named Numbers c [c]
  | letter {letter c} : named letter = some c → Spelling named Numbers c ['\\', letter]
  | number {digits c} : Numbers digits c → Spelling named Numbers c ('\\' :: 'u' :: digits)

section Spelling

variable {named : Char → Option Char} {Numbers : List Char → Char → Prop}

theorem Spelling.starts {c : Char} {word : List Char} (spelling : Spelling named Numbers c word)
    (rest : List Char) : (word ++ rest).head? ≠ some '"' := by
  cases spelling with
  | plain quote _ => simpa using quote
  | letter | number => simp

theorem Spelling.apart {c d : Char} {first second rest more : List Char}
    (free : named 'u' = none)
    (numbers : ∀ {digits others c d rest more}, Numbers digits c → Numbers others d →
      digits ++ rest = others ++ more → c = d ∧ rest = more)
    (spelling : Spelling named Numbers c first) (other : Spelling named Numbers d second)
    (same : first ++ rest = second ++ more) : c = d ∧ rest = more := by
  cases spelling with
  | plain _ backslash =>
      cases other with
      | plain => simpa using same
      | letter | number => exact absurd (List.cons.inj same).1 backslash
  | letter known =>
      cases other with
      | plain _ backslash => exact absurd (List.cons.inj same).1.symm backslash
      | letter alsoKnown =>
          simp only [List.cons_append, List.nil_append, List.cons.injEq, true_and] at same
          rw [same.1, alsoKnown, Option.some.injEq] at known
          exact ⟨known.symm, same.2⟩
      | number =>
          simp only [List.cons_append, List.cons.injEq, true_and] at same
          rw [same.1, free] at known
          cases known
  | number numbered =>
      cases other with
      | plain _ backslash => exact absurd (List.cons.inj same).1.symm backslash
      | letter known =>
          simp only [List.cons_append, List.cons.injEq, true_and] at same
          rw [← same.1, free] at known
          cases known
      | number alsoNumbered =>
          simp only [List.cons_append, List.cons.injEq, true_and] at same
          exact numbers numbered alsoNumbered same

end Spelling

theorem digitChar_inj : ∀ {first second : Nat}, first < 16 → second < 16 →
    Nat.digitChar first = Nat.digitChar second → first = second := by
  have checked : ∀ first < 16, ∀ second < 16,
      Nat.digitChar first = Nat.digitChar second → first = second := by decide
  intro first second firstBound secondBound
  exact checked first firstBound second secondBound

section Hexadecimal

theorem singleton_ne_toDigits {digit : Char} {number : Nat} (large : 16 ≤ number) :
    [digit] ≠ Nat.toDigits 16 number := by
  intro same
  have lengths := congrArg List.length same
  have positive := List.length_pos_iff.mpr (Nat.toDigits_ne_nil (b := 16) (n := number / 16))
  rw [Nat.toDigits_of_base_le (by decide) large, List.length_append] at lengths
  simp only [List.length_singleton] at lengths
  omega

theorem toDigits_sixteen_inj {first second : Nat}
    (same : Nat.toDigits 16 first = Nat.toDigits 16 second) : first = second := by
  induction first using Nat.strongRecOn generalizing second with
  | ind first ih =>
      by_cases small : first < 16
      · rw [Nat.toDigits_of_lt_base small] at same
        by_cases alsoSmall : second < 16
        · rw [Nat.toDigits_of_lt_base alsoSmall] at same
          exact digitChar_inj small alsoSmall (List.singleton_inj.mp same)
        · exact absurd same (singleton_ne_toDigits (by omega))
      · by_cases small : second < 16
        · rw [Nat.toDigits_of_lt_base small] at same
          exact absurd same.symm (singleton_ne_toDigits (by omega))
        · rw [Nat.toDigits_of_base_le (n := first) (by decide) (by omega),
            Nat.toDigits_of_base_le (n := second) (by decide) (by omega)] at same
          obtain ⟨front, last⟩ := List.append_inj' same rfl
          have quotient := ih (first / 16) (by omega) front
          have remainder := digitChar_inj (Nat.mod_lt first (by decide))
            (Nat.mod_lt second (by decide)) (List.singleton_inj.mp last)
          omega

theorem not_mem_toDigits {c : Char} (noDigit : ∀ digit, Nat.digitChar digit ≠ c) (number : Nat) :
    c ∉ Nat.toDigits 16 number := by
  induction number using Nat.strongRecOn with
  | ind number ih =>
      rw [Nat.toDigits_eq_if (by decide)]
      split
      next => simp [(noDigit number).symm]
      next large =>
        rw [List.mem_append, not_or]
        exact ⟨ih (number / 16) (by omega), by simp [(noDigit (number % 16)).symm]⟩

end Hexadecimal

section Listing

/-- The letters that listings use are those of string literals and one more. -/
def listed (letter : Char) : Option Char :=
  if letter = '0' then some '\x00' else unescape? letter

def Braced (digits : List Char) (c : Char) : Prop :=
  digits = '{' :: (Nat.toDigits 16 c.toNat ++ ['}'])

theorem spelling_escape (c : Char) : Spelling listed Braced c (escape '"' c) := by
  unfold escape
  split_ifs with nul tab carriageReturn lineFeed itself unprintable
  · exact .letter (nul ▸ rfl)
  · exact .letter (tab ▸ rfl)
  · exact .letter (carriageReturn ▸ rfl)
  · exact .letter (lineFeed ▸ rfl)
  · rcases itself with rfl | rfl
    · exact .letter rfl
    · exact .letter rfl
  · exact .number rfl
  · rw [not_or] at itself
    exact .plain itself.2 itself.1

theorem Braced.apart {digits others rest more : List Char} {c d : Char} (first : Braced digits c)
    (second : Braced others d) (same : digits ++ rest = others ++ more) : c = d ∧ rest = more := by
  rw [first, second] at same
  simp only [List.cons_append, List.append_assoc, List.nil_append, List.cons.injEq,
    true_and] at same
  have noBrace (digit : Nat) : Nat.digitChar digit ≠ '}' := Nat.digitChar_ne '}' (by decide)
  obtain ⟨numbers, rests⟩ :=
    splits_unique_at (not_mem_toDigits noBrace _) (not_mem_toDigits noBrace _) same
  exact ⟨Char.toNat_inj.mp (toDigits_sixteen_inj numbers), rests⟩

theorem separates_escape : Separates (escape '"') '"' where
  starts c rest := (spelling_escape c).starts rest
  apart := Spelling.apart rfl Braced.apart (spelling_escape _) (spelling_escape _)

theorem quoted_append_inj {first second : String} {rest more : List Char}
    (same : (quoted first).toList ++ rest = (quoted second).toList ++ more) :
    first = second ∧ rest = more := by
  simp only [quoted, quotedBy, String.toList_ofList, List.cons_append, List.append_assoc,
    List.nil_append, List.cons.injEq, true_and] at same
  obtain ⟨texts, rests⟩ := separates_escape.flatMap same
  exact ⟨String.toList_injective texts, rests⟩

theorem quoted_injective : Function.Injective quoted := by
  intro first second same
  have chars : (quoted first).toList ++ [] = (quoted second).toList ++ [] := by rw [same]
  exact (quoted_append_inj chars).1

theorem lineFeed_not_mem_escape (delimiter c : Char) : '\n' ∉ escape delimiter c := by
  have noLineFeed (digit : Nat) : Nat.digitChar digit ≠ '\n' := Nat.digitChar_ne '\n' (by decide)
  unfold escape
  split_ifs with nul tab carriageReturn lineFeed itself
  · decide
  · decide
  · decide
  · decide
  · simp [Ne.symm lineFeed]
  · simp [codePointEscape, not_mem_toDigits noLineFeed]
  · simp [Ne.symm lineFeed]

theorem lineFeed_not_mem_quoted (text : String) : '\n' ∉ (quoted text).toList := by
  simp [quoted, quotedBy, lineFeed_not_mem_escape]

end Listing

namespace Json

def named : Char → Option Char
  | '"' => some '"'
  | '\\' => some '\\'
  | 'b' => some '\x08'
  | 'f' => some '\x0c'
  | 'n' => some '\n'
  | 'r' => some '\r'
  | 't' => some '\t'
  | _ => none

def Padded (digits : List Char) (c : Char) : Prop :=
  c.toNat < 0x20 ∧
    digits = ['0', '0', Nat.digitChar (c.toNat / 16), Nat.digitChar (c.toNat % 16)]

theorem spelling_escape (c : Char) : Spelling named Padded c (escape c) := by
  unfold escape
  split_ifs with quote backslash backspace formFeed lineFeed carriageReturn tab control
  · subst quote
    exact .letter rfl
  · subst backslash
    exact .letter rfl
  · exact .letter (backspace ▸ rfl)
  · exact .letter (formFeed ▸ rfl)
  · exact .letter (lineFeed ▸ rfl)
  · exact .letter (carriageReturn ▸ rfl)
  · exact .letter (tab ▸ rfl)
  · exact .number ⟨control, rfl⟩
  · exact .plain quote backslash

theorem Padded.apart {digits others rest more : List Char} {c d : Char} (first : Padded digits c)
    (second : Padded others d) (same : digits ++ rest = others ++ more) : c = d ∧ rest = more := by
  obtain ⟨firstBound, rfl⟩ := first
  obtain ⟨secondBound, rfl⟩ := second
  simp only [List.cons_append, List.nil_append, List.cons.injEq, true_and] at same
  obtain ⟨high, low, rests⟩ := same
  have quotient := digitChar_inj (by omega) (by omega) high
  have remainder := digitChar_inj (by omega) (by omega) low
  exact ⟨Char.toNat_inj.mp (by omega), rests⟩

theorem separates_escape : Separates escape '"' where
  starts c rest := (spelling_escape c).starts rest
  apart := Spelling.apart rfl Padded.apart (spelling_escape _) (spelling_escape _)

theorem quoted_append_inj {first second : String} {rest more : List Char}
    (same : (quoted first).toList ++ rest = (quoted second).toList ++ more) :
    first = second ∧ rest = more := by
  simp only [quoted, String.toList_ofList, List.cons_append, List.append_assoc, List.nil_append,
    List.cons.injEq, true_and] at same
  obtain ⟨texts, rests⟩ := separates_escape.flatMap same
  exact ⟨String.toList_injective texts, rests⟩

end Json

end AeSchema.Text
