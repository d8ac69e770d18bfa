import AeSchema.Proofs.Text.Escapes
import AeSchema.Proofs.Text.Split

/-! JSON on one line can be read off again: a text begins with one value at most, whatever follows.
Only behind a number this needs care, since more digits would continue it. -/

namespace AeSchema.Text

namespace Json

def Ends (rest : List Char) : Prop :=
  ∀ c ∈ rest.head?, c.isDigit = false

theorem ends_cons {c : Char} (other : c.isDigit = false) (rest : List Char) : Ends (c :: rest) := by
  intro first member
  rw [List.head?_cons, Option.mem_some_iff] at member
  exact member ▸ other

section Items

variable {α : Type} {word : α → List Char} {close : Char} {first second : List α}
  {rest more : List Char}

theorem ends_items (closeOther : close.isDigit = false) (items : List α) (rest : List Char) :
    Ends ((items.map word).flatMap (',' :: ·) ++ close :: rest) := by
  cases items with
  | nil => exact ends_cons closeOther rest
  | cons item items =>
      rw [List.map_cons, List.flatMap_cons, List.append_assoc, List.cons_append]
      exact ends_cons rfl _

theorem laterItems_inj (closeOther : close.isDigit = false) (noComma : close ≠ ',')
    (apart : ∀ a ∈ first, ∀ b rest more, Ends rest → Ends more →
      word a ++ rest = word b ++ more → a = b ∧ rest = more)
    (same : (first.map word).flatMap (',' :: ·) ++ close :: rest =
      (second.map word).flatMap (',' :: ·) ++ close :: more) :
    first = second ∧ rest = more := by
  induction first generalizing second with
  | nil =>
      cases second with
      | nil => exact ⟨rfl, (List.cons.inj same).2⟩
      | cons b second => exact absurd (List.cons.inj same).1 noComma
  | cons a first ih =>
      cases second with
      | nil => exact absurd (List.cons.inj same).1.symm noComma
      | cons b second =>
          simp only [List.map_cons, List.flatMap_cons, List.append_assoc, List.cons_append,
            List.cons.injEq, true_and] at same
          obtain ⟨rfl, later⟩ := apart a (by simp) b _ _ (ends_items closeOther first rest)
            (ends_items closeOther second more) same
          obtain ⟨rfl, behind⟩ := ih (fun a member => apart a (by simp [member])) later
          exact ⟨rfl, behind⟩

theorem items_inj (closeOther : close.isDigit = false) (noComma : close ≠ ',')
    (starts : ∀ a rest, (word a ++ rest).head? ≠ some close)
    (apart : ∀ a ∈ first, ∀ b rest more, Ends rest → Ends more →
      word a ++ rest = word b ++ more → a = b ∧ rest = more)
    (same : [','].intercalate (first.map word) ++ close :: rest =
      [','].intercalate (second.map word) ++ close :: more) :
    first = second ∧ rest = more := by
  cases first with
  | nil =>
      cases second with
      | nil => exact ⟨rfl, (List.cons.inj same).2⟩
      | cons b second =>
          rw [List.map_cons, intercalate_cons, List.append_assoc] at same
          exact absurd (congrArg List.head? same).symm (starts b _)
  | cons a first =>
      rw [List.map_cons, intercalate_cons, List.append_assoc] at same
      cases second with
      | nil => exact absurd (congrArg List.head? same) (starts a _)
      | cons b second =>
          rw [List.map_cons, intercalate_cons, List.append_assoc] at same
          obtain ⟨rfl, later⟩ := apart a (by simp) b _ _ (ends_items closeOther first rest)
            (ends_items closeOther second more) same
          obtain ⟨rfl, behind⟩ := laterItems_inj closeOther noComma
            (fun a member => apart a (by simp [member])) later
          exact ⟨rfl, behind⟩

end Items

theorem toList_compact_number (value : Nat) :
    (number value).compact.toList = Nat.toDigits 10 value := by
  rw [compact, Nat.toList_repr]

theorem toList_compact_string (text : String) :
    (string text).compact.toList = (quoted text).toList := by
  rw [compact]

theorem toList_compact_array (items : List Json) :
    (array items).compact.toList =
      '[' :: ([','].intercalate (items.map (·.compact.toList)) ++ [']']) := by
  rw [compact]
  simp [String.toList_intercalate, Function.comp_def]

def fieldText (field : String × Json) : List Char :=
  (quoted field.1).toList ++ ':' :: field.2.compact.toList

theorem toList_compact_object (fields : List (String × Json)) :
    (object fields).compact.toList =
      '{' :: ([','].intercalate (fields.map fieldText) ++ ['}']) := by
  have word (field : String × Json) :
      (quoted field.1 ++ ":" ++ field.2.compact).toList = fieldText field := by
    simp [fieldText]
  rw [compact]
  simp only [String.toList_append, String.toList_intercalate, List.map_map, Function.comp_def,
    word]
  rfl

theorem toDigits_ten_inj {first second : Nat}
    (same : Nat.toDigits 10 first = Nat.toDigits 10 second) : first = second := by
  have values := congrArg (Nat.ofDigitChars 10 · 0) same
  simpa [Nat.ofDigitChars_toDigits] using values

theorem isDigit_of_mem_digits {number : Nat} {c : Char} (member : c ∈ Nat.toDigits 10 number) :
    c.isDigit = true :=
  Nat.isDigit_of_mem_toDigits (by decide) (by decide) member

theorem not_mem_digits {c : Char} (other : c.isDigit = false) (number : Nat) :
    c ∉ Nat.toDigits 10 number := by
  intro member
  rw [isDigit_of_mem_digits member] at other
  cases other

theorem head?_digits (number : Nat) (rest : List Char) :
    ∃ c, (Nat.toDigits 10 number ++ rest).head? = some c ∧ c.isDigit = true := by
  obtain ⟨c, digits, found⟩ :=
    List.exists_cons_of_ne_nil (Nat.toDigits_ne_nil (b := 10) (n := number))
  have member : c ∈ Nat.toDigits 10 number := found ▸ List.mem_cons_self
  exact ⟨c, by rw [found]; rfl, isDigit_of_mem_digits member⟩

theorem digits_append_inj {first second : Nat} {rest more : List Char} (ends : Ends rest)
    (moreEnds : Ends more)
    (same : Nat.toDigits 10 first ++ rest = Nat.toDigits 10 second ++ more) :
    first = second ∧ rest = more := by
  obtain ⟨numbers, rests⟩ := splits_unique (fun _ => isDigit_of_mem_digits)
    (fun _ => isDigit_of_mem_digits) ends moreEnds same
  exact ⟨toDigits_ten_inj numbers, rests⟩

def opening : Json → Option Char
  | number _ => none
  | string _ => some '"'
  | array _ => some '['
  | object _ => some '{'

theorem head?_quoted (text : String) (rest : List Char) :
    ((quoted text).toList ++ rest).head? = some '"' := by
  simp [quoted]

theorem opening_eq (value : Json) (rest : List Char) :
    ∃ c, (value.compact.toList ++ rest).head? = some c ∧
      value.opening = if c.isDigit then none else some c := by
  cases value with
  | number value =>
      obtain ⟨c, head, digit⟩ := head?_digits value rest
      exact ⟨c, by rw [toList_compact_number, head], by simp [opening, digit]⟩
  | string text => exact ⟨'"', by rw [toList_compact_string, head?_quoted], rfl⟩
  | array items => exact ⟨'[', by simp [toList_compact_array], rfl⟩
  | object fields => exact ⟨'{', by simp [toList_compact_object], rfl⟩

theorem head?_compact_ne (value : Json) (rest : List Char) :
    (value.compact.toList ++ rest).head? ≠ some ']' := by
  obtain ⟨c, head, opens⟩ := opening_eq value rest
  rw [head, Ne, Option.some.injEq]
  rintro rfl
  cases value <;> cases opens

theorem opening_congr {first second : Json} {rest more : List Char}
    (same : first.compact.toList ++ rest = second.compact.toList ++ more) :
    first.opening = second.opening := by
  obtain ⟨c, head, opens⟩ := opening_eq first rest
  obtain ⟨d, otherHead, otherOpens⟩ := opening_eq second more
  rw [same, otherHead, Option.some.injEq] at head
  rw [opens, otherOpens, head]

theorem number_append_inj {value other : Nat} {rest more : List Char} (ends : Ends rest)
    (moreEnds : Ends more)
    (same : (number value).compact.toList ++ rest = (number other).compact.toList ++ more) :
    value = other ∧ rest = more := by
  rw [toList_compact_number, toList_compact_number] at same
  exact digits_append_inj ends moreEnds same

theorem head?_fieldText_ne (field : String × Json) (rest : List Char) :
    (fieldText field ++ rest).head? ≠ some '}' := by
  rw [fieldText, List.append_assoc, head?_quoted]
  decide

theorem fieldText_inj {field other : String × Json} {rest more : List Char}
    (apart : field.2.compact.toList ++ rest = other.2.compact.toList ++ more →
      field.2 = other.2 ∧ rest = more)
    (same : fieldText field ++ rest = fieldText other ++ more) : field = other ∧ rest = more := by
  rw [fieldText, fieldText, List.append_assoc, List.append_assoc] at same
  obtain ⟨keys, behind⟩ := quoted_append_inj same
  obtain ⟨values, rests⟩ := apart (List.cons.inj behind).2
  exact ⟨Prod.ext keys values, rests⟩

theorem compact_append_inj (first second : Json) {rest more : List Char} (ends : Ends rest)
    (moreEnds : Ends more)
    (same : first.compact.toList ++ rest = second.compact.toList ++ more) :
    first = second ∧ rest = more := by
  have openings := opening_congr same
  match first, second with
  | .number value, .number other =>
      obtain ⟨rfl, rests⟩ := number_append_inj ends moreEnds same
      exact ⟨rfl, rests⟩
  | .string text, .string other =>
      rw [toList_compact_string, toList_compact_string] at same
      obtain ⟨rfl, rests⟩ := quoted_append_inj same
      exact ⟨rfl, rests⟩
  | .array items, .array others =>
      simp only [toList_compact_array, List.cons_append, List.append_assoc, List.nil_append,
        List.cons.injEq, true_and] at same
      obtain ⟨rfl, rests⟩ := items_inj rfl (by decide) head?_compact_ne
        (fun item member other _ _ ends moreEnds => compact_append_inj item other ends moreEnds)
        same
      exact ⟨rfl, rests⟩
  | .object fields, .object others =>
      simp only [toList_compact_object, List.cons_append, List.append_assoc, List.nil_append,
        List.cons.injEq, true_and] at same
      obtain ⟨rfl, rests⟩ := items_inj rfl (by decide) head?_fieldText_ne
        (fun field member other _ _ ends moreEnds =>
          fieldText_inj (compact_append_inj field.2 other.2 ends moreEnds))
        same
      exact ⟨rfl, rests⟩
  | .number _, .string _ | .number _, .array _ | .number _, .object _
  | .string _, .number _ | .string _, .array _ | .string _, .object _
  | .array _, .number _ | .array _, .string _ | .array _, .object _
  | .object _, .number _ | .object _, .string _ | .object _, .array _ =>
      simp [opening] at openings
termination_by sizeOf first
decreasing_by
  · decreasing_tactic
  · have smaller := List.sizeOf_lt_of_mem member
    have : sizeOf field = 1 + sizeOf field.1 + sizeOf field.2 := by cases field; rfl
    simp only [Json.object.sizeOf_spec]
    omega

theorem compact_injective : Function.Injective compact := by
  intro first second same
  have none : Ends [] := by simp [Ends]
  exact (compact_append_inj first second none none (by rw [same])).1

end Json

end AeSchema.Text
