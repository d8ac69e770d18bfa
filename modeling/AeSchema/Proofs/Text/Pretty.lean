import AeSchema.Proofs.Text.Json

/-! JSON on several lines is JSON on one line with spaces and line feeds outside of its strings, so
it can be read off again as well. -/

namespace AeSchema.Text.Json

inductive Spot where
  | outside
  | inside
  | escaped
  deriving DecidableEq

def Spot.next : Spot → Char → Spot
  | outside, c => if c = '"' then inside else outside
  | inside, c => if c = '"' then outside else if c = '\\' then escaped else inside
  | escaped, _ => inside

def squeeze : Spot → List Char → List Char
  | _, [] => []
  | spot, c :: rest =>
      if spot = .outside ∧ (c = ' ' ∨ c = '\n') then squeeze spot rest
      else c :: squeeze (spot.next c) rest

section Squeeze

variable (rest : List Char)

theorem squeeze_mark {c : Char} (mark : c ∉ ['"', ' ', '\n']) :
    squeeze .outside (c :: rest) = c :: squeeze .outside rest := by
  simp only [List.mem_cons, List.not_mem_nil, or_false, not_or] at mark
  simp [squeeze, Spot.next, mark]

theorem squeeze_lineBreak (level : Nat) :
    squeeze .outside ((lineBreak level).toList ++ rest) = squeeze .outside rest := by
  have spaces (count : Nat) :
      squeeze .outside (List.replicate count ' ' ++ rest) = squeeze .outside rest := by
    induction count with
    | zero => rfl
    | succ count ih => simpa [List.replicate_succ, squeeze] using ih
  rw [lineBreak, String.toList_ofList, List.cons_append, squeeze, if_pos (by simp), spaces]

theorem squeeze_digits {digits : List Char} (all : ∀ c ∈ digits, c.isDigit = true) :
    squeeze .outside (digits ++ rest) = digits ++ squeeze .outside rest := by
  induction digits with
  | nil => rfl
  | cons digit digits ih =>
      rw [List.forall_mem_cons] at all
      have mark : digit ∉ ['"', ' ', '\n'] := by
        intro listed
        simp only [List.mem_cons, List.not_mem_nil, or_false] at listed
        rcases listed with rfl | rfl | rfl <;> exact absurd all.1 (by decide)
      rw [List.cons_append, squeeze_mark _ mark, ih all.2, List.cons_append]

theorem squeeze_escape (c : Char) :
    squeeze .inside (escape c ++ rest) = escape c ++ squeeze .inside rest := by
  have noQuote (digit : Nat) : Nat.digitChar digit ≠ '"' := Nat.digitChar_ne '"' (by decide)
  have noBackslash (digit : Nat) : Nat.digitChar digit ≠ '\\' :=
    Nat.digitChar_ne '\\' (by decide)
  have spelling := spelling_escape c
  generalize escape c = word at spelling
  cases spelling with
  | plain quote backslash => simp [squeeze, Spot.next, quote, backslash]
  | letter => simp [squeeze, Spot.next]
  | number padded =>
      rw [padded.2]
      simp [squeeze, Spot.next, noQuote, noBackslash]

theorem squeeze_quoted (text : String) :
    squeeze .outside ((quoted text).toList ++ rest) =
      (quoted text).toList ++ squeeze .outside rest := by
  have body (chars : List Char) : squeeze .inside (chars.flatMap escape ++ '"' :: rest) =
      chars.flatMap escape ++ '"' :: squeeze .outside rest := by
    induction chars with
    | nil => simp [squeeze, Spot.next]
    | cons c chars ih =>
        rw [List.flatMap_cons, List.append_assoc, squeeze_escape, ih, List.append_assoc]
  simp [quoted, squeeze, Spot.next, body]

theorem squeeze_intercalate {α : Type} {word tight : α → List Char} {items : List α}
    (each : ∀ item ∈ items, ∀ rest,
      squeeze .outside (word item ++ rest) = tight item ++ squeeze .outside rest) :
    squeeze .outside ([','].intercalate (items.map word) ++ rest) =
      [','].intercalate (items.map tight) ++ squeeze .outside rest := by
  have later (items : List α) (each : ∀ item ∈ items, ∀ rest,
        squeeze .outside (word item ++ rest) = tight item ++ squeeze .outside rest) :
      squeeze .outside ((items.map word).flatMap (',' :: ·) ++ rest) =
        (items.map tight).flatMap (',' :: ·) ++ squeeze .outside rest := by
    induction items with
    | nil => rfl
    | cons item items ih =>
        rw [List.forall_mem_cons] at each
        simp [squeeze, Spot.next, each.1, ih each.2]
  cases items with
  | nil => rfl
  | cons item items =>
      rw [List.forall_mem_cons] at each
      rw [List.map_cons, List.map_cons, intercalate_cons, intercalate_cons, List.append_assoc,
        List.append_assoc, each.1, later items each.2]

theorem squeeze_container {α : Type} {word tight : α → List Char} {items : List α} (level : Nat)
    {opening closing : Char} (opens : opening ∉ ['"', ' ', '\n'])
    (closes : closing ∉ ['"', ' ', '\n'])
    (each : ∀ item ∈ items, ∀ rest,
      squeeze .outside (word item ++ rest) = tight item ++ squeeze .outside rest) :
    squeeze .outside (opening :: ([','].intercalate (items.map fun item =>
      (lineBreak (level + 1)).toList ++ word item) ++ ((lineBreak level).toList ++ [closing])) ++
        rest) =
      opening :: ([','].intercalate (items.map tight) ++ [closing]) ++ squeeze .outside rest := by
  have broken : ∀ item ∈ items, ∀ rest, squeeze .outside
      ((lineBreak (level + 1)).toList ++ word item ++ rest) =
        tight item ++ squeeze .outside rest := by
    intro item member rest
    rw [List.append_assoc, squeeze_lineBreak, each item member]
  simp only [List.cons_append, List.append_assoc, List.nil_append]
  rw [squeeze_mark _ opens, squeeze_intercalate _ broken, squeeze_lineBreak,
    squeeze_mark _ closes]

end Squeeze

theorem toList_pretty_array {items : List Json} (nonempty : items ≠ []) (level : Nat) :
    ((array items).pretty level).toList =
      '[' :: ([','].intercalate (items.map fun item =>
        (lineBreak (level + 1)).toList ++ (item.pretty (level + 1)).toList) ++
          ((lineBreak level).toList ++ [']'])) := by
  rw [pretty]
  · simp [String.toList_intercalate, Function.comp_def]
  · exact nonempty

theorem toList_pretty_object {fields : List (String × Json)} (nonempty : fields ≠ [])
    (level : Nat) :
    ((object fields).pretty level).toList =
      '{' :: ([','].intercalate (fields.map fun field =>
        (lineBreak (level + 1)).toList ++ ((quoted field.1).toList ++
          ':' :: ' ' :: (field.2.pretty (level + 1)).toList)) ++
          ((lineBreak level).toList ++ ['}'])) := by
  rw [pretty]
  · simp [String.toList_intercalate, Function.comp_def]
  · exact nonempty

theorem squeeze_pretty (value : Json) (level : Nat) (rest : List Char) :
    squeeze .outside ((value.pretty level).toList ++ rest) =
      value.compact.toList ++ squeeze .outside rest := by
  match value with
  | number digits =>
      rw [pretty, toList_compact_number, Nat.toList_repr]
      apply squeeze_digits
      intro c member
      exact isDigit_of_mem_digits member
  | string text => rw [pretty, toList_compact_string, squeeze_quoted]
  | array items =>
      by_cases empty : items = []
      · subst empty
        simp [pretty, compact, squeeze, Spot.next]
      · rw [toList_pretty_array empty, toList_compact_array]
        apply squeeze_container rest level (by decide) (by decide)
        intro item member rest
        exact squeeze_pretty item (level + 1) rest
  | object fields =>
      by_cases empty : fields = []
      · subst empty
        simp [pretty, compact, squeeze, Spot.next]
      · rw [toList_pretty_object empty, toList_compact_object]
        apply squeeze_container rest level (by decide) (by decide)
        intro field member rest
        simp only [List.append_assoc, List.cons_append]
        rw [squeeze_quoted, squeeze_mark _ (by decide), squeeze, if_pos (by simp),
          squeeze_pretty field.2 (level + 1) rest, fieldText, List.append_assoc, List.cons_append]
termination_by sizeOf value
decreasing_by
  · decreasing_tactic
  · have smaller := List.sizeOf_lt_of_mem member
    have : sizeOf field = 1 + sizeOf field.1 + sizeOf field.2 := by cases field; rfl
    simp only [Json.object.sizeOf_spec]
    omega

theorem pretty_injective (level : Nat) : Function.Injective (pretty level) := by
  intro first second same
  apply compact_injective
  rw [← String.toList_inj]
  have squeezed := squeeze_pretty first level []
  rw [same, squeeze_pretty second level []] at squeezed
  simpa [squeeze] using squeezed.symm

end AeSchema.Text.Json
