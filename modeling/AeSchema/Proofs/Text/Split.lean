import AeSchema.Text.Split

/-! Stretches between separators: how they are found, and what they are made of once they are put
together again. -/

namespace AeSchema.Text

variable {α : Type} {separator : α}

section Split

variable [DecidableEq α]

theorem splitAtEach_of_not_mem {whole : List α} (absent : separator ∉ whole) :
    splitAtEach separator whole = [whole] := by
  induction whole with
  | nil => rfl
  | cons item rest ih =>
      rw [List.mem_cons, not_or] at absent
      rw [splitAtEach_cons, if_neg (Ne.symm absent.1), ih absent.2]

theorem splitAtEach_append_cons {front rest : List α} (absent : separator ∉ front) :
    splitAtEach separator (front ++ separator :: rest) = front :: splitAtEach separator rest := by
  induction front with
  | nil => rw [List.nil_append, splitAtEach_cons, if_pos rfl]
  | cons item front ih =>
      rw [List.mem_cons, not_or] at absent
      rw [List.cons_append, splitAtEach_cons, if_neg (Ne.symm absent.1), ih absent.2]

end Split

theorem intercalate_cons (separator : α) (first : List α) (rest : List (List α)) :
    [separator].intercalate (first :: rest) = first ++ rest.flatMap (separator :: ·) := by
  induction rest generalizing first with
  | nil => simp
  | cons second rest ih =>
      rw [List.intercalate_cons_cons, ih]
      simp

theorem eq_or_exists_of_mem_intercalate {item : α} {stretches : List (List α)}
    (member : item ∈ [separator].intercalate stretches) :
    item = separator ∨ ∃ stretch ∈ stretches, item ∈ stretch := by
  cases stretches with
  | nil => simp at member
  | cons first rest =>
      rw [intercalate_cons, List.mem_append, List.mem_flatMap] at member
      rcases member with inside | ⟨stretch, later, inside⟩
      · exact .inr ⟨first, List.mem_cons_self, inside⟩
      · rcases List.mem_cons.mp inside with same | inside
        · exact .inl same
        · exact .inr ⟨stretch, List.mem_cons_of_mem first later, inside⟩

theorem mem_intercalate {item : α} {stretch : List α} {stretches : List (List α)}
    (listed : stretch ∈ stretches) (member : item ∈ stretch) :
    item ∈ [separator].intercalate stretches := by
  cases stretches with
  | nil => cases listed
  | cons first rest =>
      rw [intercalate_cons, List.mem_append, List.mem_flatMap]
      rcases List.mem_cons.mp listed with rfl | later
      · exact .inl member
      · exact .inr ⟨stretch, later, List.mem_cons_of_mem separator member⟩

end AeSchema.Text
