import AeSchema.Diagnostic.Report
import AeSchema.Proofs.Token.Spans

/-! What spans mark in a text. A span that cuts a character, or that is reversed or goes past the
end, marks nothing. -/

namespace AeSchema

open Source

namespace Source

theorem splitBytes?_append (part rest front : List Char) :
    splitBytes? (byteSize part) (part ++ rest) front = some (front.reverse ++ part, rest) := by
  induction part generalizing front with
  | nil => cases rest <;> simp [byteSize, splitBytes?]
  | cons c part ih =>
      have positive := c.utf8Size_pos
      obtain ⟨size, bytes⟩ := Nat.exists_eq_add_one_of_ne_zero
        (n := c.utf8Size + byteSize part) (by omega)
      have remaining : size + 1 - c.utf8Size = byteSize part := by omega
      rw [byteSize, bytes, List.cons_append, splitBytes?, if_pos (by omega), remaining, ih]
      simp

theorem exists_of_splitBytes? {size : Nat} {text front found rest : List Char}
    (split : splitBytes? size text front = some (found, rest)) :
    ∃ part, found = front.reverse ++ part ∧ text = part ++ rest ∧ byteSize part = size := by
  fun_induction splitBytes? size text front with
  | case1 rest front =>
      obtain ⟨rfl, rfl⟩ := by simpa using split
      exact ⟨[], by simp, rfl, rfl⟩
  | case2 => cases split
  | case3 front size c text fits ih =>
      obtain ⟨part, rfl, rfl, bytes⟩ := ih split
      refine ⟨c :: part, by simp, rfl, ?_⟩
      rw [byteSize]
      omega
  | case4 => cases split

theorem slice?_eq_some_iff {text marked : List Char} {span : Span} :
    slice? text span = some marked ↔ ∃ rest, StandsAt text span marked rest := by
  constructor
  · intro found
    unfold slice? at found
    split at found
    next ordered =>
      simp only [Option.bind_eq_bind, Option.pure_def, Option.bind_eq_some_iff,
        Option.some.injEq] at found
      obtain ⟨⟨front, back⟩, first, ⟨part, rest⟩, second, rfl⟩ := found
      obtain ⟨front, rfl, rfl, start⟩ := exists_of_splitBytes? first
      obtain ⟨part, rfl, rfl, size⟩ := exists_of_splitBytes? second
      refine ⟨rest, front, rfl, ?_⟩
      rw [Span.size] at size
      have stop : byteSize (front ++ part) = span.stop := by
        rw [byteSize_append]
        omega
      rw [start, stop]
    next => cases found
  · rintro ⟨rest, front, rfl, rfl⟩
    have ordered : byteSize front ≤ byteSize (front ++ marked) := by
      rw [byteSize_append]
      omega
    have size : byteSize (front ++ marked) - byteSize front = byteSize marked := by
      rw [byteSize_append]
      omega
    simp [slice?, ordered, Span.size, size, splitBytes?_append]

end Source

/-- How many characters a pointer marks: those of its first line that the span covers, but one if
these are none. -/
structure IsMarkedWidth (source : List Char) (span : Span) (width : Nat) : Prop where
  inside : ∀ marked rest, StandsAt source span marked rest →
    width = max 1 (marked.takeWhile (· ≠ '\n')).length
  outside : (∀ marked rest, ¬StandsAt source span marked rest) → width = 1
  positive : 1 ≤ width

theorem isMarkedWidth_markedWidth (source : List Char) (span : Span) :
    IsMarkedWidth source span (markedWidth source span) := by
  constructor
  · intro marked rest stands
    rw [markedWidth, slice?_eq_some_iff.mpr ⟨rest, stands⟩]
  · intro nowhere
    cases found : slice? source span with
    | none => rw [markedWidth, found]
    | some marked =>
        obtain ⟨rest, stands⟩ := slice?_eq_some_iff.mp found
        exact absurd stands (nowhere marked rest)
  · unfold markedWidth
    split
    · exact Nat.le_max_left 1 _
    · exact Nat.le_refl 1

end AeSchema
