import AeSchema.Proofs.Source.Behind
import AeSchema.Proofs.Text.Split
import AeSchema.Text.Lines

/-! Lines of texts that are put together: what follows a part of a text goes on in the line that
the part leaves unfinished. -/

namespace AeSchema.Text

open Source

theorem splitAtEach_flatMap {α : Type} {line : α → List Char} {items : List α}
    (plain : ∀ item ∈ items, '\n' ∉ line item) :
    splitAtEach '\n' (items.flatMap fun item => line item ++ ['\n']) = items.map line ++ [[]] := by
  induction items with
  | nil => rfl
  | cons item items ih =>
      rw [List.forall_mem_cons] at plain
      rw [List.flatMap_cons, List.append_assoc, List.singleton_append,
        splitAtEach_append_cons plain.1, ih plain.2, List.map_cons, List.cons_append]

section LastLine

theorem lastLine_of_not_mem {text : List Char} (absent : '\n' ∉ text) : lastLine text = text := by
  induction text using List.reverseRecOn with
  | nil => rfl
  | append_singleton text c ih =>
      rw [List.mem_append, not_or, List.mem_singleton] at absent
      rw [lastLine_concat, if_neg (Ne.symm absent.2), ih absent.1]

theorem lastLine_append_cons (first rest : List Char) :
    lastLine (first ++ '\n' :: rest) = lastLine rest := by
  induction rest using List.reverseRecOn with
  | nil => rw [lastLine_concat, if_pos rfl]; rfl
  | append_singleton rest c ih =>
      rw [← List.cons_append, ← List.append_assoc, lastLine_concat, lastLine_concat, ih]

theorem lineFeed_not_mem_lastLine (text : List Char) : '\n' ∉ lastLine text := by
  intro member
  have other := List.mem_rtakeWhile_imp member
  simp at other

end LastLine

theorem lines_of_not_mem {text : List Char} (nonempty : text ≠ []) (absent : '\n' ∉ text) :
    lines text = [text] := by
  obtain ⟨c, rest, rfl⟩ := List.exists_cons_of_ne_nil nonempty
  simp [lines, splitAtEach_of_not_mem absent]

theorem lines_append_cons {first : List Char} (absent : '\n' ∉ first) (rest : List Char) :
    lines (first ++ '\n' :: rest) = dropReturn first :: lines rest := by
  obtain ⟨stretch, more, found⟩ := List.exists_cons_of_ne_nil (splitAtEach_ne_nil '\n' rest)
  simp only [lines, splitAtEach_append_cons absent, found, List.getLast?_cons_cons,
    List.dropLast_cons_cons, List.map_cons]
  split <;> rfl

theorem lines_flatMap {shown : List (List Char)} (plain : ∀ line ∈ shown, '\n' ∉ line)
    (kept : ∀ line ∈ shown, line.getLast? ≠ some '\r') :
    lines (shown.flatMap (· ++ ['\n'])) = shown := by
  induction shown with
  | nil => rfl
  | cons line shown ih =>
      rw [List.forall_mem_cons] at plain kept
      rw [List.flatMap_cons, List.append_assoc, List.singleton_append, lines_append_cons plain.1,
        dropReturn, if_neg kept.1, ih plain.2 kept.2]

/-- A line shows a stretch of the text, maybe without the carriage return at its end. -/
def Shows (line stretch : List Char) : Prop :=
  line = stretch ∨ stretch = line ++ ['\r']

theorem shows_dropReturn (stretch : List Char) : Shows (dropReturn stretch) stretch := by
  unfold dropReturn
  split
  next ends => exact .inr (List.dropLast_append_getLast? '\r' ends).symm
  next => exact .inl rfl

theorem Shows.exists_append_cons {line front rest : List Char} {c : Char}
    (shows : Shows line (front ++ c :: rest)) (visible : c ≠ '\r') :
    ∃ more, line = front ++ c :: more := by
  rcases shows with rfl | ends
  · exact ⟨rest, rfl⟩
  · rcases List.eq_nil_or_concat rest with rfl | ⟨more, last, rfl⟩
    · have last := List.append_inj_right' ends rfl
      exact absurd (List.cons.inj last).1 visible
    · refine ⟨more, ?_⟩
      rw [List.concat_eq_append, ← List.cons_append, ← List.append_assoc] at ends
      exact (List.append_inj_left' ends rfl).symm

theorem takeWhile_ne_of_not_mem {first : List Char} (absent : '\n' ∉ first) (rest : List Char) :
    (first ++ rest).takeWhile (· ≠ '\n') = first ++ rest.takeWhile (· ≠ '\n') := by
  apply List.takeWhile_append_of_pos
  intro c member
  rw [decide_eq_true_eq]
  rintro rfl
  exact absent member

theorem takeWhile_ne_append_cons {first : List Char} (absent : '\n' ∉ first) (rest : List Char) :
    (first ++ '\n' :: rest).takeWhile (· ≠ '\n') = first := by
  rw [takeWhile_ne_of_not_mem absent]
  simp

/-- A line feed takes with it the carriage return in front of it. -/
def firstLine (text : List Char) : List Char :=
  if '\n' ∈ text then dropReturn (text.takeWhile (· ≠ '\n')) else text

theorem firstLine_append_cons {first : List Char} (absent : '\n' ∉ first) (rest : List Char) :
    firstLine (first ++ '\n' :: rest) = dropReturn first := by
  rw [firstLine, if_pos (by simp), takeWhile_ne_append_cons absent]

theorem shows_firstLine (text : List Char) :
    Shows (firstLine text) (text.takeWhile (· ≠ '\n')) := by
  unfold firstLine
  split
  next => exact shows_dropReturn _
  next absent => exact .inl (by simpa using (takeWhile_ne_of_not_mem absent []).symm)

theorem exists_lines_eq_cons {text : List Char} (nonempty : text ≠ []) :
    ∃ below, lines text = firstLine text :: below := by
  by_cases broken : '\n' ∈ text
  · obtain ⟨first, rest, rfl, absent⟩ := List.eq_append_cons_of_mem broken
    refine ⟨lines rest, ?_⟩
    rw [firstLine_append_cons absent, lines_append_cons absent]
  · refine ⟨[], ?_⟩
    rw [firstLine, if_neg broken, lines_of_not_mem nonempty broken]

theorem exists_lines_append {back : List Char} (nonempty : back ≠ []) (front : List Char) :
    ∃ above below, lines (front ++ back) = above ++ firstLine (lastLine front ++ back) :: below ∧
      above.length = front.count '\n' := by
  induction bound : front.length using Nat.strongRecOn generalizing front with
  | ind size ih =>
      by_cases broken : '\n' ∈ front
      · obtain ⟨first, rest, rfl, absent⟩ := List.eq_append_cons_of_mem broken
        have shorter : rest.length < size := by
          simp only [List.length_append, List.length_cons] at bound
          omega
        obtain ⟨above, below, split, count⟩ := ih rest.length shorter rest rfl
        refine ⟨dropReturn first :: above, below, ?_, ?_⟩
        · rw [List.append_assoc, List.cons_append, lines_append_cons absent, split,
            lastLine_append_cons]
          rfl
        · rw [List.length_cons, count, List.count_append, List.count_cons_self,
            List.count_eq_zero.mpr absent]
          omega
      · obtain ⟨below, split⟩ :=
          exists_lines_eq_cons (List.append_ne_nil_of_right_ne_nil front nonempty)
        rw [lastLine_of_not_mem broken]
        refine ⟨[], below, split, ?_⟩
        rw [List.count_eq_zero.mpr broken]
        rfl

theorem lines_append {back : List Char} (nonempty : back ≠ []) (front : List Char) :
    ∃ above line below, lines (front ++ back) = above ++ line :: below ∧
      above.length = front.count '\n' ∧
      Shows line (lastLine front ++ back.takeWhile (· ≠ '\n')) := by
  obtain ⟨above, below, split, count⟩ := exists_lines_append nonempty front
  refine ⟨above, _, below, split, count, ?_⟩
  rw [← takeWhile_ne_of_not_mem (lineFeed_not_mem_lastLine front)]
  exact shows_firstLine _

end AeSchema.Text
