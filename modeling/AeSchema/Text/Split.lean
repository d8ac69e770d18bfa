/-! Splitting at every occurrence of a separator. -/

namespace AeSchema.Text

variable {α : Type} [DecidableEq α]

/-- The stretches between the separators, at least one; they hold no separator. -/
def splitAtEach (separator : α) (whole : List α) : List (List α) :=
  whole.foldr
    (fun item found =>
      if item = separator then [] :: found
      else match found with
        | [] => [[item]]
        | stretch :: rest => (item :: stretch) :: rest)
    [[]]

theorem splitAtEach_cons (separator item : α) (rest : List α) :
    splitAtEach separator (item :: rest) =
      if item = separator then [] :: splitAtEach separator rest
      else match splitAtEach separator rest with
        | [] => [[item]]
        | stretch :: more => (item :: stretch) :: more := rfl

theorem splitAtEach_ne_nil (separator : α) (whole : List α) :
    splitAtEach separator whole ≠ [] := by
  cases whole with
  | nil => simp [splitAtEach]
  | cons item rest =>
      rw [splitAtEach_cons]
      split
      · simp
      · split <;> simp

theorem intercalate_splitAtEach (separator : α) (whole : List α) :
    [separator].intercalate (splitAtEach separator whole) = whole := by
  induction whole with
  | nil => simp [splitAtEach]
  | cons item rest ih =>
      rw [splitAtEach_cons]
      have nonempty := splitAtEach_ne_nil separator rest
      split
      next same =>
        subst same
        cases found : splitAtEach item rest with
        | nil => exact absurd found nonempty
        | cons stretch more =>
            rw [found] at ih
            simpa [List.intercalate] using ih
      next other =>
        cases found : splitAtEach separator rest with
        | nil => exact absurd found nonempty
        | cons stretch more =>
            rw [found] at ih
            cases more with
            | nil => simpa [List.intercalate] using ih
            | cons second others => simpa [List.intercalate] using ih

end AeSchema.Text
