import AeSchema.Program.Parse

/-! Status codes: words of three digits, and the numbers from 100 to 999 that they write. -/

namespace AeSchema

/-- Three decimal digits, the first not zero, and their value. -/
def IsStatus (word : String) (status : Nat) : Prop :=
  ∃ hundreds tens ones, 0 < hundreds ∧ hundreds < 10 ∧ tens < 10 ∧ ones < 10 ∧
    word.toList = [Nat.digitChar hundreds, Nat.digitChar tens, Nat.digitChar ones] ∧
    status = 100 * hundreds + 10 * tens + ones

theorem digitChar_of_isDigit {c : Char} (digit : c.isDigit = true) :
    ∃ value < 10, c = Nat.digitChar value := by
  have bounds : 48 ≤ c.toNat ∧ c.toNat ≤ 57 := by
    simp only [Char.isDigit, ge_iff_le, Bool.and_eq_true, decide_eq_true_eq,
      UInt32.le_iff_toNat_le] at digit
    exact digit
  refine ⟨c.toNat - 48, by omega, Char.toNat_inj.mp ?_⟩
  rw [Nat.toNat_digitChar_of_lt_ten (by omega)]
  omega

theorem Parse.status?_eq_some_iff {token : Token} {status : Nat} :
    status? token = some status ↔ token.kind = .identifier ∧ IsStatus token.value status := by
  constructor
  · intro found
    unfold status? at found
    split at found
    next kind word =>
      split at found
      next digits =>
        obtain ⟨nonzero, first, second, third⟩ := digits
        obtain ⟨hundreds, hundredsBound, rfl⟩ := digitChar_of_isDigit first
        obtain ⟨tens, tensBound, rfl⟩ := digitChar_of_isDigit second
        obtain ⟨ones, onesBound, rfl⟩ := digitChar_of_isDigit third
        rw [Ne, Nat.digitChar_eq_zero] at nonzero
        rw [Nat.toNat_digitChar_sub_48_of_lt_ten hundredsBound,
          Nat.toNat_digitChar_sub_48_of_lt_ten tensBound,
          Nat.toNat_digitChar_sub_48_of_lt_ten onesBound, Option.some.injEq] at found
        exact ⟨kind, hundreds, tens, ones, by omega, hundredsBound, tensBound, onesBound, word,
          by omega⟩
      next => simp at found
    next => simp at found
  · rintro ⟨kind, hundreds, tens, ones, positive, hundredsBound, tensBound, onesBound, word, rfl⟩
    have digits : Nat.digitChar hundreds ≠ '0' ∧ (Nat.digitChar hundreds).isDigit = true ∧
        (Nat.digitChar tens).isDigit = true ∧ (Nat.digitChar ones).isDigit = true := by
      simp only [Ne, Nat.digitChar_eq_zero, Nat.isDigit_digitChar, decide_eq_true_eq]
      omega
    unfold status?
    rw [kind, word]
    simp only [if_pos digits]
    rw [Nat.toNat_digitChar_sub_48_of_lt_ten hundredsBound,
      Nat.toNat_digitChar_sub_48_of_lt_ten tensBound,
      Nat.toNat_digitChar_sub_48_of_lt_ten onesBound, Nat.mul_comm hundreds, Nat.mul_comm tens]

theorem toDigits_hundreds {hundreds tens ones : Nat} (positive : 0 < hundreds)
    (hundredsBound : hundreds < 10) (tensBound : tens < 10) (onesBound : ones < 10) :
    Nat.toDigits 10 (100 * hundreds + 10 * tens + ones) =
      [Nat.digitChar hundreds, Nat.digitChar tens, Nat.digitChar ones] := by
  have split : 100 * hundreds + 10 * tens + ones = 10 * (10 * hundreds + tens) + ones := by omega
  rw [split, ← Nat.toDigits_append_toDigits (by decide) (by omega) onesBound,
    ← Nat.toDigits_append_toDigits (by decide) positive tensBound,
    Nat.toDigits_of_lt_base hundredsBound, Nat.toDigits_of_lt_base tensBound,
    Nat.toDigits_of_lt_base onesBound]
  rfl

theorem isStatus_iff {word : String} {status : Nat} :
    IsStatus word status ↔ 100 ≤ status ∧ status ≤ 999 ∧ word = Nat.repr status := by
  constructor
  · rintro ⟨hundreds, tens, ones, positive, hundredsBound, tensBound, onesBound, word, rfl⟩
    refine ⟨by omega, by omega, String.toList_injective ?_⟩
    rw [Nat.toList_repr, toDigits_hundreds positive hundredsBound tensBound onesBound, word]
  · rintro ⟨lower, upper, rfl⟩
    have split : status = 100 * (status / 100) + 10 * (status / 10 % 10) + status % 10 := by omega
    refine ⟨status / 100, status / 10 % 10, status % 10, by omega, by omega, by omega, by omega,
      ?_, split⟩
    rw [Nat.toList_repr, ← toDigits_hundreds (by omega) (by omega) (by omega) (by omega), ← split]

end AeSchema
