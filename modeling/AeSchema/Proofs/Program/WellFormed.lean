import AeSchema.Proofs.Program.Grammar
import AeSchema.Proofs.Token.Lexeme

/-! Well-formed programs: the trees that some text stands for. -/

namespace AeSchema

variable {Origin : Type}

mutual

/-- How many values lie inside each other, the outermost one included. -/
def Expr.height : Expr Origin → Nat
  | .definition _ value _ | .route _ value _ | .response _ _ value _ => value.height + 1
  | .reference .. | .url .. => 1
  | .format entries _ => entries.height + 1
  | .arrayOf element _ => element.height + 1

def Value.height : Value Origin → Nat
  | .expr inner => inner.height
  | .text _ => 1

def Format.height : Format Origin → Nat
  | .empty => 0
  | .entry _ value rest => max value.height rest.height

end

mutual

def Expr.Nests (known : List String) : Expr Origin → Prop
  | .definition .. | .route .. | .response .. => False
  | .reference name _ => name ∈ known
  | .format entries _ => entries ≠ .empty ∧ entries.keys.Nodup ∧ entries.Nests known
  | .arrayOf element _ => element.Nests known
  | .url .. => True

def Value.Nests (known : List String) : Value Origin → Prop
  | .expr inner => inner.Nests known
  | .text _ => True

def Format.Nests (known : List String) : Format Origin → Prop
  | .empty => True
  | .entry _ value rest => value.Nests known ∧ rest.Nests known

end

structure Expr.Bindable (known : List String) (expr : Expr Origin) : Prop where
  nests : expr.Nests known
  shallow : expr.height ≤ nestingLimit

def IsName (name : String) : Prop :=
  IsWord name.toList ∧ ¬Reserved name

def Expr.Stands (known : List String) : Expr Origin → Prop
  | .definition name value _ => IsName name ∧ value.Bindable known
  | .route _ value _ => value.Bindable known
  | .response _ status value _ => 100 ≤ status ∧ status ≤ 999 ∧ value.Bindable known
  | .reference .. | .format .. | .arrayOf .. | .url .. => False

/-- References go to definitions further up, or to names that were known before. -/
def WellFormed (known : List String) : List (Expr Origin) → Prop
  | [] => True
  | expr :: program => expr.Stands known ∧ WellFormed (known ++ expr.defined) program

section

variable {known : List String} {bound level : Nat} {tokens : List Token}

theorem Format.nests_iff {format : Format Origin} :
    format.Nests known ↔ ∀ entry ∈ format.toList, entry.2.Nests known := by
  cases format with
  | empty => simp [Nests, toList]
  | entry _ value rest =>
      rw [Nests, toList, List.forall_mem_cons]
      exact and_congr_right' rest.nests_iff

theorem Format.height_le_iff {format : Format Origin} :
    format.height ≤ bound ↔ ∀ entry ∈ format.toList, entry.2.height ≤ bound := by
  cases format with
  | empty => simp [height, toList]
  | entry _ value rest =>
      rw [height, toList, List.forall_mem_cons, Nat.max_le]
      exact and_congr_right' rest.height_le_iff

def Phrase.Fits (known : List String) (bound level : Nat) : Phrase → Prop
  | .value inner => inner.Nests known ∧ level + inner.height ≤ bound + 1
  | .pairs entries => entries ≠ [] ∧
      ∀ entry ∈ entries, entry.2.Nests known ∧ level + entry.2.height ≤ bound + 1

theorem Phrase.Fits.format {entries : List (String × Value Token)} {opening : Token}
    (fits : Fits known bound (level + 1) (.pairs entries)) (within : level ≤ bound) :
    Fits known bound level (.value (.expr (.format (.ofList entries) opening))) := by
  obtain ⟨nonempty, inside⟩ := fits
  refine ⟨⟨Format.ofList_ne_empty nonempty, Format.nodup_keys_ofList, ?_⟩, ?_⟩
  · rw [Format.nests_iff]
    intro entry member
    exact (inside entry (Format.mem_of_mem_toList_ofList member)).1
  · have height : (Format.ofList entries).height ≤ bound - level := by
      rw [Format.height_le_iff]
      intro entry member
      have low := (inside entry (Format.mem_of_mem_toList_ofList member)).2
      omega
    rw [Value.height, Expr.height]
    omega

theorem Derives.fits {phrase : Phrase} (derives : Derives (some bound) known level phrase tokens) :
    phrase.Fits known bound level := by
  induction derives with
  | string within => exact ⟨trivial, by simpa [Value.height] using within⟩
  | name within _ member => exact ⟨member, by simpa [Value.height, Expr.height] using within⟩
  | format within _ _ _ ih => exact ih.format (within bound rfl)
  | url within => exact ⟨trivial, by simpa [Value.height, Expr.height] using within⟩
  | arrayOf _ _ _ ih =>
      refine ⟨ih.1, ?_⟩
      have low := ih.2
      rw [Value.height, Expr.height]
      omega
  | pair _ _ _ ih => exact ⟨List.cons_ne_nil _ _, List.forall_mem_singleton.mpr ih⟩
  | more _ _ _ _ _ ihValue ihRest =>
      refine ⟨List.cons_ne_nil _ _, ?_⟩
      rw [List.forall_mem_cons]
      exact ⟨ihValue, ihRest.2⟩

theorem Derives.bindable {expr : Expr Token}
    (derives : Derives (some nestingLimit) known 1 (.value (.expr expr)) tokens) :
    expr.Bindable known := by
  obtain ⟨nests, low⟩ := derives.fits
  rw [Value.height] at low
  exact ⟨nests, by omega⟩

def NamesSound (tokens : List Token) : Prop :=
  ∀ token ∈ tokens, token.kind = .identifier → IsName token.value

theorem DerivesTop.stands {expr : Expr Token}
    (derives : DerivesTop (some nestingLimit) known expr tokens) (names : NamesSound tokens) :
    expr.Stands known := by
  cases derives with
  | definition _ identifier value => exact ⟨names _ (by simp) identifier, value.bindable⟩
  | route _ _ value => exact value.bindable
  | response _ _ _ isStatus value =>
      obtain ⟨lower, upper, _⟩ := isStatus_iff.mp isStatus
      exact ⟨lower, upper, value.bindable⟩

theorem DerivesProgram.wellFormed {program : List (Expr Token)}
    (derives : DerivesProgram (some nestingLimit) known program tokens)
    (names : NamesSound tokens) : WellFormed known program := by
  induction derives with
  | nil => trivial
  | cons top _ ih =>
      refine ⟨top.stands fun token member => ?_, ih fun token member => ?_⟩
      · exact names token (List.mem_append_left _ member)
      · exact names token (List.mem_append_right _ member)

end

end AeSchema
