import AeSchema.Proofs.Expr.Erase
import AeSchema.Proofs.Program.WellFormed
import AeSchema.Proofs.Token.Lines

/-! The text of a program: a line for each top-level expression, its tokens one space apart. Tokens
that say what the lexemes of a well-formed program say derive this program. -/

namespace AeSchema

variable {Origin : Type}

mutual

def Expr.lexemes : Expr Origin → List Lexeme
  | .definition name value _ => .keyword .define :: .identifier name :: value.lexemes
  | .route path value _ => .keyword .route :: .string path :: value.lexemes
  | .response path status value _ =>
      .keyword .response :: .string path :: .identifier (Nat.repr status) :: value.lexemes
  | .reference name _ => [.identifier name]
  | .format entries _ => .curlyOpen :: (entries.lexemes ++ [.curlyClose])
  | .arrayOf element _ => .keyword .arrayOf :: element.lexemes
  | .url literal _ => [.keyword .url, .string literal]

def Value.lexemes : Value Origin → List Lexeme
  | .expr inner => inner.lexemes
  | .text content => [.string content]

def Format.lexemes : Format Origin → List Lexeme
  | .empty => []
  | .entry key value rest => .string key :: .colon ::
      (value.lexemes ++ if rest.isEmpty then [] else .comma :: rest.lexemes)

end

def programText (program : List (Expr Origin)) : String :=
  linesText (program.map Expr.lexemes)

theorem Expr.defined_erase (expr : Expr Origin) : expr.erase.defined = expr.defined := by
  cases expr <;> rfl

theorem Lexeme.sound_keyword (keyword : Keyword) : (Lexeme.keyword keyword).Sound := by
  have reserved : Reserved keyword.text := ⟨keyword, rfl⟩
  exact ⟨reserved.isWord, reserved⟩

theorem digitChar_not_special {digit : Nat} (bound : digit < 10) :
    ¬Boundary (Nat.digitChar digit) ∧ Nat.digitChar digit ≠ '"' ∧
      ∀ keyword ∈ Keyword.all, keyword.text.toList.head? ≠ some (Nat.digitChar digit) := by
  revert digit
  decide

theorem IsStatus.isName {word : String} {status : Nat} (isStatus : IsStatus word status) :
    IsName word := by
  obtain ⟨hundreds, tens, ones, _, hundredsBound, tensBound, onesBound, digits, _⟩ := isStatus
  obtain ⟨unbroken, unquoted, unreserved⟩ := digitChar_not_special hundredsBound
  constructor
  · rw [digits]
    refine ⟨List.cons_ne_nil _ _, ?_, ?_⟩
    · simp only [List.forall_mem_cons]
      exact ⟨unbroken, (digitChar_not_special tensBound).1, (digitChar_not_special onesBound).1,
        by simp⟩
    · rw [List.head?_cons, Ne, Option.some.injEq]
      exact unquoted
  · rintro ⟨keyword, rfl⟩
    refine unreserved keyword (by cases keyword <;> decide) ?_
    rw [digits, List.head?_cons]

section Sound

variable {known : List String}

mutual

theorem Expr.sound_lexemes (expr : Expr Origin) (nests : expr.Nests known)
    (names : ∀ name ∈ known, IsName name) : ∀ lexeme ∈ expr.lexemes, lexeme.Sound := by
  match expr with
  | .reference name _ =>
      rw [Expr.lexemes, List.forall_mem_singleton]
      exact names name nests
  | .format entries _ =>
      simp only [Expr.lexemes, List.forall_mem_cons, List.forall_mem_append]
      exact ⟨rfl, entries.sound_lexemes nests.2.2 names, rfl, by simp⟩
  | .arrayOf element _ =>
      rw [Expr.lexemes, List.forall_mem_cons]
      exact ⟨Lexeme.sound_keyword .arrayOf, element.sound_lexemes nests names⟩
  | .url literal _ =>
      simp only [Expr.lexemes, List.forall_mem_cons]
      exact ⟨Lexeme.sound_keyword .url, trivial, by simp⟩

theorem Value.sound_lexemes (value : Value Origin) (nests : value.Nests known)
    (names : ∀ name ∈ known, IsName name) : ∀ lexeme ∈ value.lexemes, lexeme.Sound := by
  match value with
  | .expr inner => exact inner.sound_lexemes nests names
  | .text content =>
      rw [Value.lexemes, List.forall_mem_singleton]
      trivial

theorem Format.sound_lexemes (format : Format Origin) (nests : format.Nests known)
    (names : ∀ name ∈ known, IsName name) : ∀ lexeme ∈ format.lexemes, lexeme.Sound := by
  match format with
  | .empty => simp [Format.lexemes]
  | .entry key value rest =>
      simp only [Format.lexemes, List.forall_mem_cons, List.forall_mem_append]
      refine ⟨trivial, rfl, value.sound_lexemes nests.1 names, ?_⟩
      split
      · simp
      · rw [List.forall_mem_cons]
        exact ⟨rfl, rest.sound_lexemes nests.2 names⟩

end

theorem Expr.Stands.sound_lexemes {expr : Expr Origin} (stands : expr.Stands known)
    (names : ∀ name ∈ known, IsName name) : ∀ lexeme ∈ expr.lexemes, lexeme.Sound := by
  match expr with
  | .definition name value _ =>
      simp only [Expr.lexemes, List.forall_mem_cons]
      exact ⟨Lexeme.sound_keyword .define, stands.1, value.sound_lexemes stands.2.nests names⟩
  | .route path value _ =>
      simp only [Expr.lexemes, List.forall_mem_cons]
      exact ⟨Lexeme.sound_keyword .route, trivial, value.sound_lexemes stands.nests names⟩
  | .response path status value _ =>
      obtain ⟨lower, upper, bindable⟩ := stands
      simp only [Expr.lexemes, List.forall_mem_cons]
      exact ⟨Lexeme.sound_keyword .response, trivial,
        (isStatus_iff.mpr ⟨lower, upper, rfl⟩).isName, value.sound_lexemes bindable.nests names⟩

theorem Expr.Stands.isName_of_mem_defined {expr : Expr Origin} (stands : expr.Stands known)
    {name : String} (member : name ∈ expr.defined) : IsName name := by
  cases expr with
  | definition defined value origin =>
      rw [Expr.defined, List.mem_singleton] at member
      exact member ▸ stands.1
  | route | response | reference | format | arrayOf | url => simp [Expr.defined] at member

theorem WellFormed.sound_lexemes {program : List (Expr Origin)}
    (wellFormed : WellFormed known program) (names : ∀ name ∈ known, IsName name) :
    ∀ lexeme ∈ (program.map Expr.lexemes).flatten, lexeme.Sound := by
  induction program generalizing known with
  | nil => simp
  | cons expr program ih =>
      obtain ⟨stands, later⟩ := wellFormed
      rw [List.map_cons, List.flatten_cons, List.forall_mem_append]
      refine ⟨stands.sound_lexemes names, ih later ?_⟩
      rw [List.forall_mem_append]
      exact ⟨names, fun name member => stands.isName_of_mem_defined member⟩

end Sound

theorem Expr.lexemes_ne_nil (expr : Expr Origin) : expr.lexemes ≠ [] := by
  cases expr <;> exact List.cons_ne_nil _ _

theorem tokenize_programText {program : List (Expr Origin)} (wellFormed : WellFormed [] program) :
    ∃ tokens, tokenize (programText program) = .ok tokens ∧
      tokens.map Token.lexeme = (program.map Expr.lexemes).flatten := by
  apply tokenize_linesText (wellFormed.sound_lexemes (by simp))
  intro line member
  obtain ⟨expr, _, rfl⟩ := List.mem_map.mp member
  exact expr.lexemes_ne_nil

end AeSchema
