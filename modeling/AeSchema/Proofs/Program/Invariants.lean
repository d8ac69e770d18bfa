import AeSchema.Proofs.Program.Completeness
import AeSchema.Proofs.Program.Resolution

/-! Invariants of the programs that the parser gives: which expressions stand where, how deep they
lie, and that every reference leads to one tree without references. -/

namespace AeSchema

variable {Origin : Type}

def Expr.ReferenceFree (expr : Expr Origin) : Prop :=
  expr.kind ≠ .reference ∧ ∀ inner, expr.Contains (.expr inner) → inner.kind ≠ .reference

structure Sound (program : List (Expr Origin)) : Prop where
  topLevel : ∀ expr ∈ program,
    expr.kind = .definition ∨ expr.kind = .route ∨ expr.kind = .response
  /-- Bound values are among those that an expression contains. -/
  nested : ∀ expr ∈ program, ∀ inner, expr.Contains (.expr inner) →
    inner.kind = .reference ∨ inner.kind = .format ∨ inner.kind = .arrayOf ∨ inner.kind = .url
  status : ∀ path status value origin, .response path status value origin ∈ program →
    100 ≤ status ∧ status ≤ 999
  entries : ∀ expr ∈ program, ∀ entries origin,
    expr.Contains (.expr (.format entries origin)) → entries ≠ .empty ∧ entries.keys.Nodup
  shallow : ∀ expr ∈ program, ∀ value, expr.Holds (.expr value) → value.height ≤ nestingLimit
  references : ∀ before expr after, program = before ++ expr :: after → ∀ name origin,
    expr.Contains (.expr (.reference name origin)) →
      ∃ value place, .definition name value place ∈ before
  resolution : ∀ before expr after, program = before ++ expr :: after →
    ∃ tree, expr.Resolves before tree ∧ tree.ReferenceFree ∧
      ∀ other, expr.Resolves before other → other = tree

section

variable {known : List String} {program : List (Expr Origin)} {expr inner : Expr Origin}

theorem Expr.Holds.nests (holds : expr.Holds (.expr inner)) (nests : expr.Nests known) :
    inner.Nests known := by
  generalize wrapped : Value.expr inner = value at holds
  cases holds with
  | definition | route | response => exact nests.elim
  | entry member =>
      have inside := Format.nests_iff.mp nests.2.2 _ member
      rw [← wrapped] at inside
      exact inside
  | element =>
      rw [Expr.Nests, ← wrapped] at nests
      exact nests

theorem Expr.Contains.nests (held : ∀ value, expr.Holds (.expr value) → value.Nests known)
    (contains : expr.Contains (.expr inner)) : inner.Nests known := by
  cases contains with
  | held holds => exact held inner holds
  | deeper holds contains =>
      exact contains.of_holds (fun _ _ outer holds => holds.nests outer) (held _ holds)

theorem Expr.Nests.kind (nests : expr.Nests known) :
    expr.kind = .reference ∨ expr.kind = .format ∨ expr.kind = .arrayOf ∨ expr.kind = .url := by
  cases expr with
  | definition | route | response => exact nests.elim
  | reference | format | arrayOf | url => simp [Expr.kind]

theorem Expr.Nests.kind_ne_reference (nests : expr.Nests []) : expr.kind ≠ .reference := by
  cases expr with
  | reference name => exact absurd nests (List.not_mem_nil)
  | definition | route | response | format | arrayOf | url => simp [Expr.kind]

theorem Expr.TopLevel.nests (topLevel : expr.TopLevel known)
    (contains : expr.Contains (.expr inner)) : inner.Nests known :=
  contains.nests fun value holds => (topLevel.bindable value holds).nests

theorem referenceFree_of_holds (kind : expr.kind ≠ .reference)
    (held : ∀ value, expr.Holds (.expr value) → value.Nests []) : expr.ReferenceFree :=
  ⟨kind, fun _ contains => (contains.nests held).kind_ne_reference⟩

theorem mem_definedNames {name : String} :
    name ∈ definedNames program ↔ ∃ value origin, .definition name value origin ∈ program := by
  rw [definedNames, List.mem_flatMap]
  constructor
  · rintro ⟨expr, member, defined⟩
    cases expr with
    | definition own value origin =>
        rw [Expr.defined, List.mem_singleton] at defined
        exact ⟨value, origin, defined ▸ member⟩
    | route | response | reference | format | arrayOf | url => simp [Expr.defined] at defined
  · rintro ⟨value, origin, member⟩
    exact ⟨_, member, by simp [Expr.defined]⟩

theorem Expr.TopLevel.resolution {before : List (Expr Origin)}
    (topLevel : expr.TopLevel known) (names : NamesSettle before known) :
    ∃ tree, expr.Resolves before tree ∧ tree.ReferenceFree ∧
      ∀ other, expr.Resolves before other → other = tree := by
  cases expr with
  | definition name value origin =>
      have nests := (topLevel.bindable value .definition).nests
      obtain ⟨tree, settles⟩ := value.exists_settles names nests
      refine ⟨.definition name tree origin, .definition settles.resolves,
        referenceFree_of_holds (by simp [Expr.kind]) ?_, ?_⟩
      · rintro _ ⟨⟩
        exact settles.closed
      · rintro _ ⟨other⟩
        rw [settles.unique _ other]
  | route path value origin =>
      have nests := (topLevel.bindable value .route).nests
      obtain ⟨tree, settles⟩ := value.exists_settles names nests
      refine ⟨.route path tree origin, .route settles.resolves,
        referenceFree_of_holds (by simp [Expr.kind]) ?_, ?_⟩
      · rintro _ ⟨⟩
        exact settles.closed
      · rintro _ (_ | other)
        rw [settles.unique _ other]
  | response path status value origin =>
      have nests := (topLevel.bindable value .response).nests
      obtain ⟨tree, settles⟩ := value.exists_settles names nests
      refine ⟨.response path status tree origin, .response settles.resolves,
        referenceFree_of_holds (by simp [Expr.kind]) ?_, ?_⟩
      · rintro _ ⟨⟩
        exact settles.closed
      · rintro _ (_ | _ | other)
        rw [settles.unique _ other]
  | reference | format | arrayOf | url =>
      have kind := topLevel.kind
      simp [Expr.kind] at kind

theorem Grounded.sound (grounded : Grounded program) : Sound program := by
  have each {expr} (member : expr ∈ program) : ∃ known, expr.TopLevel known := by
    obtain ⟨before, after, split⟩ := List.append_of_mem member
    exact ⟨_, grounded before expr after split⟩
  constructor
  · intro expr member
    obtain ⟨known, topLevel⟩ := each member
    exact topLevel.kind
  · intro expr member inner contains
    obtain ⟨known, topLevel⟩ := each member
    exact (topLevel.nests contains).kind
  · intro path status value origin member
    obtain ⟨known, topLevel⟩ := each member
    exact topLevel.status path status value origin rfl
  · intro expr member entries origin contains
    obtain ⟨known, topLevel⟩ := each member
    obtain ⟨nonempty, distinct, _⟩ := topLevel.nests contains
    exact ⟨nonempty, distinct⟩
  · intro expr member value holds
    obtain ⟨known, topLevel⟩ := each member
    exact (topLevel.bindable value holds).shallow
  · intro before expr after split name origin contains
    have known := (grounded before expr after split).nests contains
    exact mem_definedNames.mp known
  · intro before expr after split
    exact (grounded before expr after split).resolution (grounded.front split).namesSettle

end

theorem DerivesTop.topLevel {known : List String} {expr : Expr Token} {tokens : List Token}
    (derives : DerivesTop (some nestingLimit) known expr tokens) : expr.TopLevel known := by
  cases derives with
  | definition _ _ value | route _ _ value =>
      refine ⟨by simp [Expr.kind], by simp, ?_⟩
      rintro _ ⟨⟩
      exact value.bindable
  | response _ _ _ isStatus value =>
      obtain ⟨lower, upper, _⟩ := isStatus_iff.mp isStatus
      refine ⟨by simp [Expr.kind], ?_, ?_⟩
      · rintro _ _ _ _ ⟨⟩
        exact ⟨lower, upper⟩
      · rintro _ ⟨⟩
        exact value.bindable

theorem DerivesProgram.topLevel {known : List String} {before after program : List (Expr Token)}
    {expr : Expr Token} {tokens : List Token}
    (derives : DerivesProgram (some nestingLimit) known program tokens)
    (split : program = before ++ expr :: after) :
    expr.TopLevel (known ++ definedNames before) := by
  induction derives generalizing before with
  | nil => simp at split
  | cons top _ ih =>
      cases before with
      | nil =>
          simp only [List.nil_append, List.cons.injEq] at split
          rw [← split.1]
          simpa [definedNames] using top.topLevel
      | cons first before =>
          simp only [List.cons_append, List.cons.injEq] at split
          have later := ih split.2
          rw [split.1, List.append_assoc] at later
          exact later

/-- Whatever the tokens are, a program that the parser gives is sound. -/
theorem parse_sound {tokens : List Token} {program : List (Expr Token)}
    (parsed : parse tokens = .ok program) : Sound program := by
  have derives := parseWithin_eq_ok_iff_derives.mp parsed
  exact Grounded.sound fun before expr after split => derives.topLevel split

/-- A key that is given twice, a name that is defined again by what it stood for, and a reference
to it inside an object. -/
theorem parse_sound_sample :
    let token (kind : TokenKind) (value : String) : Token := ⟨value, kind, ⟨1, 1⟩, ⟨0, 0⟩⟩
    let define := token .keyword "def"
    let name := token .identifier "A"
    let opening := token .curlyOpen "\x7b"
    let closing := token .curlyClose "\x7d"
    let colon := token .colon ":"
    let key := token .string "k"
    let array := token .keyword "ArrayOf"
    let response := token .keyword "response"
    let tokens := [define, name, opening, key, colon, key, token .comma ",", key, colon,
      token .keyword "Url", key, closing, define, name, array, name, response, key,
      token .identifier "404", opening, key, colon, name, closing]
    let program : List (Expr Token) :=
      [.definition "A"
          (.format (.entry "k" (.expr (.url "k" (token .keyword "Url"))) .empty) opening) define,
        .definition "A" (.arrayOf (.expr (.reference "A" name)) array) define,
        .response "k" 404 (.format (.entry "k" (.expr (.reference "A" name)) .empty) opening)
          response]
    parse tokens = .ok program ∧ Sound program := by
  intro token define name opening closing colon key array response tokens program
  have parsed : parse tokens = .ok program := by decide +kernel
  exact ⟨parsed, parse_sound parsed⟩

end AeSchema
