import AeSchema.Proofs.Expr.Contains
import AeSchema.Proofs.Program.WellFormed

/-! Resolution: putting for every reference the value that it stands for. In a program whose
references all go back to earlier definitions this comes to an end, in one tree without references.
-/

namespace AeSchema

variable {Origin : Type}

def definedNames (program : List (Expr Origin)) : List String :=
  program.flatMap Expr.defined

/-- The last of the expressions that defines the name, and those in front of it. -/
def LatestDefinition (before : List (Expr Origin)) (name : String) (earlier : List (Expr Origin))
    (value : Expr Origin) : Prop :=
  ∃ origin later, before = earlier ++ .definition name value origin :: later ∧
    name ∉ definedNames later

mutual

/-- The tree of an expression that stands behind `before`. What a reference stands for is resolved
where its definition stands, whatever is defined after that. -/
inductive Expr.Resolves : List (Expr Origin) → Expr Origin → Expr Origin → Prop
  | definition {before name value tree origin} : Expr.Resolves before value tree →
      Expr.Resolves before (.definition name value origin) (.definition name tree origin)
  | route {before path value tree origin} : Expr.Resolves before value tree →
      Expr.Resolves before (.route path value origin) (.route path tree origin)
  | response {before path status value tree origin} : Expr.Resolves before value tree →
      Expr.Resolves before (.response path status value origin) (.response path status tree origin)
  | reference {before name earlier value tree origin} :
      LatestDefinition before name earlier value → Expr.Resolves earlier value tree →
      Expr.Resolves before (.reference name origin) tree
  | format {before entries trees origin} : Format.Resolves before entries trees →
      Expr.Resolves before (.format entries origin) (.format trees origin)
  | arrayOf {before element tree origin} : Value.Resolves before element tree →
      Expr.Resolves before (.arrayOf element origin) (.arrayOf tree origin)
  | url {before literal origin} :
      Expr.Resolves before (.url literal origin) (.url literal origin)

inductive Value.Resolves : List (Expr Origin) → Value Origin → Value Origin → Prop
  | expr {before inner tree} : Expr.Resolves before inner tree →
      Value.Resolves before (.expr inner) (.expr tree)
  | text {before content} : Value.Resolves before (.text content) (.text content)

inductive Format.Resolves : List (Expr Origin) → Format Origin → Format Origin → Prop
  | empty {before} : Format.Resolves before .empty .empty
  | entry {before key value tree rest trees} : Value.Resolves before value tree →
      Format.Resolves before rest trees →
      Format.Resolves before (.entry key value rest) (.entry key tree trees)

end

section

variable {before earlier : List (Expr Origin)} {name : String} {value : Expr Origin}
  {known : List String}

theorem exists_latestDefinition (defined : name ∈ definedNames before) :
    ∃ earlier value, LatestDefinition before name earlier value := by
  induction before with
  | nil => simp [definedNames] at defined
  | cons expr rest ih =>
      by_cases again : name ∈ definedNames rest
      · obtain ⟨earlier, value, origin, later, rfl, last⟩ := ih again
        exact ⟨expr :: earlier, value, origin, later, rfl, last⟩
      · rw [definedNames, List.flatMap_cons, List.mem_append] at defined
        have here : name ∈ expr.defined := defined.resolve_right again
        cases expr with
        | definition own value origin =>
            rw [Expr.defined, List.mem_singleton] at here
            subst here
            exact ⟨[], value, origin, rest, rfl, again⟩
        | route | response | reference | format | arrayOf | url => simp [Expr.defined] at here

theorem mem_definedNames_of_split {own : String} {origin : Origin} {later : List (Expr Origin)}
    (expr : Expr Origin) :
    own ∈ definedNames (earlier ++ .definition own expr origin :: later) := by
  simp [definedNames, Expr.defined]

theorem LatestDefinition.unique {other : List (Expr Origin)} {content : Expr Origin}
    (first : LatestDefinition before name earlier value)
    (second : LatestDefinition before name other content) : other = earlier ∧ content = value := by
  obtain ⟨origin, later, rfl, last⟩ := first
  obtain ⟨place, behind, same, lastBehind⟩ := second
  rcases List.append_eq_append_iff.mp same with ⟨between, front, rest⟩ | ⟨between, front, rest⟩
  · cases between with
    | nil => simp_all
    | cons expr between =>
        simp only [List.cons_append, List.cons.injEq] at rest
        rw [rest.2] at last
        exact absurd (mem_definedNames_of_split content) last
  · cases between with
    | nil => simp_all
    | cons expr between =>
        simp only [List.cons_append, List.cons.injEq] at rest
        rw [rest.2] at lastBehind
        exact absurd (mem_definedNames_of_split value) lastBehind

end

structure Expr.Settles (before : List (Expr Origin)) (expr tree : Expr Origin) : Prop where
  resolves : expr.Resolves before tree
  closed : tree.Nests []
  unique : ∀ other, expr.Resolves before other → other = tree

structure Value.Settles (before : List (Expr Origin)) (value tree : Value Origin) : Prop where
  resolves : value.Resolves before tree
  closed : tree.Nests []
  unique : ∀ other, value.Resolves before other → other = tree

structure Format.Settles (before : List (Expr Origin)) (format trees : Format Origin) : Prop where
  resolves : format.Resolves before trees
  closed : trees.Nests []
  keys : trees.keys = format.keys
  unique : ∀ others, format.Resolves before others → others = trees

def NamesSettle (before : List (Expr Origin)) (known : List String) : Prop :=
  ∀ name ∈ known, ∀ origin, ∃ tree, (Expr.reference name origin).Settles before tree

theorem Format.ne_empty_iff {format : Format Origin} : format ≠ .empty ↔ format.keys ≠ [] := by
  cases format <;> simp

section

variable {before : List (Expr Origin)} {known : List String}

mutual

theorem Expr.exists_settles (expr : Expr Origin) (names : NamesSettle before known)
    (nests : expr.Nests known) :
    ∃ tree, expr.Settles before tree := by
  match expr with
  | .reference name origin => exact names name nests origin
  | .url literal origin =>
      refine ⟨.url literal origin, .url, trivial, ?_⟩
      rintro _ ⟨⟩
      rfl
  | .arrayOf element origin =>
      obtain ⟨tree, settles⟩ := element.exists_settles names nests
      refine ⟨.arrayOf tree origin, .arrayOf settles.resolves, settles.closed, ?_⟩
      rintro _ (_ | _ | _ | _ | _ | other)
      rw [settles.unique _ other]
  | .format entries origin =>
      obtain ⟨nonempty, distinct, inside⟩ := nests
      obtain ⟨trees, settles⟩ := entries.exists_settles names inside
      rw [Format.ne_empty_iff, ← settles.keys] at nonempty
      rw [← settles.keys] at distinct
      refine ⟨.format trees origin, .format settles.resolves,
        ⟨Format.ne_empty_iff.mpr nonempty, distinct, settles.closed⟩, ?_⟩
      rintro _ (_ | _ | _ | _ | others)
      rw [settles.unique _ others]

theorem Value.exists_settles (value : Value Origin) (names : NamesSettle before known)
    (nests : value.Nests known) :
    ∃ tree, value.Settles before tree := by
  match value with
  | .expr inner =>
      obtain ⟨tree, settles⟩ := inner.exists_settles names nests
      refine ⟨.expr tree, .expr settles.resolves, settles.closed, ?_⟩
      rintro _ (other | _)
      rw [settles.unique _ other]
  | .text content =>
      refine ⟨.text content, .text, trivial, ?_⟩
      rintro _ ⟨⟩
      rfl

theorem Format.exists_settles (format : Format Origin) (names : NamesSettle before known)
    (nests : format.Nests known) :
    ∃ trees, format.Settles before trees := by
  match format with
  | .empty =>
      refine ⟨.empty, .empty, trivial, rfl, ?_⟩
      rintro _ ⟨⟩
      rfl
  | .entry key value rest =>
      obtain ⟨tree, settles⟩ := value.exists_settles names nests.1
      obtain ⟨trees, settlesRest⟩ := rest.exists_settles names nests.2
      refine ⟨.entry key tree trees, .entry settles.resolves settlesRest.resolves,
        ⟨settles.closed, settlesRest.closed⟩, ?_, ?_⟩
      · rw [Format.keys_entry, Format.keys_entry, settlesRest.keys]
      · rintro _ (_ | ⟨other, others⟩)
        rw [settles.unique _ other, settlesRest.unique _ others]

end

structure Expr.TopLevel (known : List String) (expr : Expr Origin) : Prop where
  kind : expr.kind = .definition ∨ expr.kind = .route ∨ expr.kind = .response
  status : ∀ path status value origin, expr = .response path status value origin →
    100 ≤ status ∧ status ≤ 999
  bindable : ∀ value, expr.Holds (.expr value) → value.Bindable known

def Grounded (program : List (Expr Origin)) : Prop :=
  ∀ before expr after, program = before ++ expr :: after → expr.TopLevel (definedNames before)

theorem Grounded.front {program : List (Expr Origin)} (grounded : Grounded program)
    {earlier later : List (Expr Origin)} (split : program = earlier ++ later) :
    Grounded earlier := by
  rintro before expr after rfl
  exact grounded before expr (after ++ later) (by simp [split])

theorem Grounded.namesSettle (grounded : Grounded before) :
    NamesSettle before (definedNames before) := by
  -- On what stands in front: a reference leads to a definition there, and what that refers to
  -- stands further in front.
  induction size : before.length using Nat.strongRecOn generalizing before with
  | ind size ih =>
      intro name defined origin
      obtain ⟨earlier, value, latest⟩ := exists_latestDefinition defined
      obtain ⟨place, later, split, _⟩ := id latest
      have names : NamesSettle earlier (definedNames earlier) := by
        apply ih earlier.length _ (grounded.front split) rfl
        rw [← size, split, List.length_append, List.length_cons]
        omega
      have bindable := (grounded earlier _ later split).bindable value .definition
      obtain ⟨tree, settles⟩ := value.exists_settles names bindable.nests
      refine ⟨tree, .reference latest settles.resolves, settles.closed, ?_⟩
      rintro other (_ | _ | _ | ⟨again, resolves⟩)
      obtain ⟨rfl, rfl⟩ := latest.unique again
      exact settles.unique other resolves

end

end AeSchema
