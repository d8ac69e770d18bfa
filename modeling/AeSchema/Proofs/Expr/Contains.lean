import AeSchema.Expr.Format

/-! What an expression contains: its own values, and theirs in turn. -/

namespace AeSchema

variable {Origin : Type}

namespace Expr

inductive Holds : Expr Origin → Value Origin → Prop
  | definition {name value origin} : Holds (.definition name value origin) (.expr value)
  | route {path value origin} : Holds (.route path value origin) (.expr value)
  | response {path status value origin} : Holds (.response path status value origin) (.expr value)
  | entry {key value entries origin} : (key, value) ∈ entries.toList →
      Holds (.format entries origin) value
  | element {element origin} : Holds (.arrayOf element origin) element

inductive Contains : Expr Origin → Value Origin → Prop
  | held {expr value} : Holds expr value → Contains expr value
  | deeper {expr inner value} : Holds expr (.expr inner) → Contains inner value →
      Contains expr value

theorem Contains.of_holds {property : Expr Origin → Prop} {expr inner : Expr Origin}
    (step : ∀ outer inner, property outer → Holds outer (.expr inner) → property inner)
    (outer : property expr) (contains : Contains expr (.expr inner)) : property inner := by
  generalize wrapped : Value.expr inner = value at contains
  induction contains with
  | held holds =>
      subst wrapped
      exact step _ _ outer holds
  | deeper holds _ ih => exact ih (step _ _ outer holds) wrapped

end Expr

def Value.Every (property : Expr Origin → Prop) (value : Value Origin) : Prop :=
  ∀ expr, value = .expr expr →
    property expr ∧ ∀ inner, expr.Contains (.expr inner) → property inner

theorem Value.every_text (property : Expr Origin → Prop) (content : String) :
    (Value.text content).Every property := by
  rintro expr ⟨⟩

theorem Value.every_expr {property : Expr Origin → Prop} {expr : Expr Origin}
    (own : property expr) (held : ∀ value, expr.Holds value → value.Every property) :
    (Value.expr expr).Every property := by
  rintro _ ⟨⟩
  refine ⟨own, fun inner contains => ?_⟩
  cases contains with
  | held holds => exact (held _ holds inner rfl).1
  | deeper holds contains => exact (held _ holds _ rfl).2 inner contains

theorem Value.Every.imp {property weaker : Expr Origin → Prop} {value : Value Origin}
    (every : value.Every property) (imp : ∀ expr, property expr → weaker expr) :
    value.Every weaker := by
  intro expr same
  obtain ⟨own, inside⟩ := every expr same
  exact ⟨imp expr own, fun inner contains => imp inner (inside inner contains)⟩

end AeSchema
