import AeSchema.Proofs.Expr.Erase
import AeSchema.Proofs.Text.Json

/-! The JSON of a program is lossless: only what origins tell is missing. -/

namespace AeSchema

open Text

variable {Origin Other : Type}

theorem ExprKind.label_injective : Function.Injective label := by
  intro first second same
  cases first <;> cases second <;> first | rfl | exact absurd same (by decide)

/-- The kind comes before all fields, so no other field is taken for it. -/
theorem Expr.exists_toJson_eq_tagged (expr : Expr Origin) :
    ∃ fields, expr.toJson = expr.kind.tagged fields := by
  cases expr <;> exact ⟨_, rfl⟩

theorem Expr.kind_eq_of_toJson_eq {first : Expr Origin} {second : Expr Other}
    (same : first.toJson = second.toJson) : first.kind = second.kind := by
  obtain ⟨fields, tagged⟩ := first.exists_toJson_eq_tagged
  obtain ⟨others, otherTagged⟩ := second.exists_toJson_eq_tagged
  rw [tagged, otherTagged] at same
  simp only [ExprKind.tagged, Json.object.injEq, List.cons.injEq, Prod.mk.injEq,
    Json.string.injEq, true_and] at same
  exact ExprKind.label_injective same.1

theorem Expr.toJson_ne_string (expr : Expr Origin) (text : String) :
    expr.toJson ≠ .string text := by
  obtain ⟨fields, tagged⟩ := expr.exists_toJson_eq_tagged
  rw [tagged, ExprKind.tagged]
  exact nofun

mutual

theorem Expr.erase_eq_of_toJson_eq (first : Expr Origin) (second : Expr Other)
    (same : first.toJson = second.toJson) : first.erase = second.erase := by
  match first, second, Expr.kind_eq_of_toJson_eq same with
  | .definition name value _, .definition other target _, _ =>
      obtain ⟨rfl, values⟩ : name = other ∧ value.toJson = target.toJson := by
        simpa [Expr.toJson, ExprKind.tagged] using same
      simp [value.erase_eq_of_toJson_eq target values]
  | .route path value _, .route other target _, _ =>
      obtain ⟨rfl, values⟩ : path = other ∧ value.toJson = target.toJson := by
        simpa [Expr.toJson, ExprKind.tagged] using same
      simp [value.erase_eq_of_toJson_eq target values]
  | .response path status value _, .response other number target _, _ =>
      obtain ⟨rfl, rfl, values⟩ :
          path = other ∧ status = number ∧ value.toJson = target.toJson := by
        simpa [Expr.toJson, ExprKind.tagged] using same
      simp [value.erase_eq_of_toJson_eq target values]
  | .reference name _, .reference other _, _ =>
      obtain rfl : name = other := by simpa [Expr.toJson, ExprKind.tagged] using same
      rfl
  | .format entries _, .format others _, _ =>
      have fields : entries.toFields = others.toFields := by
        simpa [Expr.toJson, ExprKind.tagged] using same
      simp [entries.erase_eq_of_toFields_eq others fields]
  | .arrayOf element _, .arrayOf other _, _ =>
      have elements : element.toJson = other.toJson := by
        simpa [Expr.toJson, ExprKind.tagged] using same
      simp [element.erase_eq_of_toJson_eq other elements]
  | .url literal _, .url other _, _ =>
      obtain rfl : literal = other := by simpa [Expr.toJson, ExprKind.tagged] using same
      rfl

theorem Value.erase_eq_of_toJson_eq (first : Value Origin) (second : Value Other)
    (same : first.toJson = second.toJson) : first.erase = second.erase := by
  match first, second with
  | .expr inner, .expr other =>
      simp [inner.erase_eq_of_toJson_eq other same]
  | .expr inner, .text content => exact absurd same (inner.toJson_ne_string content)
  | .text content, .expr inner => exact absurd same.symm (inner.toJson_ne_string content)
  | .text content, .text other => exact congrArg Value.text (Json.string.inj same)

theorem Format.erase_eq_of_toFields_eq (first : Format Origin) (second : Format Other)
    (same : first.toFields = second.toFields) : first.erase = second.erase := by
  match first, second with
  | .empty, .empty => rfl
  | .empty, .entry .. | .entry .., .empty => cases same
  | .entry key value rest, .entry other target others =>
      obtain ⟨⟨rfl, values⟩, fields⟩ :
          (key = other ∧ value.toJson = target.toJson) ∧ rest.toFields = others.toFields := by
        simpa [Format.toFields] using same
      simp [value.erase_eq_of_toJson_eq target values, rest.erase_eq_of_toFields_eq others fields]

end

theorem erase_eq_of_toJson_eq {first : List (Expr Origin)} {second : List (Expr Other)}
    (same : first.map Expr.toJson = second.map Expr.toJson) :
    first.map Expr.erase = second.map Expr.erase := by
  induction first generalizing second with
  | nil =>
      cases second with
      | nil => rfl
      | cons => cases same
  | cons expr first ih =>
      cases second with
      | nil => cases same
      | cons other second =>
          obtain ⟨trees, rest⟩ := List.cons.inj same
          exact congrArg₂ List.cons (expr.erase_eq_of_toJson_eq other trees) (ih rest)

/-- Programs read alike as JSON just when they are the same trees, wherever these come from. -/
theorem compact_programJson_eq_iff (first : List (Expr Origin)) (second : List (Expr Other)) :
    (programJson first).compact = (programJson second).compact ↔
      first.map Expr.erase = second.map Expr.erase := by
  constructor
  · intro same
    have arrays := Json.compact_injective same
    rw [programJson, programJson, Json.array.injEq] at arrays
    exact erase_eq_of_toJson_eq arrays
  · intro same
    rw [programJson_congr same]

/-- A format with the keys that a URL has as its fields is not taken for one. -/
example :
    let entries : Format Unit := .entry "kind" (.text "URL") (.entry "literal" (.text "x") .empty)
    (programJson [.format entries ()]).compact ≠ (programJson [Expr.url "x" ()]).compact := by
  cbv

end AeSchema
