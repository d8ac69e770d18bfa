import AeSchema.Expr.Format
import AeSchema.Expr.Json
import AeSchema.Expr.Outline

/-! Trees without their origins: neither JSON nor outlines tell one origin from another. -/

namespace AeSchema

variable {Origin Other : Type}

def Value.erase (value : Value Origin) : Value Unit :=
  value.map fun _ => ()

def Format.erase (format : Format Origin) : Format Unit :=
  format.map fun _ => ()

section Constructors

variable (text : String) (status : Nat) (value : Value Origin) (format : Format Origin)
  (expr : Expr Origin) (origin : Origin)

@[simp]
theorem Expr.erase_definition :
    (definition text expr origin).erase = .definition text expr.erase () := rfl

@[simp]
theorem Expr.erase_route : (route text expr origin).erase = .route text expr.erase () := rfl

@[simp]
theorem Expr.erase_response :
    (response text status expr origin).erase = .response text status expr.erase () := rfl

@[simp]
theorem Expr.erase_reference : (reference text origin).erase = .reference text () := rfl

@[simp]
theorem Expr.erase_format : (Expr.format format origin).erase = .format format.erase () := rfl

@[simp]
theorem Expr.erase_arrayOf : (arrayOf value origin).erase = .arrayOf value.erase () := rfl

@[simp]
theorem Expr.erase_url : (url text origin).erase = .url text () := rfl

@[simp]
theorem Value.erase_expr : (Value.expr expr).erase = .expr expr.erase := rfl

@[simp]
theorem Value.erase_text : (Value.text text : Value Origin).erase = .text text := rfl

@[simp]
theorem Format.erase_empty : (empty : Format Origin).erase = .empty := rfl

@[simp]
theorem Format.erase_entry :
    (entry text value format).erase = .entry text value.erase format.erase := rfl

end Constructors

theorem Format.keys_erase (format : Format Origin) : format.erase.keys = format.keys := by
  match format with
  | .empty => rfl
  | .entry key _ rest =>
      rw [erase_entry, keys_entry, keys_entry, rest.keys_erase]

section Json

variable (f : Origin → Other)

mutual

theorem Expr.toJson_map (expr : Expr Origin) : (expr.map f).toJson = expr.toJson := by
  match expr with
  | .definition _ value _ | .route _ value _ | .response _ _ value _ =>
      rw [Expr.map, Expr.toJson, Expr.toJson, value.toJson_map]
  | .format entries _ => rw [Expr.map, Expr.toJson, Expr.toJson, entries.toFields_map]
  | .arrayOf element _ => rw [Expr.map, Expr.toJson, Expr.toJson, element.toJson_map]
  | .reference .. | .url .. => rfl

theorem Value.toJson_map (value : Value Origin) : (value.map f).toJson = value.toJson := by
  match value with
  | .expr inner => exact inner.toJson_map
  | .text _ => rfl

theorem Format.toFields_map (format : Format Origin) :
    (format.map f).toFields = format.toFields := by
  match format with
  | .empty => rfl
  | .entry _ value rest =>
      rw [Format.map, Format.toFields, Format.toFields, value.toJson_map, rest.toFields_map]

end

end Json

section Outline

variable (f : Origin → Other)

mutual

theorem Expr.outline_map (expr : Expr Origin) (depth : Nat) :
    (expr.map f).outline depth = expr.outline depth := by
  match expr with
  | .definition _ value _ | .route _ value _ | .response _ _ value _ =>
      rw [Expr.map, Expr.outline, Expr.outline, value.outline_map]
  | .format entries _ => rw [Expr.map, Expr.outline, Expr.outline, entries.outline_map]
  | .arrayOf element _ => rw [Expr.map, Expr.outline, Expr.outline, element.outline_map]
  | .reference .. | .url .. => rfl

theorem Value.outline_map (value : Value Origin) (depth : Nat) :
    (value.map f).outline depth = value.outline depth := by
  match value with
  | .expr inner => exact inner.outline_map depth
  | .text _ => rfl

theorem Format.outline_map (format : Format Origin) (depth : Nat) :
    (format.map f).outline depth = format.outline depth := by
  match format with
  | .empty => rfl
  | .entry _ value rest =>
      rw [Format.map, Format.outline, Format.outline, value.outline_map, rest.outline_map]

end

end Outline

section Programs

variable {Kept : Type} {f : Origin → Kept} {g : Other → Kept} {first : List (Expr Origin)}
  {second : List (Expr Other)}

theorem programJson_map (f : Origin → Kept) (program : List (Expr Origin)) :
    programJson (program.map (Expr.map f)) = programJson program := by
  rw [programJson, programJson, List.map_map]
  congr 2
  funext expr
  exact expr.toJson_map f

theorem prettyAll_map (f : Origin → Kept) (program : List (Expr Origin)) :
    prettyAll (program.map (Expr.map f)) = prettyAll program := by
  rw [prettyAll, prettyAll, List.map_map]
  congr 2
  funext expr
  rw [Function.comp_apply, Expr.pretty, Expr.pretty, expr.outline_map]

theorem programJson_congr (same : first.map (Expr.map f) = second.map (Expr.map g)) :
    programJson first = programJson second := by
  rw [← programJson_map f first, same, programJson_map]

theorem prettyAll_congr (same : first.map (Expr.map f) = second.map (Expr.map g)) :
    prettyAll first = prettyAll second := by
  rw [← prettyAll_map f first, same, prettyAll_map]

end Programs

end AeSchema
