import AeSchema.Expr.Basic
import AeSchema.Text.Json

/-! Trees as JSON. An expression is an object that starts with its kind, a bare string is a JSON
string, and a format is an object with the keys in their order. Origins are left out. -/

namespace AeSchema

open Text

variable {Origin : Type}

def ExprKind.tagged (kind : ExprKind) (fields : List (String × Json)) : Json :=
  .object (("kind", .string kind.label) :: fields)

mutual

def Expr.toJson : Expr Origin → Json
  | .definition name value _ =>
      ExprKind.definition.tagged [("name", .string name), ("value", value.toJson)]
  | .route path value _ => ExprKind.route.tagged [("path", .string path), ("value", value.toJson)]
  | .response path status value _ =>
      ExprKind.response.tagged
        [("path", .string path), ("status", .number status), ("value", value.toJson)]
  | .reference name _ => ExprKind.reference.tagged [("name", .string name)]
  | .format entries _ => ExprKind.format.tagged [("entries", .object entries.toFields)]
  | .arrayOf element _ => ExprKind.arrayOf.tagged [("element", element.toJson)]
  | .url literal _ => ExprKind.url.tagged [("literal", .string literal)]

def Value.toJson : Value Origin → Json
  | .expr expr => expr.toJson
  | .text text => .string text

def Format.toFields : Format Origin → List (String × Json)
  | .empty => []
  | .entry key value rest => (key, value.toJson) :: rest.toFields

end

def Format.toJson (format : Format Origin) : Json :=
  .object format.toFields

def programJson (program : List (Expr Origin)) : Json :=
  .array (program.map Expr.toJson)

end AeSchema
