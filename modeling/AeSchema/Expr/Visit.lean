import AeSchema.Expr.Basic

/-! Trees as lists of visits, a parent before its children and siblings in their order. -/

namespace AeSchema

/-- A stop on a walk through a tree: how deep it is, and the format key that leads there, if any. -/
structure Visit (Origin : Type) where
  depth : Nat
  key? : Option String
  value : Value Origin

variable {Origin : Type}

mutual

def Expr.visits (depth : Nat) (key? : Option String) (expr : Expr Origin) :
    List (Visit Origin) :=
  ⟨depth, key?, .expr expr⟩ ::
    match expr with
    | .definition _ value _ | .route _ value _ | .response _ _ value _ =>
        value.visits (depth + 1) none
    | .format entries _ => entries.visits (depth + 1)
    | .arrayOf element _ => element.visits (depth + 1) none
    | .reference .. | .url .. => []

def Value.visits (depth : Nat) (key? : Option String) : Value Origin → List (Visit Origin)
  | .expr expr => expr.visits depth key?
  | .text text => [⟨depth, key?, .text text⟩]

def Format.visits (depth : Nat) : Format Origin → List (Visit Origin)
  | .empty => []
  | .entry key value rest => value.visits depth (some key) ++ rest.visits depth

end

def programVisits (program : List (Expr Origin)) : List (Visit Origin) :=
  program.flatMap (Expr.visits 0 none)

end AeSchema
