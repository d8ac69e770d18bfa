/-! The tree of a schema. `Origin` is what every expression keeps of the text it was read from. -/

namespace AeSchema

mutual

inductive Expr (Origin : Type) where
  | definition (name : String) (value : Expr Origin) (origin : Origin)
  | route (path : String) (value : Expr Origin) (origin : Origin)
  | response (path : String) (status : Nat) (value : Expr Origin) (origin : Origin)
  /-- The value of an earlier definition. -/
  | reference (name : String) (origin : Origin)
  | format (entries : Format Origin) (origin : Origin)
  | arrayOf (element : Value Origin) (origin : Origin)
  /-- Any text may stand as the literal of a URL. -/
  | url (literal : String) (origin : Origin)
  deriving DecidableEq

inductive Value (Origin : Type) where
  | expr (inner : Expr Origin)
  | text (content : String)
  deriving DecidableEq

inductive Format (Origin : Type) where
  | empty
  | entry (key : String) (value : Value Origin) (rest : Format Origin)
  deriving DecidableEq

end

inductive ExprKind where
  | definition
  | route
  | response
  | reference
  | format
  | arrayOf
  | url
  deriving DecidableEq, Repr

def ExprKind.label : ExprKind → String
  | definition => "DEF"
  | route => "ROUTE"
  | response => "RESPONSE"
  | reference => "LOAD_DEF"
  | format => "FORMAT"
  | arrayOf => "ARRAY_OF"
  | url => "URL"

variable {Origin Other : Type}

namespace Expr

def kind : Expr Origin → ExprKind
  | definition .. => .definition
  | route .. => .route
  | response .. => .response
  | reference .. => .reference
  | format .. => .format
  | arrayOf .. => .arrayOf
  | url .. => .url

def origin : Expr Origin → Origin
  | definition _ _ origin | route _ _ origin | response _ _ _ origin | reference _ origin
  | format _ origin | arrayOf _ origin | url _ origin => origin

end Expr

mutual

def Expr.map (f : Origin → Other) : Expr Origin → Expr Other
  | .definition name value origin => .definition name (value.map f) (f origin)
  | .route path value origin => .route path (value.map f) (f origin)
  | .response path status value origin => .response path status (value.map f) (f origin)
  | .reference name origin => .reference name (f origin)
  | .format entries origin => .format (entries.map f) (f origin)
  | .arrayOf element origin => .arrayOf (element.map f) (f origin)
  | .url literal origin => .url literal (f origin)

def Value.map (f : Origin → Other) : Value Origin → Value Other
  | .expr expr => .expr (expr.map f)
  | .text text => .text text

def Format.map (f : Origin → Other) : Format Origin → Format Other
  | .empty => .empty
  | .entry key value rest => .entry key (value.map f) (rest.map f)

end

/-- The tree without its origins: what a schema says, wherever it was written. -/
def Expr.erase (expr : Expr Origin) : Expr Unit :=
  expr.map fun _ => ()

end AeSchema
