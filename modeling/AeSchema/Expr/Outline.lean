import AeSchema.Expr.Basic
import AeSchema.Text.Quoted

/-! Trees as indented outlines, one line for each expression, bare string and format key. -/

namespace AeSchema

open Text

inductive OutlineItem where
  | definition (name : String)
  | route (path : String)
  | response (path : String) (status : Nat)
  | reference (name : String)
  | format
  | key (name : String)
  | arrayOf
  | url (literal : String)
  | text (content : String)
  deriving DecidableEq, Repr

def OutlineItem.display : OutlineItem → String
  | definition name => "DEF " ++ name
  | route path => "ROUTE " ++ quoted path
  | response path status => "RESPONSE " ++ quoted path ++ " " ++ Nat.repr status
  | reference name => "LOAD_DEF " ++ name
  | format => "FORMAT"
  | key name => quoted name ++ ":"
  | arrayOf => "ARRAY_OF"
  | url literal => "URL " ++ quoted literal
  | text content => quoted content

structure OutlineLine where
  depth : Nat
  item : OutlineItem
  deriving DecidableEq, Repr

def OutlineLine.display (line : OutlineLine) : String :=
  String.ofList (List.replicate (2 * line.depth) ' ') ++ line.item.display ++ "\n"

variable {Origin : Type}

mutual

/-- The outline below `depth`; a key stands one level below its format and its value two. -/
def Expr.outline (depth : Nat) : Expr Origin → List OutlineLine
  | .definition name value _ => ⟨depth, .definition name⟩ :: value.outline (depth + 1)
  | .route path value _ => ⟨depth, .route path⟩ :: value.outline (depth + 1)
  | .response path status value _ =>
      ⟨depth, .response path status⟩ :: value.outline (depth + 1)
  | .reference name _ => [⟨depth, .reference name⟩]
  | .format entries _ => ⟨depth, .format⟩ :: entries.outline (depth + 1)
  | .arrayOf element _ => ⟨depth, .arrayOf⟩ :: element.outline (depth + 1)
  | .url literal _ => [⟨depth, .url literal⟩]

def Value.outline (depth : Nat) : Value Origin → List OutlineLine
  | .expr expr => expr.outline depth
  | .text text => [⟨depth, .text text⟩]

def Format.outline (depth : Nat) : Format Origin → List OutlineLine
  | .empty => []
  | .entry key value rest =>
      ⟨depth, .key key⟩ :: (value.outline (depth + 1) ++ rest.outline depth)

end

def Expr.pretty (expr : Expr Origin) : String :=
  String.join ((expr.outline 0).map OutlineLine.display)

def prettyAll (program : List (Expr Origin)) : String :=
  String.join (program.map Expr.pretty)

end AeSchema
