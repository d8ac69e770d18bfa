import AeSchema.Token.Basic

/-! What can be wrong with a sequence of tokens, and how it is put into words. -/

namespace AeSchema

inductive Binder where
  | definition
  | route
  | response
  deriving DecidableEq, Repr

def Binder.name : Binder → String
  | definition => "definition"
  | route => "route"
  | response => "response"

inductive ParseFault where
  | endOfInput
  | unexpected (wanted got : TokenKind)
  | noKeyword (got : TokenKind)
  | notTopLevel (keyword : Keyword)
  | badStatus
  | bareString (binder : Binder)
  | tooDeep (limit : Nat)
  | noValue (got : TokenKind)
  | notNested (keyword : Keyword)
  | unknownKeyword (word : String)
  | noSeparator (got : TokenKind)
  | unknownName (name : String)
  deriving DecidableEq, Repr

namespace ParseFault

def unknownNameMessage (name : String) : String :=
  "unknown name `" ++ name ++ "`"

def message : ParseFault → String
  | endOfInput => "unexpected EOF"
  | unexpected wanted got => "expected " ++ wanted.name ++ ", got " ++ got.name
  | noKeyword got => "expected keyword, got " ++ got.name
  | notTopLevel keyword => "keyword `" ++ keyword.text ++ "` cannot be used on a top level"
  | badStatus => "status code must be a 3-digit number"
  | bareString binder => binder.name ++ " value cannot be a bare string"
  | tooDeep _ => "expression nested too deeply"
  | noValue got => "expected nested expression, got " ++ got.name
  | notNested keyword => "keyword `" ++ keyword.text ++ "` cannot be nested"
  | unknownKeyword word => "unknown keyword `" ++ word ++ "`"
  | noSeparator got => "expected comma, got " ++ got.name
  | unknownName name => unknownNameMessage name

def help? : ParseFault → Option String
  | endOfInput | unexpected .. | noValue _ | unknownKeyword _ => none
  | noKeyword _ => some "top-level expressions start with `def`, `route` or `response`"
  | notTopLevel _ => some "bind it with `def`, `route` or `response` first"
  | badStatus => some "use an HTTP status such as 200 or 404"
  | bareString _ => some "wrap it in a format object, `Url` or `ArrayOf`"
  | tooDeep limit => some ("values may nest at most " ++ Nat.repr limit ++ " levels deep")
  | notNested _ => some "`def`, `route` and `response` are only allowed at the top level"
  | noSeparator _ => some "separate pairs with `,` and close the object with `\x7d`"
  | unknownName _ => some "names must be defined with `def` before they are used"

end ParseFault

/-- A fault and the token that it is blamed on; there is none before the first token. -/
structure ParseFailure where
  fault : ParseFault
  culprit : Option Token
  deriving DecidableEq, Repr

end AeSchema
