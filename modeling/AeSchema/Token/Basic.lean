import AeSchema.Source.Location
import AeSchema.Text.Json
import AeSchema.Text.Quoted

/-! Tokens: the words, strings and punctuation marks that a schema is written in. -/

namespace AeSchema

open Source Text

inductive TokenKind where
  | keyword
  | identifier
  | string
  | curlyOpen
  | curlyClose
  | colon
  | comma
  deriving DecidableEq, Repr

namespace TokenKind

def all : List TokenKind :=
  [keyword, identifier, string, curlyOpen, curlyClose, colon, comma]

def ofPunctuation? : Char → Option TokenKind
  | '{' => some curlyOpen
  | '}' => some curlyClose
  | ':' => some colon
  | ',' => some comma
  | _ => none

def label : TokenKind → String
  | keyword => "KEYWORD"
  | identifier => "IDENTIFIER"
  | string => "STRING"
  | curlyOpen => "CURLY_OPEN"
  | curlyClose => "CURLY_CLOSE"
  | colon => "COLON"
  | comma => "COMMA"

def name : TokenKind → String
  | keyword => "keyword"
  | identifier => "identifier"
  | string => "string"
  | curlyOpen => "curly_open"
  | curlyClose => "curly_close"
  | colon => "colon"
  | comma => "comma"

end TokenKind

inductive Keyword where
  | define
  | route
  | response
  | arrayOf
  | url
  deriving DecidableEq, Repr

namespace Keyword

def all : List Keyword :=
  [define, route, response, arrayOf, url]

def text : Keyword → String
  | define => "def"
  | route => "route"
  | response => "response"
  | arrayOf => "ArrayOf"
  | url => "Url"

/-- Case matters. -/
def ofText? (word : String) : Option Keyword :=
  all.find? fun keyword => keyword.text = word

theorem ofText?_text (keyword : Keyword) : ofText? keyword.text = some keyword := by
  cases keyword <;> decide

theorem ofText?_eq_some_iff {word : String} {keyword : Keyword} :
    ofText? word = some keyword ↔ word = keyword.text := by
  constructor
  · intro found
    have matched := List.find?_some found
    simpa using (of_decide_eq_true matched).symm
  · rintro rfl
    exact ofText?_text keyword

end Keyword

/-- A lexical unit with its place. The value of a string is what its escapes stand for. -/
structure Token where
  value : String
  kind : TokenKind
  location : Location
  /-- All bytes of the token, the quotes of a string included. -/
  span : Span
  deriving DecidableEq, Repr

namespace Token

def display (token : Token) : String :=
  match token.kind with
  | .string => quoted token.value
  | _ => token.value

def listing (token : Token) : String :=
  token.location.display ++ " " ++ token.kind.label ++ " " ++ token.display

def keyword? (token : Token) : Option Keyword :=
  match token.kind with
  | .keyword => Keyword.ofText? token.value
  | _ => none

def toJson (token : Token) : Json :=
  .object [("value", .string token.value), ("kind", .string token.kind.label),
    ("line", .number token.location.line), ("col", .number token.location.col)]

end Token

def Source.Span.toJson (span : Span) : Json :=
  .object [("start", .number span.start), ("end", .number span.stop)]

end AeSchema
