import AeSchema.Diagnostic.Basic
import AeSchema.Program.Parse

/-! From a text straight to its program. -/

namespace AeSchema

def parseText (text : String) : Except Diagnostic (List (Expr Token)) :=
  match tokenize text with
  | .error failure => .error (.ofScanFailure failure)
  | .ok tokens =>
      match parse tokens with
      | .error failure => .error (.ofParseFailure failure)
      | .ok program => .ok program

def parseSource (source : SourceText) : Except Diagnostic (List (Expr Token)) :=
  match parseText source.text with
  | .error diagnostic => .error (diagnostic.withSource source)
  | .ok program => .ok program

end AeSchema
