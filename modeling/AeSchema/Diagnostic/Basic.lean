import AeSchema.Diagnostic.WriteFault
import AeSchema.Program.Fault
import AeSchema.Token.Scan

/-! Diagnostics: a failure of any stage with all that is known about where it happened. -/

namespace AeSchema

open Source

structure SourceText where
  name : String
  text : String
  deriving DecidableEq, Repr

structure Context where
  source? : Option SourceText
  location? : Option Location
  span? : Option Span
  text? : Option String
  help? : Option String
  deriving DecidableEq, Repr

namespace Context

def empty : Context :=
  ⟨none, none, none, none, none⟩

def atToken (token : Token) : Context :=
  ⟨none, some token.location, some token.span, some token.value, none⟩

def atChar (c : LocatedChar) : Context :=
  ⟨none, some c.location, some c.span, none, none⟩

end Context

inductive Category where
  | lex
  | parse
  | scope
  | io
  deriving DecidableEq, Repr

namespace Category

def name : Category → String
  | lex => "Lex"
  | parse => "Parse"
  | scope => "Scope"
  | io => "Io"

def code : Category → String
  | lex => "ae::lex"
  | parse => "ae::parse"
  | scope => "ae::scope"
  | io => "ae::io"

end Category

inductive Diagnostic where
  | lex (message : String) (context : Context)
  | parse (message : String) (context : Context)
  | unknownName (name : String) (context : Context)
  | unreadable (path reason : String)
  | unwritable (fault : WriteFault)
  deriving DecidableEq, Repr

structure Label where
  text : String
  offset : Nat
  size : Nat
  deriving DecidableEq, Repr

namespace Diagnostic

def category : Diagnostic → Category
  | lex .. => .lex
  | parse .. => .parse
  | unknownName .. => .scope
  | unreadable .. | unwritable _ => .io

def message : Diagnostic → String
  | lex message _ | parse message _ => message
  | unknownName name _ => ParseFault.unknownNameMessage name
  | unreadable path reason => "failed to read " ++ path ++ ": " ++ reason
  | unwritable fault => "failed to serialize output: " ++ fault.display

/-- Only failures inside a text have a context. -/
def context? : Diagnostic → Option Context
  | lex _ context | parse _ context | unknownName _ context => some context
  | unreadable .. | unwritable _ => none

def cause? : Diagnostic → Option String
  | lex .. | parse .. | unknownName .. => none
  | unreadable _ reason => some reason
  | unwritable fault => some fault.display

def modifyContext (change : Context → Context) : Diagnostic → Diagnostic
  | lex message context => lex message (change context)
  | parse message context => parse message (change context)
  | unknownName name context => unknownName name (change context)
  | other => other

def withSource (diagnostic : Diagnostic) (source : SourceText) : Diagnostic :=
  diagnostic.modifyContext fun context => { context with source? := some source }

def withHelp (diagnostic : Diagnostic) (help : String) : Diagnostic :=
  diagnostic.modifyContext fun context => { context with help? := some help }

def source? (diagnostic : Diagnostic) : Option SourceText :=
  diagnostic.context?.bind (·.source?)

def location? (diagnostic : Diagnostic) : Option Location :=
  diagnostic.context?.bind (·.location?)

def span? (diagnostic : Diagnostic) : Option Span :=
  diagnostic.context?.bind (·.span?)

def text? (diagnostic : Diagnostic) : Option String :=
  diagnostic.context?.bind (·.text?)

def help? (diagnostic : Diagnostic) : Option String :=
  diagnostic.context?.bind (·.help?)

def labelText : Diagnostic → String
  | lex .. => "while scanning here"
  | parse .. => "unexpected token"
  | unknownName .. => "not defined before this point"
  | unreadable .. | unwritable _ => "here"

/-- Marks the span, and at least one byte. -/
def label? (diagnostic : Diagnostic) : Option Label :=
  diagnostic.span?.map fun span => ⟨diagnostic.labelText, span.start, max span.size 1⟩

def ofScanFailure (failure : ScanFailure) : Diagnostic :=
  (lex failure.fault.message (.atChar failure.culprit)).withHelp failure.fault.help

def ofParseFailure (failure : ParseFailure) : Diagnostic :=
  let place := (failure.culprit.map Context.atToken).getD .empty
  let context := { place with help? := failure.fault.help? }
  match failure.fault with
  | .unknownName name => unknownName name context
  | fault => parse fault.message context

end Diagnostic

end AeSchema
