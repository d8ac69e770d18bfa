import AeSchema.Files.Path

/-! What the arguments of the command line ask for. -/

namespace AeSchema.Command

open Files

/-- An argument as the system hands it over. -/
abbrev Word := List UInt8

inductive Flag where
  | plain
  | verbose
  | json
  | version
  | help
  deriving DecidableEq, Repr

namespace Flag

def all : List Flag := [plain, verbose, json, version, help]

def name : Flag → String
  | plain => "plain"
  | verbose => "verbose"
  | json => "json"
  | version => "version"
  | help => "help"

def ofLong? (word : Word) : Option Flag :=
  all.find? fun flag => utf8 flag.name = word

def ofShort? (letter : UInt8) : Option Flag :=
  if [letter] = utf8 "v" then some verbose
  else if [letter] = utf8 "V" then some version
  else if [letter] = utf8 "h" then some help
  else none

end Flag

inductive Argument where
  | value (word : Word)
  | flags (flags : List (Option Flag))
  | endOfFlags
  deriving DecidableEq, Repr

/-- A lone hyphen is a value; one hyphen starts letters, two start a word. -/
def Argument.ofWord (word : Word) : Argument :=
  match word with
  | [] | [_] => value word
  | first :: second :: rest =>
      if first ≠ hyphen then value word
      else if second ≠ hyphen then flags ((second :: rest).map Flag.ofShort?)
      else if rest = [] then endOfFlags
      else flags [Flag.ofLong? rest]

inductive Verb where
  | tokens
  | ast
  | check
  deriving DecidableEq, Repr

namespace Verb

def all : List Verb := [tokens, ast, check]

def name : Verb → String
  | tokens => "tokens"
  | ast => "ast"
  | check => "check"

def ofWord? (word : Word) : Option Verb :=
  all.find? fun verb => utf8 verb.name = word

end Verb

inductive Action where
  | tokens (file : Path) (json : Bool)
  | ast (file : Path) (json : Bool)
  | check (path : Path)
  deriving DecidableEq, Repr

structure Request where
  plain : Bool
  verbose : Bool
  action : Action
  deriving DecidableEq, Repr

inductive Invocation where
  | run (request : Request)
  | version
  | help
  | mistake
  deriving DecidableEq, Repr

/-- Adds flags to those that are set. A flag stands at most once at each level, and a question
about the program is answered at once. -/
def setFlags (allowed set : List Flag) : List (Option Flag) → Except Invocation (List Flag)
  | [] => .ok set
  | none :: _ => .error .mistake
  | some flag :: rest =>
      if flag ∉ allowed then .error .mistake
      else if flag = .version then .error .version
      else if flag = .help then .error .help
      else if flag ∈ set then .error .mistake
      else setFlags allowed (flag :: set) rest

def setValue (value? : Option Word) (word : Word) : Except Invocation (Option Word) :=
  if value?.isSome ∨ word = [] then .error .mistake else .ok (some word)

namespace Verb

def allowed : Verb → List Flag
  | tokens | ast => [.plain, .verbose, .json, .help]
  | check => [.plain, .verbose, .help]

/-- A file must be named; a check without a path starts from the current directory. -/
def action? (json : Bool) : Verb → Option Word → Option Action
  | tokens, some file => some (.tokens ⟨file⟩ json)
  | ast, some file => some (.ast ⟨file⟩ json)
  | check, some path => some (.check ⟨path⟩)
  | check, none => some (.check (.ofString "."))
  | tokens, none | ast, none => none

def invocation (verb : Verb) (outer inner : List Flag) (value? : Option Word) : Invocation :=
  match verb.action? (.json ∈ inner) value? with
  | none => .mistake
  | some action => .run ⟨.plain ∈ outer ++ inner, .verbose ∈ outer ++ inner, action⟩

/-- Reads the arguments after a verb. After the end of the flags everything is a value. A mistake
in front of a question about the program comes first. -/
def parseArguments (verb : Verb) (outer : List Flag) (inner : List Flag)
    (value? : Option Word) : List Word → Invocation
  | [] => verb.invocation outer inner value?
  | argument :: rest =>
      match Argument.ofWord argument with
      | .value word =>
          match setValue value? word with
          | .ok value? => verb.parseArguments outer inner value? rest
          | .error invocation => invocation
      | .endOfFlags =>
          match rest.foldlM setValue value? with
          | .ok value? => verb.invocation outer inner value?
          | .error invocation => invocation
      | .flags flags =>
          match setFlags verb.allowed inner flags with
          | .ok inner => verb.parseArguments outer inner value? rest
          | .error invocation => invocation

end Verb

def helpVerb : Word := utf8 "help"

def parseHelp : List Word → Invocation
  | [] => .help
  | [topic] => if topic = helpVerb ∨ (Verb.ofWord? topic).isSome then .help else .mistake
  | _ :: _ :: _ => .mistake

def parseOuter (outer : List Flag) : List Word → Invocation
  | [] => .mistake
  | argument :: rest =>
      match Argument.ofWord argument with
      | .endOfFlags => .mistake
      | .value word =>
          match Verb.ofWord? word with
          | some verb => verb.parseArguments outer [] none rest
          | none => if word = helpVerb then parseHelp rest else .mistake
      | .flags flags =>
          match setFlags [.plain, .verbose, .version, .help] outer flags with
          | .ok outer => parseOuter outer rest
          | .error invocation => invocation

def Invocation.ofArguments (arguments : List Word) : Invocation :=
  parseOuter [] arguments

end AeSchema.Command
