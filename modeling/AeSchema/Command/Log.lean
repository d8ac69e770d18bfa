import AeSchema.Program.Parse
import AeSchema.Token.Scan

/-! Log lines: what happens on the way from a file to a program, told on request. -/

namespace AeSchema.Command

inductive LogLevel where
  | error
  | warn
  | info
  | debug
  | trace
  deriving DecidableEq, Repr

namespace LogLevel

/-- A higher rank is told less often. -/
def rank : LogLevel → Nat
  | error => 1
  | warn => 2
  | info => 3
  | debug => 4
  | trace => 5

def name : LogLevel → String
  | error => "error"
  | warn => "warn"
  | info => "info"
  | debug => "debug"
  | trace => "trace"

def label : LogLevel → String
  | error => "ERROR"
  | warn => "WARN "
  | info => "INFO "
  | debug => "DEBUG"
  | trace => "TRACE"

def all : List LogLevel := [error, warn, info, debug, trace]

end LogLevel

/-- The setting of the logger. One from outside wins over the wish to be verbose. -/
def logSetting (verbose : Bool) (given? : Option String) : String :=
  given?.getD (if verbose then LogLevel.debug.name else LogLevel.warn.name)

inductive LogEvent where
  | token (found : Token)
  | tokenized (bytes tokens : Nat)
  | parsing (notice : Notice)
  | read (bytes : Nat) (name : String)
  | checking (files : Nat) (path : String)
  deriving DecidableEq, Repr

namespace LogEvent

def level : LogEvent → LogLevel
  | token _ => .trace
  | tokenized .. | parsing _ | read .. => .debug
  | checking .. => .info

def target : LogEvent → String
  | token _ | tokenized .. => "ae::syntax::lexer"
  | parsing _ => "ae::syntax::parser"
  | read .. | checking .. => "ae::cli"

def message : LogEvent → String
  | token found => "token " ++ found.listing
  | tokenized bytes tokens =>
      "tokenized " ++ Nat.repr bytes ++ " bytes into " ++ Nat.repr tokens ++ " tokens"
  | parsing (.duplicateKey opening) =>
      "duplicate key in format object at " ++ opening.display ++ " overwritten"
  | parsing (.parsed kind location) => "parsed " ++ kind.label ++ " at " ++ location.display
  | parsing (.finished expressions definitions) =>
      "parsed " ++ Nat.repr expressions ++ " top-level expressions, " ++ Nat.repr definitions ++
        " definitions"
  | read bytes name => "read " ++ Nat.repr bytes ++ " bytes from " ++ name
  | checking files path => "checking " ++ Nat.repr files ++ " files under " ++ path

/-- The log line; further lines of a message are indented by four spaces. -/
def display (event : LogEvent) : String :=
  let text := event.message.toList.flatMap fun c =>
    if c = '\n' then ['\n', ' ', ' ', ' ', ' '] else [c]
  "[" ++ event.level.label ++ " " ++ event.target ++ "] " ++ String.ofList text ++ "\n"

/-- The log line under a setting that is the name of a level, in any letter case. -/
def displayUpTo (setting : String) (event : LogEvent) : String :=
  match LogLevel.all.find? (·.name = setting.toLower) with
  | some level => if event.level.rank ≤ level.rank then event.display else ""
  | none => ""

end LogEvent

def scanEvents (text : String) : List LogEvent :=
  match scan text with
  | (tokens, none) => tokens.map .token ++ [.tokenized text.utf8ByteSize tokens.length]
  | (tokens, some _) => tokens.map .token

def parseEvents (tokens : List Token) : List LogEvent :=
  match runParse (some nestingLimit) tokens with
  | .ok _ state | .error _ state => state.notices.reverse.map .parsing

def programEvents (text : String) : List LogEvent :=
  match tokenize text with
  | .ok tokens => scanEvents text ++ parseEvents tokens
  | .error _ => scanEvents text

end AeSchema.Command
