import AeSchema.Command.Log
import AeSchema.Command.Request
import AeSchema.Diagnostic.Report
import AeSchema.Expr.Json
import AeSchema.Expr.Outline
import AeSchema.Files.Discovery
import AeSchema.Program.Read

/-! The commands: list the tokens of a file, show its tree, or check all files below a path. -/

namespace AeSchema.Command

open Files Text

inductive Remark where
  | event (told : LogEvent)
  | diagnostic (reported : Diagnostic)
  deriving DecidableEq, Repr

structure Outcome where
  success : Bool
  output : String
  remarks : List Remark
  deriving DecidableEq, Repr

namespace Outcome

/-- A failure leaves the output empty. -/
def failed (events : List LogEvent) (diagnostic : Diagnostic) : Outcome :=
  ⟨false, "", events.map .event ++ [.diagnostic diagnostic]⟩

def succeeded (events : List LogEvent) (output : String) : Outcome :=
  ⟨true, output, events.map .event⟩

end Outcome

/-- Reading a file is told of, reading standard input is not. -/
def readEvents (path : Path) (source : SourceText) : List LogEvent :=
  if path.isHyphen then [] else [.read source.text.utf8ByteSize source.name]

def listing (tokens : List Token) : String :=
  String.join (tokens.map fun token => token.listing ++ "\n")

def jsonText (value : Json) : String :=
  value.pretty 0 ++ "\n"

def tokensOutcome (json : Bool) (path : Path) : Except Diagnostic SourceText → Outcome
  | .error diagnostic => .failed [] diagnostic
  | .ok source =>
      let events := readEvents path source ++ scanEvents source.text
      match tokenize source.text with
      | .error failure => .failed events ((Diagnostic.ofScanFailure failure).withSource source)
      | .ok tokens =>
          .succeeded events
            (if json then jsonText (.array (tokens.map Token.toJson)) else listing tokens)

def astOutcome (json : Bool) (path : Path) : Except Diagnostic SourceText → Outcome
  | .error diagnostic => .failed [] diagnostic
  | .ok source =>
      let events := readEvents path source ++ programEvents source.text
      match parseSource source with
      | .error diagnostic => .failed events diagnostic
      | .ok program =>
          .succeeded events
            (if json then jsonText (programJson program) else prettyAll program)

structure Verdict where
  file : Path
  events : List LogEvent
  result : Except Diagnostic Nat

namespace Verdict

def ofSource (file : Path) : Except Diagnostic SourceText → Verdict
  | .error diagnostic => ⟨file, [], .error diagnostic⟩
  | .ok source =>
      ⟨file, readEvents file source ++ programEvents source.text,
        (parseSource source).map List.length⟩

def isFailure (verdict : Verdict) : Bool :=
  match verdict.result with
  | .ok _ => false
  | .error _ => true

def line (verdict : Verdict) : String :=
  match verdict.result with
  | .ok count => "ok     " ++ verdict.file.display ++ " (" ++ Nat.repr count ++ " expressions)\n"
  | .error _ => "FAILED " ++ verdict.file.display ++ "\n"

def remarks (verdict : Verdict) : List Remark :=
  verdict.events.map .event ++
    match verdict.result with
    | .ok _ => []
    | .error diagnostic => [.diagnostic diagnostic]

end Verdict

def failureCount (verdicts : List Verdict) : Nat :=
  verdicts.countP Verdict.isFailure

def summary (total failed : Nat) : String :=
  "\n" ++ Nat.repr total ++ " files checked, " ++ Nat.repr failed ++ " failed\n"

def checkOutcome (path : Path) (verdicts : List Verdict) : Outcome where
  success := failureCount verdicts == 0
  output := String.join (verdicts.map Verdict.line) ++
    summary verdicts.length (failureCount verdicts)
  remarks := .event (.checking verdicts.length path.display) :: verdicts.flatMap Verdict.remarks

variable {m : Type → Type} [Monad m]

def checkFile (disk : Disk m) (file : Path) : m Verdict := do
  return .ofSource file (← readSource disk file)

def check (disk : Disk m) (path : Path) : m Outcome := do
  match ← discover disk path with
  | .error diagnostic => return .failed [] diagnostic
  | .ok files => return checkOutcome path (← files.mapM (checkFile disk))

def Action.run (disk : Disk m) : Action → m Outcome
  | tokens file json => return tokensOutcome json file (← readSource disk file)
  | ast file json => return astOutcome json file (← readSource disk file)
  | .check path => Command.check disk path

structure Finish where
  exitCode : UInt8
  output : String
  errors : String
  deriving DecidableEq, Repr

/-- What others put into words: the reports that are not plain, and the log. -/
structure Terminal where
  rich : Diagnostic → String
  /-- What the logger says of its setting before anything happens. -/
  greeting : String → String
  /-- What the logger writes of an event under a setting. -/
  log : String → LogEvent → String

/-- Reports are plain in any case, and the setting of the logger names a level. -/
def Terminal.basic : Terminal where
  rich := Diagnostic.report
  greeting _ := ""
  log := LogEvent.displayUpTo

section Speech

variable (terminal : Terminal) (plain : Bool) (setting : String)

def Terminal.report (diagnostic : Diagnostic) : String :=
  if plain then diagnostic.report else terminal.rich diagnostic ++ "\n"

def Remark.display : Remark → String
  | event told => terminal.log setting told
  | diagnostic reported => terminal.report plain reported

def Outcome.finish (outcome : Outcome) : Finish :=
  ⟨if outcome.success then 0 else 1, outcome.output,
    terminal.greeting setting ++
      String.join (outcome.remarks.map (Remark.display terminal plain setting))⟩

end Speech

def versionText : String := "ae 0.1.0\n"

def usageText : String :=
  String.join [
    "Usage: ae [--plain] [-v|--verbose] <COMMAND>\n",
    "\n",
    "Commands:\n",
    "  tokens FILE [--json]  list the tokens of a file\n",
    "  ast FILE [--json]     show the tree of a file\n",
    "  check [PATH]          check a file, or every schema file below a directory\n"]

/-- Runs the command line. `setting?` is what the environment asks of the logger. -/
def runCommandLine (disk : Disk m) (terminal : Terminal) (setting? : Option String)
    (arguments : List Word) : m Finish := do
  match Invocation.ofArguments arguments with
  | .version => return ⟨0, versionText, ""⟩
  | .help => return ⟨0, usageText, ""⟩
  | .mistake => return ⟨2, "", usageText⟩
  | .run request =>
      let outcome ← request.action.run disk
      return outcome.finish terminal request.plain (logSetting request.verbose setting?)

end AeSchema.Command
