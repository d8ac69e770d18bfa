import AeSchema.Command.Run
import AeSchema.Proofs.Diagnostic.Window
import AeSchema.Proofs.Files.Sources
import Mathlib.Data.List.Basic

/-! A check tells of every file that is found, in the order in which the files are found: what
becomes of one file is neither lost nor changed by what became of those in front of it. -/

namespace AeSchema.Command

open Files

/-- What becomes of a file: its program, or what is wrong with it. -/
def judge (disk : Disk Id) (file : Path) : Except Diagnostic (List (Expr Token)) :=
  (readSource disk file).run.bind parseSource

def judgeRead (file : Path) (read : Except SystemError ByteArray) :
    Except Diagnostic (List (Expr Token)) :=
  (sourceOf file read).bind parseSource

section Judge

variable {disk : Disk Id} {file : Path}

theorem judge_of_not_isHyphen (isHyphen : file.isHyphen = false) :
    judge disk file = judgeRead file (disk.read file).run := by
  rw [judge, readSource_of_not_isHyphen isHyphen, judgeRead]

theorem judge_of_isHyphen (isHyphen : file.isHyphen = true) :
    judge disk file =
      (decodeSource standardInputName disk.standardInput.run).bind parseSource := by
  rw [judge, readSource_of_isHyphen isHyphen]

end Judge

def verdictLine (file : Path) : Except Diagnostic (List (Expr Token)) → String
  | .ok program => "ok     " ++ file.display ++ " (" ++ Nat.repr program.length ++ " expressions)\n"
  | .error _ => "FAILED " ++ file.display ++ "\n"

def isFailedLine (line : String) : Bool :=
  "FAILED ".toList.isPrefixOf line.toList

def fileEvents (disk : Disk Id) (file : Path) : List LogEvent :=
  match (readSource disk file).run with
  | .ok source => readEvents file source ++ programEvents source.text
  | .error _ => []

theorem join_flatMap {α : Type} (texts : α → List String) (items : List α) :
    String.join (items.flatMap texts) =
      String.join (items.map fun item => String.join (texts item)) := by
  induction items with
  | nil => rfl
  | cons item items ih =>
      rw [List.flatMap_cons, String.join_append, ih, List.map_cons, String.join_cons]

section Speech

variable (terminal : Terminal) (plain : Bool) (setting : String)

/-- What is said of a judgement besides its line. -/
def complaint (judgement : Except Diagnostic (List (Expr Token))) : String :=
  match judgement with
  | .ok _ => ""
  | .error diagnostic => terminal.report plain diagnostic

def logged (events : List LogEvent) : String :=
  String.join (events.map (terminal.log setting))

theorem join_display_event (events : List LogEvent) :
    String.join ((events.map Remark.event).map (Remark.display terminal plain setting)) =
      logged terminal setting events := by
  rw [List.map_map]
  rfl

end Speech

theorem isFailedLine_verdictLine (file : Path)
    (judgement : Except Diagnostic (List (Expr Token))) :
    isFailedLine (verdictLine file judgement) = true ↔
      ∃ diagnostic, judgement = .error diagnostic := by
  cases judgement with
  | ok program => simp [isFailedLine, verdictLine]
  | error diagnostic => simp [isFailedLine, verdictLine]

section Verdict

variable (disk : Disk Id) (file : Path)

theorem checkFile_eq : (checkFile disk file).run =
    ⟨file, fileEvents disk file, (judge disk file).map List.length⟩ := by
  change Verdict.ofSource file (readSource disk file).run = _
  rw [judge, fileEvents]
  cases (readSource disk file).run with
  | error diagnostic => rfl
  | ok source => rfl

theorem line_checkFile : (checkFile disk file).run.line = verdictLine file (judge disk file) := by
  rw [checkFile_eq, Verdict.line]
  cases judge disk file with
  | error diagnostic => rfl
  | ok program => rfl

theorem isFailure_checkFile :
    (checkFile disk file).run.isFailure = isFailedLine (verdictLine file (judge disk file)) := by
  rw [checkFile_eq, Verdict.isFailure, Bool.eq_iff_iff, isFailedLine_verdictLine]
  cases judge disk file with
  | error diagnostic => simp [Except.map]
  | ok program => simp [Except.map]

theorem display_checkFile (terminal : Terminal) (plain : Bool) (setting : String) :
    String.join ((checkFile disk file).run.remarks.map (Remark.display terminal plain setting)) =
      logged terminal setting (fileEvents disk file) ++
        complaint terminal plain (judge disk file) := by
  rw [checkFile_eq, Verdict.remarks, List.map_append, String.join_append, join_display_event]
  cases judge disk file with
  | error diagnostic => rfl
  | ok program => rfl

end Verdict

theorem runCommandLine_of_run {disk : Disk Id} {arguments : List Word} {request : Request}
    (asked : Invocation.ofArguments arguments = .run request) (terminal : Terminal)
    (setting? : Option String) :
    (runCommandLine disk terminal setting? arguments).run =
      (request.action.run disk).run.finish terminal request.plain
        (logSetting request.verbose setting?) := by
  simp only [runCommandLine, asked]
  rfl

section Check

variable {disk : Disk Id} {path : Path} {files : List Path}

theorem check_of_found (found : (discover disk path).run = .ok files) :
    ((Action.check path).run disk).run =
      checkOutcome path (files.map fun file => (checkFile disk file).run) := by
  simp only [Action.run, Command.check, Id.run_bind, found]
  rw [List.idRun_mapM]
  rfl

theorem check_of_not_found {diagnostic : Diagnostic}
    (failed : (discover disk path).run = .error diagnostic) :
    ((Action.check path).run disk).run = .failed [] diagnostic := by
  simp only [Action.run, Command.check, Id.run_bind, failed]
  rfl

variable (terminal : Terminal) (plain : Bool) (setting : String)

theorem finish_check_of_found (found : (discover disk path).run = .ok files) :
    let lines := files.map fun file => verdictLine file (judge disk file)
    let failed := lines.countP isFailedLine
    ((Action.check path).run disk).run.finish terminal plain setting =
      ⟨if failed = 0 then 0 else 1, String.join lines ++ summary files.length failed,
        terminal.greeting setting ++ (terminal.log setting (.checking files.length path.display) ++
          String.join (files.map fun file => logged terminal setting (fileEvents disk file) ++
            complaint terminal plain (judge disk file)))⟩ := by
  intro lines failed
  have told : (files.map fun file => (checkFile disk file).run).map Verdict.line = lines := by
    simp only [List.map_map, Function.comp_def, line_checkFile, lines]
  have count : failureCount (files.map fun file => (checkFile disk file).run) = failed := by
    simp only [failureCount, List.countP_map, Function.comp_def, isFailure_checkFile, failed,
      lines]
  have remarks : String.join ((checkOutcome path
      (files.map fun file => (checkFile disk file).run)).remarks.map
        (Remark.display terminal plain setting)) =
      terminal.log setting (.checking files.length path.display) ++
        String.join (files.map fun file => logged terminal setting (fileEvents disk file) ++
          complaint terminal plain (judge disk file)) := by
    simp only [checkOutcome, List.length_map, List.map_cons, String.join_cons, List.flatMap_map,
      List.map_flatMap, join_flatMap, display_checkFile]
    rfl
  rw [check_of_found found, Outcome.finish, remarks]
  simp only [checkOutcome, told, count, List.length_map, beq_iff_eq]

end Check

def mixedFiles : System :=
  Directory.asWorking
    (.entry (utf8 "a.ae") (.file "route".toUTF8)
      (.entry (utf8 "b.ae") (.file "def A Url \"u\"".toUTF8)
        (.entry (utf8 "c.ae") (.file ⟨#[0xff]⟩)
          (.entry (utf8 "notes") (.file "route".toUTF8) .empty))))

end AeSchema.Command
