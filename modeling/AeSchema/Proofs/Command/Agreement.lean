import AeSchema.Proofs.Command.Arguments
import AeSchema.Proofs.Command.Verdicts
import AeSchema.Proofs.Text.Pretty

/-! The commands agree on a file: it has a tree if and only if a check finds nothing wrong with it,
and then it has a listing. A failure shows nothing of the file. -/

namespace AeSchema.Command

open Files Text

section Finish

variable (disk : Disk Id) (path : Path) (json : Bool) (terminal : Terminal) (plain : Bool)
  (setting : String)

theorem finish_tokens :
    let finish := ((Action.tokens path json).run disk).run.finish terminal plain setting
    finish.exitCode = 0 ∨ finish.exitCode = 1 ∧ finish.output = "" ∧
      ∃ diagnostic, judge disk path = .error diagnostic := by
  simp only [Action.run, Id.run_bind, Id.run_pure, judge]
  cases (readSource disk path).run with
  | error diagnostic => exact .inr ⟨rfl, rfl, diagnostic, rfl⟩
  | ok source =>
      simp only [tokensOutcome, Except.bind, parseSource, parseText]
      cases tokenize source.text with
      | error failure => exact .inr ⟨rfl, rfl, _, rfl⟩
      | ok tokens => exact .inl rfl

theorem finish_ast :
    let finish := ((Action.ast path json).run disk).run.finish terminal plain setting
    match judge disk path with
    | .ok program => finish.exitCode = 0 ∧
        finish.output = if json then jsonText (programJson program) else prettyAll program
    | .error _ => finish.exitCode = 1 ∧ finish.output = "" := by
  simp only [Action.run, Id.run_bind, Id.run_pure, judge]
  cases (readSource disk path).run with
  | error diagnostic => exact ⟨rfl, rfl⟩
  | ok source =>
      simp only [astOutcome, Except.bind]
      cases parseSource source with
      | error diagnostic => exact ⟨rfl, rfl⟩
      | ok program => exact ⟨rfl, rfl⟩

theorem failure_is_silent : ∀ action ∈ [Action.tokens path json, .ast path json],
    let finish := (action.run disk).run.finish terminal plain setting
    finish.exitCode = 0 ∨ finish.exitCode = 1 ∧ finish.output = "" := by
  intro action listed
  simp only [List.mem_cons, List.not_mem_nil, or_false] at listed
  rcases listed with rfl | rfl
  · rcases finish_tokens disk path json terminal plain setting with success | ⟨failure, silent, -⟩
    · exact .inl success
    · exact .inr ⟨failure, silent⟩
  · have told := finish_ast disk path json terminal plain setting
    cases judged : judge disk path with
    | ok program =>
        simp only [judged] at told
        exact .inl told.1
    | error diagnostic =>
        simp only [judged] at told
        exact .inr told

variable {disk path} in
theorem finish_check_of_isFile (isFile : (disk.isFile path).run = true) :
    let finish := ((Action.check path).run disk).run.finish terminal plain setting
    match judge disk path with
    | .ok program => finish.exitCode = 0 ∧
        finish.output = verdictLine path (.ok program) ++ summary 1 0
    | .error _ => finish.exitCode = 1 := by
  intro finish
  have told : finish = _ := finish_check_of_found terminal plain setting (discover_of_isFile isFile)
  rw [told]
  cases judged : judge disk path with
  | error diagnostic => simp [judged, isFailedLine, verdictLine]
  | ok program => simp [judged, isFailedLine, verdictLine]

end Finish

theorem jsonText_injective : Function.Injective jsonText := by
  intro first second same
  apply Json.pretty_injective 0
  exact (String.append_left_inj "\n").mp same

/-- What the commands tell of the file at `path`, in relation to each other. -/
structure Agree (finish : Action → Finish) (path : Path) : Prop where
  tree : ∀ json, (finish (.ast path json)).exitCode = (finish (.check path)).exitCode
  listing : (finish (.check path)).exitCode = 0 →
    ∀ json, (finish (.tokens path json)).exitCode = 0
  count : (finish (.check path)).exitCode = 0 → ∃ items : List Json,
    (finish (.check path)).output = "ok     " ++ path.display ++ " (" ++ Nat.repr items.length ++
      " expressions)\n" ++ "\n1 files checked, 0 failed\n" ∧
    ∀ others, (finish (.ast path true)).output = jsonText (.array others) ↔ others = items
  silence : ∀ json, ∀ action ∈ [.tokens path json, .ast path json],
    (finish action).exitCode = 0 ∨ (finish action).exitCode = 1 ∧ (finish action).output = ""

section Agree

variable {disk : Disk Id} {path : Path} (terminal : Terminal) (plain : Bool) (setting : String)

theorem exitCode_check_iff (isFile : (disk.isFile path).run = true) :
    (((Action.check path).run disk).run.finish terminal plain setting).exitCode = 0 ↔
      ∃ program, judge disk path = .ok program := by
  have told := finish_check_of_isFile terminal plain setting isFile
  cases judged : judge disk path with
  | ok program => simp_all
  | error diagnostic => simp_all

theorem agree_of_ok {program : List (Expr Token)} (isFile : (disk.isFile path).run = true)
    (judged : judge disk path = .ok program) :
    Agree (fun action => (action.run disk).run.finish terminal plain setting) path := by
  have check := finish_check_of_isFile terminal plain setting isFile
  have ast (json : Bool) := finish_ast disk path json terminal plain setting
  have tokens (json : Bool) := finish_tokens disk path json terminal plain setting
  simp only [judged, reduceCtorEq, exists_false, and_false, or_false] at check ast tokens
  constructor
  · intro json
    rw [check.1, (ast json).1]
  · intro _ json
    exact tokens json
  · intro _
    refine ⟨program.map Expr.toJson, ?_, ?_⟩
    · rw [check.2, List.length_map]
      rfl
    · intro others
      rw [(ast true).2, if_pos rfl, jsonText_injective.eq_iff, programJson, Json.array.injEq]
      exact eq_comm
  · intro json
    exact failure_is_silent disk path json terminal plain setting

theorem agree_of_error {diagnostic : Diagnostic} (isFile : (disk.isFile path).run = true)
    (judged : judge disk path = .error diagnostic) :
    Agree (fun action => (action.run disk).run.finish terminal plain setting) path := by
  have check := finish_check_of_isFile terminal plain setting isFile
  have ast (json : Bool) := finish_ast disk path json terminal plain setting
  simp only [judged] at check ast
  constructor
  · intro json
    rw [check, (ast json).1]
  · intro success
    rw [check] at success
    cases success
  · intro success
    rw [check] at success
    cases success
  · intro json
    exact failure_is_silent disk path json terminal plain setting

theorem agree_of_isFile (isFile : (disk.isFile path).run = true) :
    Agree (fun action => (action.run disk).run.finish terminal plain setting) path := by
  cases judged : judge disk path with
  | ok program => exact agree_of_ok terminal plain setting isFile judged
  | error diagnostic => exact agree_of_error terminal plain setting isFile judged

end Agree

theorem judge_eq_ok_iff {disk : Disk Id} {content : ByteArray} {path : Path}
    (start : path.bytes.head? ≠ some hyphen) (read : (disk.read path).run = .ok content)
    {program : List (Expr Token)} :
    judge disk path = .ok program ↔ ∃ text, String.fromUTF8? content = some text ∧
      parseSource ⟨path.display, text⟩ = .ok program := by
  rw [judge_of_not_isHyphen (Path.not_isHyphen_of_head? start), read, judgeRead, sourceOf,
    decodeSource]
  cases String.fromUTF8? content with
  | none => simp [Except.bind]
  | some text => simp [Except.bind]

/-- A regular file whose path does not start with a hyphen, whatever is in it: the commands agree on
it, and accept it if and only if it is a text and the text is a program. Flags change nothing but
what is told besides. -/
theorem commands_agree (disk : Disk Id) (terminal : Terminal) (path : Path) (content : ByteArray)
    (given : path.bytes ≠ []) (start : path.bytes.head? ≠ some hyphen)
    (isFile : (disk.isFile path).run = true) (read : (disk.read path).run = .ok content) :
    let finish (plain : Bool) (setting : String) (action : Action) : Finish :=
      (action.run disk).run.finish terminal plain setting
    (∀ plain setting, Agree (finish plain setting) path ∧
      ((finish plain setting (.check path)).exitCode = 0 ↔ ∃ program text,
        String.fromUTF8? content = some text ∧
          parseSource ⟨path.display, text⟩ = .ok program)) ∧
    ∀ verb outer before after setting?, verb.Takes outer (before ++ after) →
      (runCommandLine disk terminal setting?
          (commandLine outer verb before path.bytes after)).run =
        finish (.plain ∈ outer ++ (before ++ after))
          (logSetting (.verbose ∈ outer ++ (before ++ after)) setting?)
          (verb.onFile (.json ∈ before ++ after) path) := by
  intro finish
  constructor
  · intro plain setting
    refine ⟨agree_of_isFile terminal plain setting isFile, ?_⟩
    simp only [finish, exitCode_check_iff terminal plain setting isFile, judge_eq_ok_iff start read]
  · intro verb outer before after setting? takes
    rw [runCommandLine_of_run (ofArguments_commandLine takes given start)]

/-- The file is asked for once by its path from the root, and once past the working directory. -/
theorem commands_agree_mixedFiles :
    let disk := mixedFiles.disk ByteArray.empty
    let content := "def A Url \"u\"".toUTF8
    let path := Path.ofString "/work/b.ae"
    let detour := Path.ofString "../work/b.ae"
    let run (arguments : List String) := (runCommandLine disk .basic none (arguments.map utf8)).run
    path.bytes ≠ [] ∧ path.bytes.head? ≠ some hyphen ∧ (disk.isFile path).run = true ∧
    (disk.read path).run = .ok content ∧ (disk.read detour).run = .ok content ∧
    Verb.check.Takes [] [.plain] ∧ Verb.ast.Takes [.verbose] [.json, .plain] ∧
    (run ["check", "/work/b.ae", "--plain"]).exitCode = 0 ∧
    (run ["-v", "ast", "--json", "../work/b.ae", "--plain"]).exitCode = 0 := by
  intro disk content path detour run
  have given : path.bytes ≠ [] := by decide +kernel
  have start : path.bytes.head? ≠ some hyphen := by decide +kernel
  have isFile : (disk.isFile path).run = true := by decide +kernel
  have readPath : (disk.read path).run = .ok content := by decide +kernel
  have readDetour : (disk.read detour).run = .ok content := by decide +kernel
  have check : Verb.check.Takes [] [.plain] := ⟨by simp, by simp, by simp, by decide⟩
  have ast : Verb.ast.Takes [.verbose] [.json, .plain] :=
    ⟨by simp, by decide, by decide, by decide⟩
  have text : String.fromUTF8? content = some "def A Url \"u\"" := by decide +kernel
  have parsed : (parseText "def A Url \"u\"").toOption.isSome = true := by decide +kernel
  have accepted (name : String) :
      ∃ program, parseSource ⟨name, "def A Url \"u\""⟩ = .ok program := by
    cases found : parseText "def A Url \"u\"" with
    | ok program => exact ⟨program, by rw [parseSource, found]⟩
    | error diagnostic =>
        rw [found] at parsed
        cases parsed
  obtain ⟨told, asked⟩ := commands_agree disk .basic path content given start isFile readPath
  obtain ⟨toldDetour, askedDetour⟩ := commands_agree disk .basic detour content
    (by decide +kernel) (by decide +kernel) (by decide +kernel) readDetour
  refine ⟨given, start, isFile, readPath, readDetour, check, ast, ?_, ?_⟩
  · have line := asked .check [] [] [.plain] none check
    obtain ⟨program, parsed⟩ := accepted path.display
    exact (congrArg Finish.exitCode line).trans ((told _ _).2.mpr ⟨program, _, text, parsed⟩)
  · have line := askedDetour .ast [.verbose] [.json] [.plain] none ast
    obtain ⟨program, parsed⟩ := accepted detour.display
    have success := (toldDetour true (logSetting true none)).2.mpr ⟨program, _, text, parsed⟩
    exact (congrArg Finish.exitCode line).trans (((toldDetour _ _).1.tree true).trans success)

end AeSchema.Command
