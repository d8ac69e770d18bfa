import AeSchema.Proofs.Command.Verdicts
import AeSchema.Proofs.Files.Follow

/-! What standard input tells a check: nothing, but for a file that is named by a lone hyphen. Such
a file is found as any other, and then standard input is read in its place. -/

namespace AeSchema.Command

open Files

section Disk

variable {disk other : Disk Id} {path file : Path}

theorem checkFile_congr (isHyphen : file.isHyphen = false)
    (read : disk.read file = other.read file) :
    (checkFile disk file).run = (checkFile other file).run := by
  rw [checkFile_eq, checkFile_eq, fileEvents, fileEvents, judge, judge,
    readSource_of_not_isHyphen isHyphen, readSource_of_not_isHyphen isHyphen, read]

theorem check_congr (discovered : (discover disk path).run = (discover other path).run)
    (read : disk.read = other.read)
    (named : ∀ files, (discover disk path).run = .ok files →
      ∀ file ∈ files, file.isHyphen = false) :
    ((Action.check path).run disk).run = ((Action.check path).run other).run := by
  cases found : (discover disk path).run with
  | error diagnostic => rw [check_of_not_found found, check_of_not_found (discovered ▸ found)]
  | ok listed =>
      have verdicts : (listed.map fun file => (checkFile disk file).run) =
          listed.map fun file => (checkFile other file).run := by
        apply List.map_congr_left
        intro file member
        exact checkFile_congr (named listed found file member) (congrFun read file)
      rw [check_of_found found, check_of_found (discovered ▸ found), verdicts]

end Disk

section System

variable {system : System} {input : ByteArray} {path : Path} {files : List Path}

theorem not_isHyphen_of_discover
    (ordinary : ∀ content, system.resolve path = .ok (.file content) → path ≠ .ofString "-")
    (found : (discover (system.disk input) path).run = .ok files) :
    ∀ file ∈ files, file.isHyphen = false := by
  intro file member
  rcases mem_of_discover found member with ⟨rfl, isFile⟩ | ⟨names, rfl, isSource⟩
  · obtain ⟨content, resolved⟩ := isFile_disk_iff.mp isFile
    rw [← Bool.not_eq_true]
    intro isHyphen
    exact ordinary content resolved (eq_hyphen_of_resolve isHyphen resolved)
  · exact not_isHyphen_of_isSourceChain isSource

theorem discover_of_resolve {content : ByteArray}
    (resolved : system.resolve path = .ok (.file content)) :
    (discover (system.disk input) path).run = .ok [path] := by
  apply discover_of_isFile
  exact isFile_disk_iff.mpr ⟨content, resolved⟩

end System

/-- A check does not listen to standard input, and judges each file by what is in it, unless it is
asked for a file that is named by a lone hyphen: that file is judged by what standard input says. -/
theorem check_reads_files (system : System) (path : Path) :
    ((∀ content, system.resolve path = .ok (.file content) → path ≠ .ofString "-") →
      (∀ first second, ((Action.check path).run (system.disk first)).run =
        ((Action.check path).run (system.disk second)).run) ∧
      (∀ arguments plain verbose,
        Invocation.ofArguments arguments = .run ⟨plain, verbose, .check path⟩ →
        ∀ terminal setting? first second,
          (runCommandLine (system.disk first) terminal setting? arguments).run =
            (runCommandLine (system.disk second) terminal setting? arguments).run) ∧
      ∀ input files, (discover (system.disk input) path).run = .ok files →
        ∀ file ∈ files, judge (system.disk input) file =
          judgeRead file ((system.disk input).read file).run) ∧
    ∀ content, system.resolve (.ofString "-") = .ok (.file content) → ∀ input,
      (discover (system.disk input) (.ofString "-")).run = .ok [.ofString "-"] ∧
      judge (system.disk input) (.ofString "-") =
        (decodeSource standardInputName input).bind parseSource := by
  constructor
  · intro ordinary
    have same (first second : ByteArray) : ((Action.check path).run (system.disk first)).run =
        ((Action.check path).run (system.disk second)).run := by
      apply check_congr
      · rfl
      · rfl
      · intro files found
        exact not_isHyphen_of_discover ordinary found
    refine ⟨same, ?_, ?_⟩
    · intro arguments plain verbose asked terminal setting? first second
      rw [runCommandLine_of_run asked, runCommandLine_of_run asked, same first second]
    · intro input files found file member
      exact judge_of_not_isHyphen (not_isHyphen_of_discover ordinary found file member)
  · intro content resolved input
    exact ⟨discover_of_resolve resolved, judge_of_isHyphen (by decide +kernel)⟩

def hyphenFile : System :=
  Directory.asWorking
    (.entry (utf8 "a.ae") (.file "def A Url \"u\"".toUTF8)
      (.entry (utf8 "-") (.file "def A".toUTF8) .empty))

theorem check_reads_files_hyphenFile :
    let arguments := ["check", "/work"].map utf8
    let run (input : ByteArray) :=
      (runCommandLine (hyphenFile.disk input) .basic none arguments).run
    (∀ content, hyphenFile.resolve (.ofString "/work") = .ok (.file content) →
      Path.ofString "/work" ≠ .ofString "-") ∧
    Invocation.ofArguments arguments = .run ⟨false, false, .check (.ofString "/work")⟩ ∧
    run "def A".toUTF8 = run ByteArray.empty ∧
    hyphenFile.resolve (.ofString "-") = .ok (.file "def A".toUTF8) ∧
    judge (hyphenFile.disk ByteArray.empty) (.ofString "-") =
      (decodeSource standardInputName ByteArray.empty).bind parseSource := by
  intro arguments run
  have ordinary : ∀ content, hyphenFile.resolve (.ofString "/work") = .ok (.file content) →
      Path.ofString "/work" ≠ .ofString "-" := fun _ _ => by decide +kernel
  have asked : Invocation.ofArguments arguments =
      .run ⟨false, false, .check (.ofString "/work")⟩ := by
    decide +kernel
  have resolved : hyphenFile.resolve (.ofString "-") = .ok (.file "def A".toUTF8) :=
    (@read_disk_iff hyphenFile ByteArray.empty _ _).mp (by decide +kernel)
  obtain ⟨isolated, listens⟩ := check_reads_files hyphenFile (.ofString "/work")
  exact ⟨ordinary, asked, (isolated ordinary).2.1 _ _ _ asked .basic none _ _, resolved,
    (listens _ resolved ByteArray.empty).2⟩

/-- The verdict on the file without and with the same text at standard input. -/
theorem check_hyphenFile_listens :
    let run (input : ByteArray) :=
      (runCommandLine (hyphenFile.disk input) .basic none (["check", "-"].map utf8)).run
    (run ByteArray.empty).output = "ok     - (0 expressions)\n\n1 files checked, 0 failed\n" ∧
      (run ByteArray.empty).exitCode = 0 ∧
    (run "def A".toUTF8).output = "FAILED -\n\n1 files checked, 1 failed\n" ∧
      (run "def A".toUTF8).exitCode = 1 := by
  refine ⟨?_, ?_, ?_, ?_⟩
  · decide +kernel
  · decide +kernel
  · decide +kernel
  · decide +kernel

end AeSchema.Command
