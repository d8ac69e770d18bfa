import AeSchema.Command.Run

/-! The program: the commands over the files of the system. -/

namespace AeSchema

open Files Command

/-- The number of an error; some calls tell it negated. -/
def errorNumber (code : UInt32) : UInt32 :=
  min code (0 - code)

def systemError (error : IO.Error) : SystemError :=
  match error with
  | .noFileOrDirectory .. => .notFound
  | .inappropriateType _ code _ | .invalidArgument _ code _ =>
      match errorNumber code with
      | 20 => .notDirectory
      | 21 => .isDirectory
      | 36 => .nameTooLong
      | 40 => .tooManyLinks
      | _ => .other (toString error)
  | _ => .other (toString error)

def attempt {α : Type} (action : IO α) : IO (Except SystemError α) := do
  try
    return .ok (← action)
  catch error =>
    return .error (systemError error)

def searchStep {α : Type} (below : List FileName) (action : IO α) :
    ExceptT SearchFailure IO α := do
  match ← attempt action with
  | .ok found => return found
  | .error error => throw ⟨below, error⟩

def entryKind : IO.FS.FileType → EntryKind
  | .file => .file
  | .dir => .directory
  | .symlink => .link
  | .other => .other

mutual

partial def systemSearch (below : List FileName) (entries : IO (Array IO.FS.DirEntry)) :
    ExceptT SearchFailure IO (List Entry) := do
  let entries ← searchStep below entries
  return (← entries.toList.mapM (systemEntries below)).flatten

/-- A directory entry and what lies below it. -/
partial def systemEntries (above : List FileName) (entry : IO.FS.DirEntry) :
    ExceptT SearchFailure IO (List Entry) := do
  let below := above ++ [utf8 entry.fileName]
  let kind := entryKind (← searchStep below entry.path.symlinkMetadata).type
  let inner ← if kind = .directory then systemSearch below entry.path.readDir else pure []
  return ⟨below, kind⟩ :: inner

end

def systemDisk : Disk IO where
  isFile path := do
    match ← attempt (do return (← (← IO.FS.realPath path.display).metadata).type) with
    | .ok kind => return kind == .file
    | .error _ => return false
  read path := attempt (IO.FS.readBinFile path.display)
  walk path :=
    let top : IO.FS.DirEntry := ⟨path.display, ""⟩
    (systemSearch [] top.root.readDir).run
  standardInput := do (← IO.getStdin).readBinToEnd

def logVariable : String := "RUST_LOG"

end AeSchema

open AeSchema Command in
def main (arguments : List String) : IO UInt32 := do
  let finish ← runCommandLine systemDisk .basic (← IO.getEnv logVariable) (arguments.map Files.utf8)
  (← IO.getStdout).putStr finish.output
  (← IO.getStderr).putStr finish.errors
  return finish.exitCode.toUInt32
