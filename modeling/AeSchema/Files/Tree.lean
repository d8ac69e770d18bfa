import AeSchema.Files.Disk

/-! Trees of directories, files and symbolic links, and how a path is followed through them. -/

namespace AeSchema.Files

mutual

inductive Node where
  | file (content : ByteArray)
  | directory (entries : Directory)
  /-- A target that is not absolute starts from the directory that holds the link. -/
  | link (target : Path)

inductive Directory where
  | empty
  | entry (name : FileName) (node : Node) (rest : Directory)

end

namespace Directory

def find? (name : FileName) : Directory → Option Node
  | empty => none
  | entry first node rest => if first = name then some node else rest.find? name

def set (name : FileName) (node : Node) : Directory → Directory
  | empty => entry name node empty
  | entry first old rest =>
      if first = name then entry first node rest else entry first old (rest.set name node)

def subdirectory (directory : Directory) (name : FileName) : Directory :=
  match directory.find? name with
  | some (.directory entries) => entries
  | _ => empty

def put (directory : Directory) (node : Node) : List FileName → Directory
  | [] => directory
  | [name] => directory.set name node
  | name :: rest => directory.set name (.directory ((directory.subdirectory name).put node rest))

/-- Makes a chain of directories; those that are there already keep their entries. -/
def makeDirectory (directory : Directory) : List FileName → Directory
  | [] => directory
  | name :: rest =>
      directory.set name (.directory ((directory.subdirectory name).makeDirectory rest))

end Directory

mutual

/-- A node, reached by the names `above`, and what lies below it. -/
def Node.entries (above : List FileName) : Node → List Entry
  | .file _ => [⟨above, .file⟩]
  | .link _ => [⟨above, .link⟩]
  | .directory inner => ⟨above, .directory⟩ :: inner.entries above

def Directory.entries (above : List FileName) : Directory → List Entry
  | .empty => []
  | .entry name node rest => node.entries (above ++ [name]) ++ rest.entries above

end

/-- Where a path ends when all links are followed. -/
inductive Place where
  | file (content : ByteArray)
  | directory (entries : Directory)

def linkLimit : Nat := 40

def nameLimit : Nat := 255

def pathLimit : Nat := 4095

/-- A directory and those above it, the nearest first. -/
structure Trail where
  current : Directory
  above : List Directory

namespace Trail

/-- Above the root there is the root again. -/
def up : Trail → Trail
  | ⟨root, []⟩ => ⟨root, []⟩
  | ⟨_, next :: above⟩ => ⟨next, above⟩

def down (trail : Trail) (entries : Directory) : Trail :=
  ⟨entries, trail.current :: trail.above⟩

def root (trail : Trail) : Trail :=
  ⟨trail.above.getLast?.getD trail.current, []⟩

end Trail

/-- Follows segments. A link is handed to `onLink` with the trail to it and the segments after
it. -/
def follow (onLink : Trail → Path → List (List UInt8) → Except SystemError Place) :
    Trail → List (List UInt8) → Except SystemError Place
  | trail, [] => .ok (.directory trail.current)
  | trail, segment :: rest =>
      if segment = [] ∨ segment = FileName.here then follow onLink trail rest
      else if segment = FileName.parent then follow onLink trail.up rest
      else if nameLimit < segment.length then .error .nameTooLong
      else match trail.current.find? segment with
        | none => .error .notFound
        | some (.link target) => onLink trail target rest
        | some (.directory entries) => follow onLink (trail.down entries) rest
        | some (.file content) => if rest = [] then .ok (.file content) else .error .notDirectory

def Path.startTrail (path : Path) (trail : Trail) : Trail :=
  if path.isAbsolute then trail.root else trail

def followLinks : Nat → Trail → List (List UInt8) → Except SystemError Place
  | 0 => follow fun _ _ _ => .error .tooManyLinks
  | links + 1 => follow fun trail target rest =>
      followLinks links (target.startTrail trail) (target.segments ++ rest)

/-- All files of a system, and the names that lead from its root to the working directory. -/
structure System where
  root : Directory
  working : List FileName

namespace System

/-- A working directory that is removed has no entries. -/
def trail (system : System) : Trail :=
  system.working.foldl (fun trail name => trail.down (trail.current.subdirectory name))
    ⟨system.root, []⟩

def resolve (system : System) (path : Path) : Except SystemError Place :=
  if 0 ∈ path.bytes then .error .zeroByte
  else if path.bytes = [] then .error .notFound
  else if pathLimit < path.bytes.length then .error .nameTooLong
  else followLinks linkLimit (path.startTrail system.trail) path.segments

end System

/-- The tree as the working directory of a system that holds nothing else. -/
def Directory.asWorking (tree : Directory) : System :=
  ⟨.entry (utf8 "work") (.directory tree) .empty, [utf8 "work"]⟩

/-- A directory is opened by its whole path. -/
def Entry.unopened (path : Path) (entry : Entry) : Bool :=
  entry.kind = .directory && pathLimit < (path.join entry.names).bytes.length

/-- What lies below the directory that `path` leads to. A directory that is not opened ends the
search. -/
def Directory.search (directory : Directory) (path : Path) : Except SearchFailure (List Entry) :=
  let entries := directory.entries []
  match entries.find? (·.unopened path) with
  | some deep => .error ⟨deep.names, .nameTooLong⟩
  | none => .ok entries

def System.disk (system : System) (input : ByteArray) : Disk Id where
  isFile path := match system.resolve path with
    | .ok (.file _) => true
    | _ => false
  read path := match system.resolve path with
    | .ok (.file content) => .ok content
    | .ok (.directory _) => .error .isDirectory
    | .error error => .error error
  walk path := match system.resolve path with
    | .ok (.directory entries) => entries.search path
    | .ok (.file _) => .error ⟨[], .notDirectory⟩
    | .error error => .error ⟨[], error⟩
  standardInput := input

end AeSchema.Files
