import AeSchema.Proofs.Files.Follow
import AeSchema.Proofs.Files.Order

/-! What lies below a directory, by the names that lead there, and that a walk through the directory
finds each such place once. -/

namespace AeSchema.Files

def Node.kind : Node → EntryKind
  | .file _ => .file
  | .directory _ => .directory
  | .link _ => .link

/-- The names lead to the node, from one directory to the next and over no link. -/
inductive Directory.Reaches : Directory → List FileName → Node → Prop
  | here {directory name node} : directory.find? name = some node →
      Directory.Reaches directory [name] node
  | deeper {directory name inner names node} : directory.find? name = some (.directory inner) →
      Directory.Reaches inner names node → Directory.Reaches directory (name :: names) node

mutual

def Node.Proper : Node → Prop
  | .file _ | .link _ => True
  | .directory inner => inner.Proper

/-- The names are such as a system allows, and no two entries of a directory share one. -/
def Directory.Proper : Directory → Prop
  | .empty => True
  | .entry name node rest =>
      FileName.Proper name ∧ rest.find? name = none ∧ node.Proper ∧ rest.Proper

end

mutual

def Node.decideProper : (node : Node) → Decidable node.Proper
  | .file _ | .link _ => isTrue trivial
  | .directory inner => inner.decideProper

def Directory.decideProper : (directory : Directory) → Decidable directory.Proper
  | .empty => isTrue trivial
  | .entry name node rest =>
      let _ := node.decideProper
      let _ := rest.decideProper
      inferInstanceAs (Decidable
        (FileName.Proper name ∧ rest.find? name = none ∧ node.Proper ∧ rest.Proper))

end

instance (directory : Directory) : Decidable directory.Proper :=
  directory.decideProper

section Places

variable {directory rest : Directory} {name : FileName} {names : List FileName}
  {node found : Node}

theorem Directory.proper_of_find? {directory : Directory} (proper : directory.Proper)
    (found : directory.find? name = some node) : FileName.Proper name ∧ node.Proper := by
  match directory with
  | .empty => simp [find?] at found
  | .entry first own rest =>
      obtain ⟨properFirst, _, properOwn, properRest⟩ := proper
      rw [find?] at found
      split at found
      next same =>
        obtain rfl := Option.some.inj found
        exact ⟨same ▸ properFirst, properOwn⟩
      next => exact proper_of_find? properRest found

namespace Directory.Reaches

theorem proper (reaches : directory.Reaches names node) (proper : directory.Proper) :
    ∀ name ∈ names, FileName.Proper name := by
  induction reaches with
  | here found =>
      rw [List.forall_mem_singleton]
      exact (proper_of_find? proper found).1
  | deeper found _ ih =>
      obtain ⟨properName, properInner⟩ := proper_of_find? proper found
      exact List.forall_mem_cons.mpr ⟨properName, ih properInner⟩

end Directory.Reaches

end Places

structure Trail.Proper (trail : Trail) : Prop where
  current : trail.current.Proper
  above : ∀ directory ∈ trail.above, directory.Proper

namespace Trail.Proper

variable {trail : Trail} {inner : Directory}

theorem up (proper : trail.Proper) : trail.up.Proper := by
  obtain ⟨current, _ | ⟨next, above⟩⟩ := trail
  · exact proper
  · obtain ⟨properNext, properAbove⟩ := List.forall_mem_cons.mp proper.above
    exact ⟨properNext, properAbove⟩

theorem down (proper : trail.Proper) (properInner : inner.Proper) : (trail.down inner).Proper :=
  ⟨properInner, List.forall_mem_cons.mpr ⟨proper.current, proper.above⟩⟩

theorem root (proper : trail.Proper) : trail.root.Proper := by
  refine ⟨?_, List.forall_mem_nil _⟩
  cases last : trail.above.getLast? with
  | none => simpa [Trail.root, last] using proper.current
  | some top => simpa [Trail.root, last] using proper.above top (List.mem_of_getLast? last)

theorem startTrail (proper : trail.Proper) (path : Path) : (path.startTrail trail).Proper := by
  unfold Path.startTrail
  split
  · exact proper.root
  · exact proper

end Trail.Proper

section Follow

variable {system : System} {inner : Directory} {path : Path}

end Follow

/-- The disk answers for the system: whether the root is a file there, and, each once and in any
order, what lies below the root if it is a directory. -/
structure Disk.Shows (disk : Disk Id) (system : System) (root : Path) : Prop where
  isFile : (disk.isFile root).run = true ↔ ∃ content, system.resolve root = .ok (.file content)
  walk : ∀ directory, system.resolve root = .ok (.directory directory) →
    ∃ entries, (disk.walk root).run = .ok entries ∧ (entries.map (·.names)).Nodup ∧
      ∀ entry, entry ∈ entries ↔
        ∃ node, directory.Reaches entry.names node ∧ entry.kind = node.kind
  error : ∀ error, system.resolve root = .error error → (disk.walk root).run = .error ⟨[], error⟩

end AeSchema.Files
