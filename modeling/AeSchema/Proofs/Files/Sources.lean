import AeSchema.Files.Discovery
import AeSchema.Files.Tree
import AeSchema.Proofs.Text.Split

/-! The source behind a path. Only a path of hyphens, slashes and dots can stand for standard input,
and no schema file below a directory has such a path, since its extension is made of letters. -/

namespace AeSchema.Files

open Text

theorem utf8_hyphen : utf8 "-" = [hyphen] := by decide +kernel

namespace Path

variable {path : Path}

theorem isHyphen_iff :
    path.isHyphen = true ↔ ∃ rest, path.segments = [hyphen] :: rest ∧
      ∀ segment ∈ rest, segment = [] ∨ segment = FileName.here := by
  unfold isHyphen
  cases path.segments with
  | nil => simp
  | cons first rest => simp [utf8_hyphen, and_assoc]

theorem eq_of_mem_bytes (isHyphen : path.isHyphen = true) {byte : UInt8}
    (member : byte ∈ path.bytes) : byte = slash ∨ byte = hyphen ∨ byte = dot := by
  obtain ⟨rest, segments, blank⟩ := isHyphen_iff.mp isHyphen
  rw [← intercalate_splitAtEach slash path.bytes] at member
  rcases eq_or_exists_of_mem_intercalate member with same | ⟨segment, listed, inside⟩
  · exact .inl same
  · change segment ∈ path.segments at listed
    rw [segments, List.mem_cons] at listed
    rcases listed with rfl | later
    · exact .inr (.inl (List.mem_singleton.mp inside))
    · rcases blank segment later with rfl | rfl
      · cases inside
      · exact .inr (.inr (List.mem_singleton.mp inside))

theorem not_isHyphen_of_head? (start : path.bytes.head? ≠ some hyphen) :
    path.isHyphen = false := by
  rw [← Bool.not_eq_true]
  intro isHyphen
  obtain ⟨rest, segments, -⟩ := isHyphen_iff.mp isHyphen
  apply start
  rw [← intercalate_splitAtEach slash path.bytes]
  change ([slash].intercalate path.segments).head? = some hyphen
  rw [segments, intercalate_cons]
  rfl

theorem mem_bytes_join {below : List FileName} {name : FileName} {byte : UInt8}
    (listed : name ∈ below) (member : byte ∈ name) : byte ∈ (path.join below).bytes := by
  have tail : byte ∈ [slash].intercalate below := mem_intercalate listed member
  unfold join
  split
  next empty => simp [empty] at listed
  next =>
    split
    next => exact List.mem_append_right path.bytes tail
    next => exact List.mem_append_right path.bytes (List.mem_cons_of_mem slash tail)

end Path

theorem FileName.mem_of_isSource {name : FileName} (isSource : name.isSource = true) {byte : UInt8}
    (member : byte ∈ utf8 sourceExtension) : byte ∈ name := by
  rw [FileName.isSource, beq_iff_eq, FileName.extension?] at isSource
  split at isSource
  next => cases isSource
  next => cases isSource
  next =>
    rw [← Option.some.inj isSource, List.mem_reverse] at member
    exact List.mem_reverse.mp ((List.takeWhile_prefix _).mem member)

theorem not_isHyphen_of_isSourceChain {root : Path} {names : List FileName}
    (isSource : isSourceChain names = true) : (root.join names).isHyphen = false := by
  obtain ⟨name, last, named⟩ := (Option.any_eq_true _ _).mp isSource
  have letter : (0x61 : UInt8) ∈ name := FileName.mem_of_isSource named (by decide +kernel)
  rw [← Bool.not_eq_true]
  intro isHyphen
  have listed := List.mem_of_getLast? last
  exact absurd (Path.eq_of_mem_bytes isHyphen (Path.mem_bytes_join listed letter)) (by decide)

def sourceOf (path : Path) : Except SystemError ByteArray → Except Diagnostic SourceText
  | .ok content => decodeSource path.display content
  | .error error => .error (.unreadable path.display error.message)

section Disk

variable {disk : Disk Id} {root : Path} {files : List Path}

theorem discover_of_isFile (isFile : (disk.isFile root).run = true) :
    (discover disk root).run = .ok [root] := by
  simp [discover, isFile]

theorem discover_of_not_isFile (isFile : (disk.isFile root).run = false) :
    (discover disk root).run = match (disk.filesBelow root).run with
      | .ok found => .ok (((found.filter isSourceChain).mergeSort chainLe).map root.join)
      | .error failure => .error (.unreadable root.display (failure.reason root)) := by
  simp only [discover, Id.run_bind, isFile, Bool.false_eq_true, if_false]
  cases (disk.filesBelow root).run with
  | ok found => rfl
  | error failure => rfl

theorem mem_of_discover (found : (discover disk root).run = .ok files) {file : Path}
    (member : file ∈ files) :
    (file = root ∧ (disk.isFile root).run = true) ∨
      ∃ names, file = root.join names ∧ isSourceChain names = true := by
  cases isFile : (disk.isFile root).run with
  | true =>
      rw [discover_of_isFile isFile] at found
      obtain rfl := Except.ok.inj found
      exact .inl ⟨List.mem_singleton.mp member, rfl⟩
  | false =>
      rw [discover_of_not_isFile isFile] at found
      split at found
      next =>
        obtain rfl := Except.ok.inj found
        obtain ⟨names, sorted, rfl⟩ := List.mem_map.mp member
        rw [List.mem_mergeSort, List.mem_filter] at sorted
        exact .inr ⟨names, rfl, sorted.2⟩
      next => cases found

theorem readSource_of_isHyphen (isHyphen : root.isHyphen = true) :
    (readSource disk root).run = decodeSource standardInputName disk.standardInput.run := by
  rw [readSource, if_pos isHyphen]
  rfl

theorem readSource_of_not_isHyphen (isHyphen : root.isHyphen = false) :
    (readSource disk root).run = sourceOf root (disk.read root).run := by
  simp only [readSource, isHyphen, Bool.false_eq_true, if_false, Id.run_bind]
  cases (disk.read root).run with
  | ok content => rfl
  | error error => rfl

end Disk

section System

variable {system : System} {input : ByteArray} {path : Path} {content : ByteArray}

theorem isFile_disk_iff :
    ((system.disk input).isFile path).run = true ↔
      ∃ content, system.resolve path = .ok (.file content) := by
  simp only [System.disk, Id.run]
  split
  next content resolved => simp [resolved]
  next other => simpa using other

theorem read_disk_iff :
    ((system.disk input).read path).run = .ok content ↔
      system.resolve path = .ok (.file content) := by
  simp only [System.disk, Id.run]
  split
  next own resolved => simp [resolved]
  next entries resolved => simp [resolved]
  next error resolved => simp [resolved]

end System

end AeSchema.Files
