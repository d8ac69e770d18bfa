import AeSchema.Proofs.Files.Walk

/-! Which files discovery finds, and in which order. -/

namespace AeSchema.Files

section Names

variable {name extension : List UInt8} {names : List FileName}

end Names

section Disk

variable {disk : Disk Id} {system : System} {directory : Directory} {root : Path}

theorem Node.kind_eq_file_iff {node : Node} :
    node.kind = .file ↔ ∃ content, node = .file content := by
  cases node <;> simp [kind]

theorem Disk.filesBelow_of_walk {entries : List Entry}
    (walked : (disk.walk root).run = .ok entries) :
    (disk.filesBelow root).run = .ok ((entries.filter (·.kind = .file)).map (·.names)) := by
  simp only [filesBelow, Id.run_bind, walked]
  rfl

namespace Disk.Shows

theorem filesBelow (shows : disk.Shows system root)
    (resolved : system.resolve root = .ok (.directory directory)) :
    ∃ found, (disk.filesBelow root).run = .ok found ∧ found.Nodup ∧
      ∀ names, names ∈ found ↔ ∃ content, directory.Reaches names (.file content) := by
  obtain ⟨entries, walked, distinct, each⟩ := shows.walk directory resolved
  refine ⟨_, filesBelow_of_walk walked, distinct.sublist (List.filter_sublist.map _), ?_⟩
  intro names
  simp only [List.mem_map, List.mem_filter, decide_eq_true_eq, each]
  constructor
  · rintro ⟨entry, ⟨⟨node, reaches, kind⟩, isFile⟩, rfl⟩
    obtain ⟨content, rfl⟩ := Node.kind_eq_file_iff.mp (kind ▸ isFile)
    exact ⟨content, reaches⟩
  · rintro ⟨content, reaches⟩
    exact ⟨⟨names, .file⟩, ⟨⟨.file content, reaches, rfl⟩, rfl⟩, rfl⟩

end Disk.Shows

end Disk

end AeSchema.Files
