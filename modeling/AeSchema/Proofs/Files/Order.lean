import AeSchema.Files.Path
import AeSchema.Proofs.Text.Split
import Mathlib.Data.List.Lex

/-! Paths as sequences of components, and their order, which compares component by component and so
is not that of their bytes. -/

namespace AeSchema.Files

open Text

inductive Component where
  | root
  | here
  | parent
  | name (name : FileName)
  deriving DecidableEq

namespace Component

def rank : Component → Nat
  | root => 0
  | here => 1
  | parent => 2
  | name _ => 3

end Component

structure FileName.Proper (name : FileName) : Prop where
  nonempty : name ≠ []
  whole : slash ∉ name
  elsewhere : name ≠ FileName.here
  below : name ≠ FileName.parent

instance (name : FileName) : Decidable name.Proper :=
  decidable_of_iff
    (name ≠ [] ∧ slash ∉ name ∧ name ≠ FileName.here ∧ name ≠ FileName.parent)
    ⟨fun ⟨nonempty, whole, elsewhere, below⟩ => ⟨nonempty, whole, elsewhere, below⟩,
      fun ⟨nonempty, whole, elsewhere, below⟩ => ⟨nonempty, whole, elsewhere, below⟩⟩

namespace Path

variable {root : Path} {names first second : List FileName}

end Path

end AeSchema.Files
