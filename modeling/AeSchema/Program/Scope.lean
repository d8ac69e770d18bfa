import Std.Data.TreeSet.Lemmas

/-! The names that the definitions of a schema have introduced so far. -/

namespace AeSchema

/-- Kept twice, as a list for the order and as a set for the questions whether a name is known. -/
structure Scope where
  latestFirst : List String
  known : Std.TreeSet String
  distinct : latestFirst.Nodup
  mem_known : ∀ name, name ∈ known ↔ name ∈ latestFirst

namespace Scope

def empty : Scope where
  latestFirst := []
  known := ∅
  distinct := .nil
  mem_known := by simp

/-- In the order in which they were first defined. -/
def names (scope : Scope) : List String :=
  scope.latestFirst.reverse

def size (scope : Scope) : Nat :=
  scope.latestFirst.length

def isEmpty (scope : Scope) : Bool :=
  scope.latestFirst.isEmpty

def contains (scope : Scope) (name : String) : Bool :=
  scope.known.contains name

theorem contains_iff {scope : Scope} {name : String} :
    scope.contains name = true ↔ name ∈ scope.names := by
  rw [contains, Std.TreeSet.contains_iff_mem, scope.mem_known, names, List.mem_reverse]

def add (scope : Scope) (name : String) (new : ¬scope.contains name = true) : Scope where
  latestFirst := name :: scope.latestFirst
  known := scope.known.insert name
  distinct := by
    rw [contains_iff, names, List.mem_reverse] at new
    exact List.nodup_cons.mpr ⟨new, scope.distinct⟩
  mem_known other := by
    rw [Std.TreeSet.mem_insert, scope.mem_known, List.mem_cons, Std.compare_eq_iff_eq, eq_comm]

/-- The scope with `name`, and whether the name is new. -/
def insertNew (scope : Scope) (name : String) : Bool × Scope :=
  if known : scope.contains name then (false, scope) else (true, scope.add name known)

def insert (scope : Scope) (name : String) : Scope :=
  (scope.insertNew name).2

theorem names_insert (scope : Scope) (name : String) :
    (scope.insert name).names =
      if scope.contains name then scope.names else scope.names ++ [name] := by
  unfold insert insertNew
  split <;> simp [names, add]

end Scope

end AeSchema
