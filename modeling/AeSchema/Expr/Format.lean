import AeSchema.Expr.Basic

/-! Format objects as maps from keys to values that keep the order in which keys came first. -/

namespace AeSchema.Format

variable {Origin : Type}

def toList : Format Origin → List (String × Value Origin)
  | empty => []
  | entry key value rest => (key, value) :: rest.toList

def keys (format : Format Origin) : List String :=
  format.toList.map (·.1)

def size (format : Format Origin) : Nat :=
  format.toList.length

def isEmpty : Format Origin → Bool
  | empty => true
  | entry .. => false

def get? (key : String) : Format Origin → Option (Value Origin)
  | empty => none
  | entry first value rest => if first = key then some value else rest.get? key

/-- A new key goes to the end; a known one keeps its place and gets the new value. -/
def insert (key : String) (value : Value Origin) : Format Origin → Format Origin
  | empty => entry key value empty
  | entry first old rest =>
      if first = key then entry first value rest else entry first old (rest.insert key value)

/-- An insertion together with the value that it replaces, if there is one. -/
def exchange (key : String) (value : Value Origin) :
    Format Origin → Option (Value Origin) × Format Origin
  | empty => (none, entry key value empty)
  | entry first old rest =>
      if first = key then (some old, entry first value rest)
      else
        let (replaced?, rest) := rest.exchange key value
        (replaced?, entry first old rest)

theorem exchange_eq (key : String) (value : Value Origin) (format : Format Origin) :
    format.exchange key value = (format.get? key, format.insert key value) := by
  match format with
  | empty => rfl
  | entry first old rest =>
      by_cases same : first = key
      · simp [exchange, get?, insert, same]
      · simp [exchange, get?, insert, same, exchange_eq key value rest]

@[simp]
theorem keys_empty : (empty : Format Origin).keys = [] := rfl

@[simp]
theorem keys_entry (key : String) (value : Value Origin) (rest : Format Origin) :
    (entry key value rest).keys = key :: rest.keys := rfl

theorem keys_insert (key : String) (value : Value Origin) (format : Format Origin) :
    (format.insert key value).keys =
      if key ∈ format.keys then format.keys else format.keys ++ [key] := by
  match format with
  | empty => simp [insert]
  | entry first old rest =>
      by_cases same : first = key
      · simp [insert, same]
      · rw [insert, if_neg same, keys_entry, keys_insert key value rest, keys_entry]
        by_cases present : key ∈ rest.keys
        · simp [present]
        · simp [present, Ne.symm same]

theorem get?_insert (key query : String) (value : Value Origin) (format : Format Origin) :
    (format.insert key value).get? query =
      if key = query then some value else format.get? query := by
  match format with
  | empty => simp [insert, get?]
  | entry first old rest =>
      by_cases same : first = key
      · subst same
        by_cases asked : first = query <;> simp [insert, get?, asked]
      · rw [insert, if_neg same, get?, get?, get?_insert key query value rest]
        by_cases asked : first = query
        · have other : key ≠ query := fun equal => same (asked.trans equal.symm)
          simp [asked, other]
        · simp [asked]

end AeSchema.Format
