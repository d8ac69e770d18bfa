/-! Inclusive ranges of code points, from which character classes are built. -/

namespace AeSchema.Text

structure CodeRange where
  first : Nat
  last : Nat
  deriving DecidableEq, Repr

def CodeRange.contains (range : CodeRange) (c : Char) : Bool :=
  range.first ≤ c.toNat && c.toNat ≤ range.last

def memRanges (c : Char) (ranges : List CodeRange) : Bool :=
  ranges.any (·.contains c)

end AeSchema.Text
