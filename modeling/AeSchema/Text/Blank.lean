import AeSchema.Text.CodeRange

/-! Blank characters: those with the Unicode property White_Space. -/

namespace AeSchema.Text

def blankRanges : List CodeRange :=
  [⟨0x09, 0x0d⟩, ⟨0x20, 0x20⟩, ⟨0x85, 0x85⟩, ⟨0xa0, 0xa0⟩, ⟨0x1680, 0x1680⟩, ⟨0x2000, 0x200a⟩,
    ⟨0x2028, 0x2029⟩, ⟨0x202f, 0x202f⟩, ⟨0x205f, 0x205f⟩, ⟨0x3000, 0x3000⟩]

def isBlank (c : Char) : Bool :=
  memRanges c blankRanges

def trimEnd (text : List Char) : List Char :=
  (text.reverse.dropWhile isBlank).reverse

end AeSchema.Text
