/-! JSON values whose objects keep the order of their fields, written on one line or indented by
two spaces. -/

namespace AeSchema.Text

inductive Json where
  | number (value : Nat)
  | string (value : String)
  | array (items : List Json)
  | object (fields : List (String × Json))

namespace Json

/-- Control characters are escaped, by a letter where there is one; all else stays as it is. -/
def escape (c : Char) : List Char :=
  if c = '"' then ['\\', '"']
  else if c = '\\' then ['\\', '\\']
  else if c = '\x08' then ['\\', 'b']
  else if c = '\x0c' then ['\\', 'f']
  else if c = '\n' then ['\\', 'n']
  else if c = '\r' then ['\\', 'r']
  else if c = '\t' then ['\\', 't']
  else if c.toNat < 0x20 then
    ['\\', 'u', '0', '0', Nat.digitChar (c.toNat / 16), Nat.digitChar (c.toNat % 16)]
  else [c]

def quoted (text : String) : String :=
  String.ofList ('"' :: (text.toList.flatMap escape ++ ['"']))

def compact : Json → String
  | .number value => Nat.repr value
  | .string value => quoted value
  | .array items => "[" ++ ",".intercalate (items.map compact) ++ "]"
  | .object fields =>
      "\x7b" ++
        ",".intercalate (fields.map fun field => quoted field.1 ++ ":" ++ field.2.compact) ++
        "\x7d"
termination_by value => sizeOf value
decreasing_by
  · decreasing_tactic
  · rename_i member
    have smaller := List.sizeOf_lt_of_mem member
    have : sizeOf field = 1 + sizeOf field.1 + sizeOf field.2 := by cases field; rfl
    simp only [Json.object.sizeOf_spec]
    omega

def lineBreak (level : Nat) : String :=
  String.ofList ('\n' :: List.replicate (2 * level) ' ')

/-- One item or field a line, indented below its container; an empty container stays closed. -/
def pretty (level : Nat) : Json → String
  | .number value => Nat.repr value
  | .string value => quoted value
  | .array [] => "[]"
  | .array items =>
      "[" ++ ",".intercalate (items.map fun item => lineBreak (level + 1) ++ item.pretty (level + 1))
        ++ lineBreak level ++ "]"
  | .object [] => "\x7b\x7d"
  | .object fields =>
      "\x7b" ++ ",".intercalate (fields.map fun field =>
          lineBreak (level + 1) ++ quoted field.1 ++ ": " ++ field.2.pretty (level + 1))
        ++ lineBreak level ++ "\x7d"
termination_by value => sizeOf value
decreasing_by
  · decreasing_tactic
  · rename_i member
    have smaller := List.sizeOf_lt_of_mem member
    have : sizeOf field = 1 + sizeOf field.1 + sizeOf field.2 := by cases field; rfl
    simp only [Json.object.sizeOf_spec]
    omega

end Json

end AeSchema.Text
