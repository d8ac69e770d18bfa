import AeSchema.Text.Unprintable

/-! Quoted text as listings show it: a character that cannot be shown as it is becomes an escape,
at every position of the text. -/

namespace AeSchema.Text

/-- The escape `\u{…}` with the code point in lower-case hexadecimal, not padded. -/
def codePointEscape (c : Char) : List Char :=
  ['\\', 'u', '{'] ++ Nat.toDigits 16 c.toNat ++ ['}']

def escape (delimiter c : Char) : List Char :=
  if c = '\x00' then ['\\', '0']
  else if c = '\t' then ['\\', 't']
  else if c = '\r' then ['\\', 'r']
  else if c = '\n' then ['\\', 'n']
  else if c = '\\' ∨ c = delimiter then ['\\', c]
  else if isUnprintable c then codePointEscape c
  else [c]

def quotedBy (delimiter : Char) (text : List Char) : List Char :=
  delimiter :: (text.flatMap (escape delimiter) ++ [delimiter])

def quoted (text : String) : String :=
  String.ofList (quotedBy '"' text.toList)

def quotedChar (c : Char) : String :=
  String.ofList (quotedBy '\'' [c])

end AeSchema.Text
