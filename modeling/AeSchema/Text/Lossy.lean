/-! Bytes shown as text where they need not be text: U+FFFD stands for every longest part that
begins no character. -/

namespace AeSchema.Text

/-- A character of which some bytes are read, and the bounds of the next one. -/
structure Begun where
  code : Nat
  least : UInt8
  greatest : UInt8
  /-- How many bytes follow the next one. -/
  more : Nat

/-- What a first byte promises. The bounds keep out longer forms of a character, surrogates and all
beyond U+10FFFF. -/
def Begun.ofLead? (byte : UInt8) : Option Begun :=
  if 0xc2 ≤ byte ∧ byte ≤ 0xdf then some ⟨byte.toNat % 32, 0x80, 0xbf, 0⟩
  else if 0xe0 ≤ byte ∧ byte ≤ 0xef then
    some ⟨byte.toNat % 16, if byte = 0xe0 then 0xa0 else 0x80,
      if byte = 0xed then 0x9f else 0xbf, 1⟩
  else if 0xf0 ≤ byte ∧ byte ≤ 0xf4 then
    some ⟨byte.toNat % 8, if byte = 0xf0 then 0x90 else 0x80,
      if byte = 0xf4 then 0x8f else 0xbf, 2⟩
  else none

def replacement : Char := '\ufffd'

/-- What is shown for a byte between two characters, and the character that it begins. -/
def lossyLead (byte : UInt8) : List Char × Option Begun :=
  if byte < 0x80 then ([Char.ofNat byte.toNat], none)
  else match Begun.ofLead? byte with
    | some begun => ([], some begun)
    | none => ([replacement], none)

def lossyStep : Option Begun → UInt8 → List Char × Option Begun
  | none, byte => lossyLead byte
  | some begun, byte =>
      if begun.least ≤ byte ∧ byte ≤ begun.greatest then
        let code := 64 * begun.code + byte.toNat % 64
        match begun.more with
        | 0 => ([Char.ofNat code], none)
        | more + 1 => ([], some ⟨code, 0x80, 0xbf, more⟩)
      else (replacement :: (lossyLead byte).1, (lossyLead byte).2)

def lossyFrom : Option Begun → List UInt8 → List Char
  | none, [] => []
  | some _, [] => [replacement]
  | begun?, byte :: rest => (lossyStep begun? byte).1 ++ lossyFrom (lossyStep begun? byte).2 rest

def lossy (bytes : List UInt8) : String :=
  String.ofList (lossyFrom none bytes)

/-- A character, one that breaks off, a longer form of the slash, and one that is never finished. -/
example : lossy [0x61, 0xc3, 0xa9, 0xe2, 0x82, 0x62, 0xc0, 0xaf, 0xf0, 0x9f] =
    "aé\ufffdb\ufffd\ufffd\ufffd" := by
  decide +kernel

end AeSchema.Text
