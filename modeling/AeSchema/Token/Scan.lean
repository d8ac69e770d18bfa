import AeSchema.Source.Located
import AeSchema.Text.Blank
import AeSchema.Token.Basic

/-! Scanning: from located characters to tokens, stopping at the first defect of a string. -/

namespace AeSchema

open Source Text

inductive ScanFault where
  | badEscape (c : Char)
  | unclosedString
  deriving DecidableEq, Repr

namespace ScanFault

def message : ScanFault → String
  | badEscape c =>
      "character " ++ quotedChar c ++ " does not correspond to any escape sequence"
  | unclosedString => "unexpected EOF while scanning string literal"

def help : ScanFault → String
  | badEscape _ => "supported escapes are \\\\ \\n \\t \\r \\\""
  | unclosedString => "close the string with `\"`"

end ScanFault

structure ScanFailure where
  fault : ScanFault
  culprit : LocatedChar
  deriving DecidableEq, Repr

def unescape? : Char → Option Char
  | '\\' => some '\\'
  | 'n' => some '\n'
  | 't' => some '\t'
  | 'r' => some '\r'
  | '"' => some '"'
  | _ => none

def endsWord (c : Char) : Bool :=
  isBlank c || (TokenKind.ofPunctuation? c).isSome

/-- Reads a string whose quote `opening` is already read; `value` is what it holds so far, latest
first. What is left to be read comes with the result, also behind a fault. -/
def scanString (opening : LocatedChar) (value : List Char) :
    List LocatedChar → Except ScanFailure Token × List LocatedChar
  | [] => (.error ⟨.unclosedString, opening⟩, [])
  | c :: rest =>
      if c.char = '"' then
        let token := ⟨String.ofList value.reverse, .string, opening.location,
          ⟨opening.offset, c.span.stop⟩⟩
        (.ok token, rest)
      else if c.char = '\\' then
        match rest with
        | [] => (.error ⟨.unclosedString, opening⟩, [])
        | escaped :: rest =>
            match unescape? escaped.char with
            | none => (.error ⟨.badEscape escaped.char, escaped⟩, rest)
            | some plain => scanString opening (plain :: value) rest
      else scanString opening (c.char :: value) rest

theorem scanString_suffix (opening : LocatedChar) (value : List Char)
    (chars : List LocatedChar) : (scanString opening value chars).2 <:+ chars := by
  fun_induction scanString opening value chars with
  | case1 => exact List.suffix_refl _
  | case2 _ c rest => exact List.suffix_cons c rest
  | case3 => exact List.nil_suffix
  | case4 _ c _ _ escaped rest =>
      exact (List.suffix_cons escaped rest).trans (List.suffix_cons c _)
  | case5 _ c _ _ escaped rest plain _ ih =>
      exact ih.trans ((List.suffix_cons escaped rest).trans (List.suffix_cons c _))
  | case6 _ c rest _ _ ih => exact ih.trans (List.suffix_cons c rest)

/-- Reads the word that starts with `first`: as long as possible, and reserved or not. -/
def scanWord (first : LocatedChar) (rest : List LocatedChar) : Token × List LocatedChar :=
  let inWord := fun c : LocatedChar => !endsWord c.char
  let tail := rest.takeWhile inWord
  let word := String.ofList ((first :: tail).map (·.char))
  let kind := if (Keyword.ofText? word).isSome then .keyword else .identifier
  let last := tail.getLast?.getD first
  (⟨word, kind, first.location, ⟨first.offset, last.span.stop⟩⟩, rest.dropWhile inWord)

structure Scanner where
  /-- Punctuation that was read to see where a word ends. -/
  pending? : Option LocatedChar
  upcoming : List LocatedChar
  /-- Nothing is read any more, even if characters are left: the text has come to its end, or one of
  its strings has gone wrong. -/
  done : Bool

namespace Scanner

def ofText (text : String) : Scanner :=
  ⟨none, locate text, false⟩

def unread (scanner : Scanner) : List LocatedChar :=
  scanner.pending?.toList ++ scanner.upcoming

/-- Goes on behind a word: a blank that ends it is passed over, anything else waits. -/
def behindWord : List LocatedChar → Scanner
  | [] => ⟨none, [], false⟩
  | ender :: rest => if isBlank ender.char then ⟨none, rest, false⟩ else ⟨some ender, rest, false⟩

theorem behindWord_suffix (chars : List LocatedChar) : (behindWord chars).unread <:+ chars := by
  unfold behindWord
  split
  next => exact List.suffix_refl _
  next ender rest =>
    split
    next => exact List.suffix_cons ender rest
    next => exact List.suffix_refl _

end Scanner

/-- Reads the token that starts with `first`. -/
def scanToken (first : LocatedChar) (rest : List LocatedChar) :
    Except ScanFailure Token × Scanner :=
  match TokenKind.ofPunctuation? first.char with
  | some kind =>
      (.ok ⟨String.singleton first.char, kind, first.location, first.span⟩, ⟨none, rest, false⟩)
  | none =>
      if first.char = '"' then
        match scanString first [] rest with
        | (.ok literal, rest) => (.ok literal, ⟨none, rest, false⟩)
        | (.error failure, rest) => (.error failure, ⟨none, rest, true⟩)
      else
        let (word, rest) := scanWord first rest
        (.ok word, .behindWord rest)

theorem scanToken_suffix (first : LocatedChar) (chars : List LocatedChar) :
    (scanToken first chars).2.unread <:+ chars := by
  unfold scanToken
  split
  next => exact List.suffix_refl chars
  next =>
    split
    next =>
      have suffix := scanString_suffix first [] chars
      split
      next literal rest read =>
        rw [read] at suffix
        exact suffix
      next failure rest read =>
        rw [read] at suffix
        exact suffix
    next => exact (Scanner.behindWord_suffix _).trans (List.dropWhile_suffix _)

namespace Scanner

/-- Skips blanks and reads one token. -/
def next? (scanner : Scanner) : Option (Except ScanFailure Token) × Scanner :=
  if scanner.done then (none, scanner)
  else
    match scanner.unread.dropWhile (isBlank ·.char) with
    | [] => (none, ⟨none, [], true⟩)
    | first :: rest =>
        let (result, scanner) := scanToken first rest
        (some result, scanner)

/-- What gives a token or a fault has read at least one character. -/
theorem next?_reads {scanner after : Scanner} {result : Except ScanFailure Token}
    (step : scanner.next? = (some result, after)) :
    ∃ read, read ≠ [] ∧ scanner.unread = read ++ after.unread := by
  unfold next? at step
  split at step
  next => cases step
  next =>
    split at step
    next => cases step
    next first chars found =>
      have skipped : first :: chars <:+ scanner.unread := found ▸ List.dropWhile_suffix _
      have left : after.unread <:+ chars := by
        cases step
        exact scanToken_suffix first chars
      obtain ⟨blanks, split⟩ := skipped
      obtain ⟨spelled, rfl⟩ := left
      exact ⟨blanks ++ first :: spelled, by simp, by simp [← split]⟩

def steps (scanner : Scanner) : Nat → List (Option (Except ScanFailure Token))
  | 0 => []
  | count + 1 =>
      let (result, scanner) := scanner.next?
      result :: scanner.steps count

/-- Reads on to the end or to the first fault; `found` holds the tokens before, latest first.
`fuel` bounds the number of tokens. -/
def drain (scanner : Scanner) (found : List Token) : Nat → List Token × Option ScanFailure
  | 0 => (found.reverse, none)
  | fuel + 1 =>
      match scanner.next? with
      | (none, _) => (found.reverse, none)
      | (some (.ok token), scanner) => scanner.drain (token :: found) fuel
      | (some (.error failure), _) => (found.reverse, some failure)

end Scanner

/-- The tokens of a text up to its end or to its first fault. A token takes at least one character,
so there are no more tokens than characters. -/
def scan (text : String) : List Token × Option ScanFailure :=
  let scanner := Scanner.ofText text
  scanner.drain [] scanner.unread.length

def tokenize (text : String) : Except ScanFailure (List Token) :=
  match scan text with
  | (tokens, none) => .ok tokens
  | (_, some failure) => .error failure

end AeSchema
