import AeSchema.Expr.Format
import AeSchema.Program.Fault
import AeSchema.Program.Scope

/-! Reading a program from tokens, one after the other and without going back.

    program := top*
    top     := def IDENTIFIER value | route STRING value | response STRING IDENTIFIER value
    value   := STRING | IDENTIFIER | { pair (, pair)* } | Url STRING | ArrayOf value
    pair    := STRING : value

The value of a definition, route or response is no bare string; a name is known only after the
definition that introduces it; values nest up to a limit. -/

namespace AeSchema

open Source

inductive Notice where
  | duplicateKey (opening : Location)
  | parsed (kind : ExprKind) (location : Location)
  | finished (expressions definitions : Nat)
  deriving DecidableEq, Repr

structure ParseState where
  /-- Latest first. -/
  consumed : List Token
  upcoming : List Token
  scope : Scope
  /-- How many values are being read, each inside the one before. -/
  depth : Nat
  /-- Latest first. -/
  notices : List Notice

/-- The state outlives a failure. -/
abbrev Parse := EStateM ParseFailure ParseState

def ParseState.ofTokens (tokens : List Token) : ParseState :=
  ⟨[], tokens, .empty, 0, []⟩

namespace Parse

variable {α : Type}

def failAt (token : Token) (fault : ParseFault) : Parse α := fun state =>
  .error ⟨fault, some token⟩ state

def failHere (fault : ParseFault) : Parse α := fun state =>
  .error ⟨fault, state.consumed.head?⟩ state

def next : Parse Token := fun state =>
  match state.upcoming with
  | [] => failHere .endOfInput state
  | token :: rest =>
      .ok token { state with consumed := token :: state.consumed, upcoming := rest }

def note (notice : Notice) : Parse Unit := fun state =>
  .ok () { state with notices := notice :: state.notices }

def define (name : String) : Parse Unit := fun state =>
  .ok () { state with scope := state.scope.insert name }

/-- Fails at `token` if a value that starts there would lie deeper than `limit`. -/
def checkDepth (limit : Option Nat) (token : Token) : Parse Unit := fun state =>
  match limit with
  | none => .ok () state
  | some bound => if bound ≤ state.depth then failAt token (.tooDeep bound) state else .ok () state

def deeper (inner : Parse α) : Parse α := fun state =>
  match inner { state with depth := state.depth + 1 } with
  | .ok result after => .ok result { after with depth := after.depth - 1 }
  | .error failure after => .error failure { after with depth := after.depth - 1 }

def expect (kind : TokenKind) : Parse Token := do
  let token ← next
  if token.kind = kind then return token else failAt token (.unexpected kind token.kind)

def string : Parse String := do
  return (← expect .string).value

/-- A name stands for its definition, which must be complete. -/
def reference (token : Token) : Parse (Expr Token) := fun state =>
  if state.scope.contains token.value then .ok (.reference token.value token) state
  else failAt token (.unknownName token.value) state

def noteRepeated (opening : Token) (entries : Format Token) (key : String) : Parse Unit :=
  if (entries.get? key).isSome then note (.duplicateKey opening.location) else return ()

def pair (nested : Parse (Value Token)) (opening : Token) (entries : Format Token) :
    Parse (Format Token) := do
  let key ← string
  let _ ← expect .colon
  let value ← nested
  noteRepeated opening entries key
  return entries.insert key value

def pairs (nested : Parse (Value Token)) (opening : Token) :
    Nat → Format Token → Parse (Format Token)
  | 0, _ => failHere .endOfInput
  | fuel + 1, entries => do
      let entries ← pair nested opening entries
      let separator ← next
      match separator.kind with
      | .curlyClose => return entries
      | .comma => pairs nested opening fuel entries
      | kind => failAt separator (.noSeparator kind)

def keywordForm (nested : Parse (Value Token)) (token : Token) : Parse (Value Token) :=
  match token.keyword? with
  | some .arrayOf => do
      let element ← nested
      return .expr (.arrayOf element token)
  | some .url => do
      let literal ← string
      return .expr (.url literal token)
  | some keyword => failAt token (.notNested keyword)
  | none => failAt token (.unknownKeyword token.value)

def form (nested : Parse (Value Token)) (fuel : Nat) (token : Token) : Parse (Value Token) :=
  match token.kind with
  | .string => return .text token.value
  | .identifier => do
      let expr ← reference token
      return .expr expr
  | .curlyOpen => do
      let entries ← pairs nested token fuel .empty
      return .expr (.format entries token)
  | .keyword => keywordForm nested token
  | kind => failAt token (.noValue kind)

/-- A value at any depth. Every value and every pair takes a token, so the number of tokens that
are left is enough fuel. -/
def nested (limit : Option Nat) : Nat → Parse (Value Token)
  | 0 => failHere .endOfInput
  | fuel + 1 => do
      let token ← next
      checkDepth limit token
      deeper (form (nested limit fuel) fuel token)

def bound (limit : Option Nat) (fuel : Nat) (binder : Binder) : Parse (Expr Token) := do
  match ← nested limit fuel with
  | .expr inner => return inner
  | .text _ => failHere (.bareString binder)

/-- Three ASCII digits, the first not zero. -/
def status? (token : Token) : Option Nat :=
  match token.kind, token.value.toList with
  | .identifier, [hundreds, tens, ones] =>
      if hundreds ≠ '0' ∧ hundreds.isDigit ∧ tens.isDigit ∧ ones.isDigit then
        some ((hundreds.toNat - 48) * 100 + (tens.toNat - 48) * 10 + (ones.toNat - 48))
      else none
  | _, _ => none

def status : Parse Nat := do
  let code ← next
  match status? code with
  | none => failAt code .badStatus
  | some status => return status

/-- The name is known only from here on, so the value cannot refer to it. -/
def definition (limit : Option Nat) (fuel : Nat) (token : Token) : Parse (Expr Token) := do
  let name ← expect .identifier
  let value ← bound limit fuel .definition
  define name.value
  return .definition name.value value token

def route (limit : Option Nat) (fuel : Nat) (token : Token) : Parse (Expr Token) := do
  let path ← string
  let value ← bound limit fuel .route
  return .route path value token

def response (limit : Option Nat) (fuel : Nat) (token : Token) : Parse (Expr Token) := do
  let path ← string
  let code ← status
  let value ← bound limit fuel .response
  return .response path code value token

def top (limit : Option Nat) (fuel : Nat) : Parse (Expr Token) := do
  let token ← next
  match token.keyword? with
  | some .define => definition limit fuel token
  | some .route => route limit fuel token
  | some .response => response limit fuel token
  | some keyword => failAt token (.notTopLevel keyword)
  | none => failAt token (.noKeyword token.kind)

def finish (found : List (Expr Token)) : Parse (List (Expr Token)) := do
  note (.finished found.length (← get).scope.size)
  return found.reverse

/-- Top-level expressions until the tokens run out; `found` holds those before, latest first. -/
def tops (limit : Option Nat) (fuel : Nat) :
    Nat → List (Expr Token) → Parse (List (Expr Token))
  | 0, found => finish found
  | count + 1, found => do
      if (← get).upcoming.isEmpty then finish found
      else
        let expr ← top limit fuel
        note (.parsed expr.kind expr.origin.location)
        tops limit fuel count (expr :: found)

end Parse

def nestingLimit : Nat := 256

def runParse (limit : Option Nat) (tokens : List Token) :
    EStateM.Result ParseFailure ParseState (List (Expr Token)) :=
  Parse.tops limit tokens.length tokens.length [] (.ofTokens tokens)

def parseWithin (limit : Option Nat) (tokens : List Token) :
    Except ParseFailure (List (Expr Token)) :=
  match runParse limit tokens with
  | .ok program _ => .ok program
  | .error failure _ => .error failure

def parse (tokens : List Token) : Except ParseFailure (List (Expr Token)) :=
  parseWithin (some nestingLimit) tokens

end AeSchema
