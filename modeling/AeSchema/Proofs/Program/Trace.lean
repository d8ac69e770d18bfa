import AeSchema.Proofs.Program.Calls

/-! The parser with a record of the values that it begins. The record changes nothing else about a
run, and it holds the calls that were listed without one. -/

namespace AeSchema

/-- An action of the parser whose result comes with the calls made on the way to it. -/
def Recorded (α : Type) : Type :=
  ParseState → EStateM.Result ParseFailure ParseState α × List NestedCall

namespace Recorded

variable {α β : Type}

def silent (action : Parse α) : Recorded α := fun state => (action state, [])

def call (level : Nat) : Recorded Unit := fun state => (.ok () state, [.of level state])

def bind (first : Recorded α) (next : α → Recorded β) : Recorded β := fun state =>
  match first state with
  | (.ok value middle, calls) => ((next value middle).1, calls ++ (next value middle).2)
  | (.error failure after, calls) => (.error failure after, calls)

instance : Monad Recorded where
  pure value := silent (pure value)
  bind := bind

def deeper (inner : Recorded α) : Recorded α := fun state =>
  (Parse.deeper (fun bottom => (inner bottom).1) state,
    (inner { state with depth := state.depth + 1 }).2)

def pair (nested : Recorded (Value Token)) (opening : Token) (entries : Format Token) :
    Recorded (Format Token) := do
  let key ← silent Parse.string
  let _ ← silent (Parse.expect .colon)
  let value ← nested
  silent do
    Parse.noteRepeated opening entries key
    return entries.insert key value

def pairs (nested : Recorded (Value Token)) (opening : Token) :
    Nat → Format Token → Recorded (Format Token)
  | 0, _ => silent (Parse.failHere .endOfInput)
  | fuel + 1, entries => do
      let entries ← pair nested opening entries
      let separator ← silent Parse.next
      match separator.kind with
      | .curlyClose => silent (return entries)
      | .comma => pairs nested opening fuel entries
      | kind => silent (Parse.failAt separator (.noSeparator kind))

def keywordForm (nested : Recorded (Value Token)) (token : Token) : Recorded (Value Token) :=
  match token.keyword? with
  | some .arrayOf => do
      let element ← nested
      silent (return .expr (.arrayOf element token))
  | some .url => silent do
      let literal ← Parse.string
      return .expr (.url literal token)
  | some keyword => silent (Parse.failAt token (.notNested keyword))
  | none => silent (Parse.failAt token (.unknownKeyword token.value))

def form (nested : Recorded (Value Token)) (fuel : Nat) (token : Token) : Recorded (Value Token) :=
  match token.kind with
  | .string => silent (return .text token.value)
  | .identifier => silent do
      let expr ← Parse.reference token
      return .expr expr
  | .curlyOpen => do
      let entries ← pairs nested token fuel .empty
      silent (return .expr (.format entries token))
  | .keyword => keywordForm nested token
  | kind => silent (Parse.failAt token (.noValue kind))

def nested (limit : Option Nat) : Nat → Nat → Recorded (Value Token)
  | 0, level => do
      call level
      silent (Parse.failHere .endOfInput)
  | fuel + 1, level => do
      call level
      let token ← silent Parse.next
      silent (Parse.checkDepth limit token)
      deeper (form (nested limit fuel (level + 1)) fuel token)

def bound (limit : Option Nat) (fuel : Nat) (binder : Binder) : Recorded (Expr Token) := do
  let value ← nested limit fuel 1
  silent (match value with
    | .expr inner => return inner
    | .text _ => Parse.failHere (.bareString binder))

def definition (limit : Option Nat) (fuel : Nat) (token : Token) : Recorded (Expr Token) := do
  let name ← silent (Parse.expect .identifier)
  let value ← bound limit fuel .definition
  silent do
    Parse.define name.value
    return .definition name.value value token

def route (limit : Option Nat) (fuel : Nat) (token : Token) : Recorded (Expr Token) := do
  let path ← silent Parse.string
  let value ← bound limit fuel .route
  silent (return .route path value token)

def response (limit : Option Nat) (fuel : Nat) (token : Token) : Recorded (Expr Token) := do
  let path ← silent Parse.string
  let code ← silent Parse.status
  let value ← bound limit fuel .response
  silent (return .response path code value token)

def top (limit : Option Nat) (fuel : Nat) : Recorded (Expr Token) := do
  let token ← silent Parse.next
  match token.keyword? with
  | some .define => definition limit fuel token
  | some .route => route limit fuel token
  | some .response => response limit fuel token
  | some keyword => silent (Parse.failAt token (.notTopLevel keyword))
  | none => silent (Parse.failAt token (.noKeyword token.kind))

def tops (limit : Option Nat) (fuel : Nat) :
    Nat → List (Expr Token) → Recorded (List (Expr Token))
  | 0, found => silent (Parse.finish found)
  | count + 1, found => fun state =>
      if state.upcoming.isEmpty then silent (Parse.finish found) state
      else (do
        let expr ← top limit fuel
        silent (Parse.note (.parsed expr.kind expr.origin.location))
        tops limit fuel count (expr :: found)) state

def run (limit : Option Nat) (tokens : List Token) :
    EStateM.Result ParseFailure ParseState (List (Expr Token)) × List NestedCall :=
  tops limit tokens.length tokens.length [] (.ofTokens tokens)

/-- What is recorded is a run of the action, and the calls of the run. -/
def Tells (recorded : Recorded α) (action : Parse α) (calls : Calls) : Prop :=
  ∀ state, recorded state = (action state, calls state)

section Rules

variable {limit : Option Nat} {recorded : Recorded α} {action : Parse α} {calls : Calls}

theorem tells_silent (action : Parse α) : Tells (silent action) action Parse.noCalls :=
  fun _ => rfl

theorem Tells.bind {later : α → Recorded β} {next : α → Parse β} {late : α → Calls}
    (first : Tells recorded action calls)
    (second : ∀ value, Tells (later value) (next value) (late value)) :
    Tells (recorded >>= later) (action >>= next)
      (fun state => calls state ++ Parse.callsAfter action late state) := by
  intro state
  show Recorded.bind recorded later state = _
  rw [Recorded.bind, first state]
  cases ran : action state with
  | error failure after => simp [Parse.bind_of_error next ran, Parse.callsAfter, ran]
  | ok value middle =>
      simp [Parse.bind_of_ok next ran, Parse.callsAfter, ran, second value middle]

theorem Tells.after {later : α → Recorded β} {next : α → Parse β} {late : α → Calls}
    (second : ∀ value, Tells (later value) (next value) (late value)) :
    Tells (silent action >>= later) (action >>= next) (Parse.callsAfter action late) :=
  (tells_silent action).bind second

theorem Tells.before (first : Tells recorded action calls) (next : α → Parse β) :
    Tells (recorded >>= fun value => silent (next value)) (action >>= next) calls := by
  intro state
  have whole := (first.bind fun value => tells_silent (next value)) state
  simp only [Parse.callsAfter_noCalls, List.append_nil] at whole
  exact whole

theorem Tells.call (level : Nat) (tells : Tells recorded action calls) :
    Tells (Recorded.call level >>= fun _ => recorded) action
      (fun state => [.of level state] ++ calls state) := by
  intro state
  show Recorded.bind (Recorded.call level) (fun _ => recorded) state = _
  simp only [Recorded.bind, Recorded.call, tells state]

theorem Tells.deeper (tells : Tells recorded action calls) :
    Tells (Recorded.deeper recorded) (Parse.deeper action) (Parse.callsDeeper calls) := by
  intro state
  have same : (fun bottom => (recorded bottom).1) = action :=
    funext fun bottom => congrArg Prod.fst (tells bottom)
  rw [Recorded.deeper, same, tells]
  rfl

end Rules

section Values

variable {recorded : Recorded (Value Token)} {action : Parse (Value Token)} {inner : Calls}
  (tells : Tells recorded action inner)

include tells

theorem tells_pair (opening : Token) (entries : Format Token) :
    Tells (pair recorded opening entries) (Parse.pair action opening entries)
      (Parse.pairCalls inner) :=
  .after fun _ => .after fun _ => tells.before _

theorem tells_pairs (opening : Token) (fuel : Nat) (entries : Format Token) :
    Tells (pairs recorded opening fuel entries) (Parse.pairs action opening fuel entries)
      (Parse.pairsCalls action inner opening fuel entries) := by
  induction fuel generalizing entries with
  | zero => exact tells_silent _
  | succ fuel ih =>
      refine (tells_pair tells opening entries).bind fun entries => .after fun separator => ?_
      cases separator.kind with
      | comma => exact ih entries
      | _ => exact tells_silent _

theorem tells_keywordForm (token : Token) :
    Tells (keywordForm recorded token) (Parse.keywordForm action token)
      (Parse.keywordCalls inner token) := by
  unfold keywordForm Parse.keywordForm Parse.keywordCalls
  cases token.keyword? with
  | none => exact tells_silent _
  | some keyword =>
      cases keyword with
      | arrayOf => exact tells.before _
      | _ => exact tells_silent _

theorem tells_form (fuel : Nat) (token : Token) :
    Tells (form recorded fuel token) (Parse.form action fuel token)
      (Parse.formCalls action inner fuel token) := by
  unfold form Parse.form Parse.formCalls
  cases token.kind with
  | curlyOpen => exact (tells_pairs tells token fuel .empty).before _
  | keyword => exact tells_keywordForm tells token
  | _ => exact tells_silent _

end Values

variable (limit : Option Nat) (fuel : Nat)

theorem tells_nested (level : Nat) :
    Tells (nested limit fuel level) (Parse.nested limit fuel)
      (Parse.nestedCalls limit fuel level) := by
  induction fuel generalizing level with
  | zero => exact (tells_silent _).call level
  | succ fuel ih =>
      refine Tells.call level (.after fun token => .after fun _ => ?_)
      exact (tells_form (ih (level + 1)) fuel token).deeper

theorem tells_bound (binder : Binder) :
    Tells (bound limit fuel binder) (Parse.bound limit fuel binder)
      (Parse.nestedCalls limit fuel 1) :=
  (tells_nested limit fuel 1).before _

theorem tells_top : Tells (top limit fuel) (Parse.top limit fuel) (Parse.topCalls limit fuel) := by
  refine .after fun token => ?_
  cases token.keyword? with
  | none => exact tells_silent _
  | some keyword =>
      cases keyword with
      | define => exact .after fun _ => (tells_bound limit fuel .definition).before _
      | route => exact .after fun _ => (tells_bound limit fuel .route).before _
      | response =>
          exact .after fun _ => .after fun _ => (tells_bound limit fuel .response).before _
      | _ => exact tells_silent _

theorem tells_tops (count : Nat) (found : List (Expr Token)) :
    Tells (tops limit fuel count found) (Parse.tops limit fuel count found)
      (Parse.topsCalls limit fuel count) := by
  induction count generalizing found with
  | zero => exact tells_silent _
  | succ count ih =>
      intro state
      simp only [tops, Parse.tops_succ, Parse.topsCalls]
      split
      next => rfl
      next =>
        have later (expr : Expr Token) : Tells _
            (Parse.note (.parsed expr.kind expr.origin.location) >>= fun _ =>
              Parse.tops limit fuel count (expr :: found)) _ :=
          .after fun _ => ih (expr :: found)
        exact (tells_top limit fuel).bind later state

/-- The calls of a run are those that the parser with a record makes on the same run. -/
theorem run_eq (tokens : List Token) :
    run limit tokens = (runParse limit tokens, runCalls limit tokens) :=
  tells_tops limit tokens.length tokens.length [] _

end Recorded

end AeSchema
