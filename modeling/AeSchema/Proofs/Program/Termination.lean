import AeSchema.Proofs.Program.Descent
import AeSchema.Proofs.Program.Progress
import Mathlib.Data.PFun

/-! The loops over the pairs of an object and over the top-level expressions, with no bound on their
rounds. Every round that is not the last one takes tokens, so both loops come to an end. -/

namespace AeSchema

namespace Parse

variable {α β : Type} {limit : Option Nat}

def topsRound (limit : Option Nat) (found : List (Expr Token)) :
    Parse (List (Expr Token) ⊕ List (Expr Token)) := do
  if (← get).upcoming.isEmpty then return .inl (← finish found)
  else
    let expr ← readTop limit
    note (.parsed expr.kind expr.origin.location)
    return .inr (expr :: found)

/-- Round after round, until one fails or ends the loop with `.inl`; there may be no such round. -/
def loop (round : α → Parse (β ⊕ α)) :
    α × ParseState →. EStateM.Result ParseFailure ParseState β :=
  PFun.fix fun (start, state) => Part.some <|
    match round start state with
    | .ok (.inl result) after => .inl (.ok result after)
    | .ok (.inr later) after => .inr (later, after)
    | .error failure after => .inl (.error failure after)

section Loop

variable {round : α → Parse (β ⊕ α)} {start later : α} {result : β} {state after : ParseState}

theorem loop_of_error {failure : ParseFailure} (ran : round start state = .error failure after) :
    loop round (start, state) = Part.some (.error failure after) := by
  refine Part.eq_some_iff.mpr (PFun.fix_stop ?_)
  simp only [ran, Part.mem_some_iff]

theorem loop_of_last (ran : round start state = .ok (.inl result) after) :
    loop round (start, state) = Part.some (.ok result after) := by
  refine Part.eq_some_iff.mpr (PFun.fix_stop ?_)
  simp only [ran, Part.mem_some_iff]

theorem loop_of_more (ran : round start state = .ok (.inr later) after) :
    loop round (start, state) = loop round (later, after) := by
  refine PFun.fix_fwd_eq ?_
  simp only [ran, Part.mem_some_iff]

theorem loop_eq_some {run : α → Parse β}
    (takes : ∀ start state later after, round start state = .ok (.inr later) after →
      after.upcoming.length < state.upcoming.length)
    (step : ∀ start, run start = round start >>= Sum.elim pure run) :
    loop round (start, state) = Part.some (run start state) := by
  generalize length : state.upcoming.length = left
  induction left using Nat.strongRecOn generalizing start state with
  | ind left ih =>
      rw [step start]
      cases ran : round start state with
      | error failure after => rw [bind_of_error _ ran, loop_of_error ran]
      | ok turn after =>
          rw [bind_of_ok _ ran]
          cases turn with
          | inl result =>
              rw [loop_of_last ran]
              rfl
          | inr later =>
              have shorter := takes start state later after ran
              rw [loop_of_more ran]
              exact ih after.upcoming.length (by omega) rfl

end Loop

theorem loop_pairs (opening : Token) (entries : Format Token) (state : ParseState) :
    loop (pairsRound (readValue limit) opening) (entries, state) =
      Part.some (readPairs limit opening entries state) := by
  refine loop_eq_some (fun entries state _ _ ran => ?_) ((descends_read limit).pairs_eq opening)
  exact (hungry_pairsRound tracked_readValue opening entries).shorter ran

section Tops

variable {found : List (Expr Token)} {state middle : ParseState}

theorem topsRound_eq (found : List (Expr Token)) (state : ParseState) :
    topsRound limit found state =
      if state.upcoming.isEmpty then (finish found >>= fun program => pure (Sum.inl program)) state
      else (do
        let expr ← readTop limit
        note (.parsed expr.kind expr.origin.location)
        return Sum.inr (expr :: found)) state := by
  show (if state.upcoming.isEmpty then _ else _ : Parse _) state = _
  split <;> rfl

theorem topsRound_of_ok {expr : Expr Token} (left : state.upcoming ≠ [])
    (ran : readTop limit state = .ok expr middle) :
    topsRound limit found state = .ok (.inr (expr :: found)) (middle.noted expr) := by
  rw [topsRound_eq, if_neg (by simpa using left), bind_of_ok _ ran]
  rfl

theorem topsRound_of_error {failure : ParseFailure} (left : state.upcoming ≠ [])
    (ran : readTop limit state = .error failure middle) :
    topsRound limit found state = .error failure middle := by
  rw [topsRound_eq, if_neg (by simpa using left), bind_of_error _ ran]

theorem loop_tops_nil (empty : state.upcoming = []) :
    loop (topsRound limit) (found, state) = Part.some (finish found state) := by
  obtain ⟨after, done⟩ := finish_ok found state
  have last : topsRound limit found state = .ok (.inl found.reverse) after := by
    rw [topsRound_eq, if_pos (by simpa using empty), bind_of_ok _ done]
    rfl
  rw [loop_of_last last, done]

theorem loop_tops {fuel count : Nat} (fits : state.upcoming.length ≤ fuel)
    (enough : state.upcoming.length ≤ count) :
    loop (topsRound limit) (found, state) = Part.some (tops limit fuel count found state) := by
  induction count generalizing found state with
  | zero => exact loop_tops_nil (List.eq_nil_of_length_eq_zero (by omega))
  | succ count ih =>
      by_cases empty : state.upcoming = []
      · rw [tops_succ, if_pos (by simpa using empty)]
        exact loop_tops_nil empty
      · have same : top limit fuel state = readTop limit state := top_eq_readTop fits
        cases ran : readTop limit state with
        | error failure middle =>
            rw [loop_of_error (topsRound_of_error empty ran),
              tops_of_top_error empty (same.trans ran)]
        | ok expr middle =>
            have shorter := (takes_top fuel).shorter (same.trans ran)
            have less : (middle.noted expr).upcoming.length + 3 ≤ state.upcoming.length := shorter
            rw [loop_of_more (topsRound_of_ok empty ran), tops_of_top_ok empty (same.trans ran)]
            exact ih (by omega) (by omega)

end Tops

end Parse

open Parse

/-- Whether it succeeds or fails, reading a value keeps depth and scope and does not go back;
success has taken a token at least, for a top-level expression three. So nothing goes on for ever:
the equations of the recursion, in which there is no fuel, have one solution, the parser is that
solution, and both of its loops come to an end on all tokens. -/
theorem descent_progresses (limit : Option Nat) :
    (∀ fuel state,
      Framed state (endState (nested limit fuel state)) ∧
      ∀ value after, nested limit fuel state = .ok value after → state.index + 1 ≤ after.index) ∧
    (∀ fuel state expr after, top limit fuel state = .ok expr after →
      after.depth = state.depth ∧ after.tokens = state.tokens ∧ state.index + 3 ≤ after.index) ∧
    (∀ value pairs,
      Descends limit value pairs ↔ value = readValue limit ∧ pairs = readPairs limit) ∧
    (∀ fuel state, state.upcoming.length ≤ fuel →
      nested limit fuel state = readValue limit state ∧
      top limit fuel state = readTop limit state) ∧
    (∀ opening entries state, loop (pairsRound (readValue limit) opening) (entries, state) =
      Part.some (readPairs limit opening entries state)) ∧
    ∀ tokens,
      loop (topsRound limit) ([], .ofTokens tokens) = Part.some (runParse limit tokens) := by
  refine ⟨fun fuel state => ⟨framed_nested fuel state, fun value after ran => ?_⟩,
    fun fuel => takes_top fuel, fun value pairs => descends_iff,
    fun fuel state enough => ⟨nested_eq_readValue enough, top_eq_readTop enough⟩,
    fun opening entries state => loop_pairs opening entries state,
    fun tokens => loop_tops (Nat.le_refl _) (Nat.le_refl _)⟩
  exact (takes_nested fuel state value after ran).2.2

/-- A definition inside two values, with an object that uses a key twice; and that object inside 254
values, where a string in it is one level too deep. -/
theorem descent_progresses_sample :
    let token (kind : TokenKind) (value : String) : Token := ⟨value, kind, ⟨1, 1⟩, ⟨0, 0⟩⟩
    let text := token .string "k"
    let colon := token .colon ":"
    let comma := token .comma ","
    let array := token .keyword "ArrayOf"
    let opening := token .curlyOpen "\x7b"
    let object := [opening, text, colon, array, text, comma, text, colon, text,
      token .curlyClose "\x7d"]
    let outer : ParseState :=
      ⟨[comma], token .keyword "def" :: token .identifier "A" :: object, .empty, 2, []⟩
    let inner : ParseState := ⟨[comma], object, .empty, 2, []⟩
    let deep : ParseState := ⟨[comma], object, .empty, 254, []⟩
    (∃ expr after, top (some nestingLimit) 12 outer = .ok expr after ∧
      after.depth = 2 ∧ 4 ≤ after.index) ∧
    (∃ value after, nested (some nestingLimit) 10 inner = .ok value after ∧
      readValue (some nestingLimit) inner = .ok value after ∧ 2 ≤ after.index) ∧
    ∃ failure after, nested (some nestingLimit) 10 deep = .error failure after ∧
      failure.fault = .tooDeep 256 ∧ Framed deep after := by
  intro token text colon comma array opening object outer inner deep
  obtain ⟨values, tops, -, enough, -⟩ := descent_progresses (some nestingLimit)
  refine ⟨?_, ?_, ?_⟩
  · have succeeds : (match top (some nestingLimit) 12 outer with
        | .ok .. => true
        | .error .. => false) = true := by decide +kernel
    cases ran : top (some nestingLimit) 12 outer with
    | error failure after => simp [ran] at succeeds
    | ok expr after =>
        obtain ⟨depth, _, further⟩ := tops 12 outer expr after ran
        exact ⟨expr, after, rfl, depth, further⟩
  · have succeeds : (match nested (some nestingLimit) 10 inner with
        | .ok .. => true
        | .error .. => false) = true := by decide +kernel
    cases ran : nested (some nestingLimit) 10 inner with
    | error failure after => simp [ran] at succeeds
    | ok value after =>
        have same := (enough 10 inner (Nat.le_refl _)).1
        exact ⟨value, after, rfl, same.symm.trans ran, (values 10 inner).2 value after ran⟩
  · have fails : (match nested (some nestingLimit) 10 deep with
        | .ok .. => none
        | .error failure _ => some failure.fault) = some (.tooDeep 256) := by decide +kernel
    have framed := (values 10 deep).1
    cases ran : nested (some nestingLimit) 10 deep with
    | ok value after => simp [ran] at fails
    | error failure after =>
        rw [ran] at framed
        exact ⟨failure, after, rfl, by simpa [ran] using fails, framed⟩

end AeSchema
