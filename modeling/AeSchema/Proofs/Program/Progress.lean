import AeSchema.Proofs.Program.Frame

/-! Reading moves on: a value takes a token at least and keeps depth and scope, a top-level
expression takes three and keeps the depth. -/

namespace AeSchema

def ParseState.index (state : ParseState) : Nat :=
  state.consumed.length

def ParseState.tokens (state : ParseState) : List Token :=
  state.consumed.reverse ++ state.upcoming

/-- Depth, scope and tokens stay as they were, and the place among the tokens does not move back. -/
structure Framed (before after : ParseState) : Prop where
  depth : after.depth = before.depth
  scope : after.scope = before.scope
  tokens : after.tokens = before.tokens
  index : before.index ≤ after.index
  within : after.index ≤ before.tokens.length

theorem ParseState.index_le_length_tokens (state : ParseState) :
    state.index ≤ state.tokens.length := by
  simp [index, tokens]

namespace Reads

variable {before after : ParseState} {tokens : List Token}

theorem index (reads : Reads before tokens after) : after.index = before.index + tokens.length := by
  rw [ParseState.index, ParseState.index, reads.consumed, List.length_append, List.length_reverse,
    Nat.add_comm]

theorem tokens_eq (reads : Reads before tokens after) : after.tokens = before.tokens := by
  rw [ParseState.tokens, ParseState.tokens, reads.consumed, reads.upcoming, List.reverse_append,
    List.reverse_reverse, List.append_assoc]

theorem framed (reads : Reads before tokens after) : Framed before after := by
  refine ⟨reads.depth, reads.scope, reads.tokens_eq, ?_, ?_⟩
  · rw [reads.index]
    exact Nat.le_add_right _ _
  · rw [← reads.tokens_eq]
    exact after.index_le_length_tokens

end Reads

namespace Parse

variable {α β : Type} {limit : Option Nat}

theorem framed_nested (fuel : Nat) (state : ParseState) :
    Framed state (endState (nested limit fuel state)) := by
  obtain ⟨_, reads⟩ := tracked_nested fuel state
  exact reads.framed

/-- Success leaves the depth as it was and the place at least `count` tokens further on. -/
def Takes (count : Nat) (action : Parse α) : Prop :=
  ∀ state value after, action state = .ok value after →
    after.depth = state.depth ∧ after.tokens = state.tokens ∧ state.index + count ≤ after.index

theorem Tracked.takes {action : Parse α} (tracked : Tracked action) : Takes 0 action := by
  intro state value after ran
  obtain ⟨_, reads⟩ := tracked.reads ran
  exact ⟨reads.depth, reads.tokens_eq, reads.framed.index⟩

theorem Takes.bind {action : Parse α} {next : α → Parse β} {first second : Nat}
    (early : Takes first action) (late : ∀ value, Takes second (next value)) :
    Takes (first + second) (action >>= next) := by
  intro state result after ran
  obtain ⟨value, middle, ranFirst, ranSecond⟩ := bind_eq_ok_iff.mp ran
  obtain ⟨depth, tokens, further⟩ := early state value middle ranFirst
  obtain ⟨sameDepth, sameTokens, furtherOn⟩ := late value middle result after ranSecond
  exact ⟨sameDepth.trans depth, sameTokens.trans tokens, by omega⟩

theorem Takes.before {action : Parse α} {next : α → Parse β} {count : Nat}
    (early : Takes count action) (late : ∀ value, Tracked (next value)) :
    Takes count (action >>= next) :=
  early.bind fun value => (late value).takes

theorem takes_next : Takes 1 next := by
  intro state token after ran
  have reads := next_eq_ok ran
  exact ⟨reads.depth, reads.tokens_eq, Nat.le_of_eq reads.index.symm⟩

theorem takes_failAt {count : Nat} (token : Token) (fault : ParseFault) :
    Takes count (failAt token fault : Parse α) :=
  fun _ _ _ ran => absurd ran failAt_ne_ok

theorem takes_failHere {count : Nat} (fault : ParseFault) :
    Takes count (failHere fault : Parse α) :=
  fun _ _ _ ran => absurd ran failHere_ne_ok

theorem takes_define (name : String) : Takes 0 (define name) := by
  rintro state value after ⟨⟩
  exact ⟨rfl, rfl, Nat.le_refl _⟩

theorem takes_expect (kind : TokenKind) : Takes 1 (expect kind) := by
  refine takes_next.before fun token => ?_
  split
  · exact tracked_pure token
  · exact tracked_failAt token _

theorem takes_string : Takes 1 string :=
  (takes_expect .string).before fun token => tracked_pure token.value

theorem takes_nested (fuel : Nat) : Takes 1 (nested limit fuel) := by
  cases fuel with
  | zero => exact takes_failHere _
  | succ fuel =>
      exact takes_next.before fun token => (tracked_checkDepth token).bind fun _ =>
        tracked_deeper (tracked_form (tracked_nested fuel) fuel token)

theorem takes_bound (fuel : Nat) (binder : Binder) : Takes 1 (bound limit fuel binder) := by
  refine (takes_nested fuel).before fun value => ?_
  split
  · exact tracked_pure _
  · exact tracked_failHere _

theorem takes_definition (fuel : Nat) (token : Token) : Takes 2 (definition limit fuel token) :=
  (takes_expect .identifier).bind fun name => (takes_bound fuel .definition).bind fun _ =>
    (takes_define name.value).before fun _ => tracked_pure _

theorem takes_route (fuel : Nat) (token : Token) : Takes 2 (route limit fuel token) :=
  takes_string.bind fun _ => (takes_bound fuel .route).before fun _ => tracked_pure _

theorem takes_response (fuel : Nat) (token : Token) : Takes 2 (response limit fuel token) :=
  takes_string.bind fun _ => tracked_status.takes.bind fun _ =>
    (takes_bound fuel .response).before fun _ => tracked_pure _

theorem takes_top (fuel : Nat) : Takes 3 (top limit fuel) := by
  show Takes (1 + 2) _
  refine takes_next.bind fun token => ?_
  split
  · exact takes_definition fuel token
  · exact takes_route fuel token
  · exact takes_response fuel token
  · exact takes_failAt token _
  · exact takes_failAt token _

theorem Takes.shorter {action : Parse α} {count : Nat} {state after : ParseState} {value : α}
    (takes : Takes count action) (ran : action state = .ok value after) :
    after.upcoming.length + count ≤ state.upcoming.length := by
  obtain ⟨_, tokens, further⟩ := takes state value after ran
  have length := congrArg List.length tokens
  simp only [ParseState.tokens, List.length_append, List.length_reverse] at length
  simp only [ParseState.index] at further
  omega

end Parse

end AeSchema
