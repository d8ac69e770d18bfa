import AeSchema.Proofs.Program.Frame
import AeSchema.Proofs.Program.Unfinished

/-! Runs of the parser that fail for want of tokens: all tokens are read by then, and they break off
inside a program. -/

namespace AeSchema

namespace Parse

variable {α β : Type} {limit : Option Nat} {state after : ParseState} {reached : Prop}

/-- The action misses a token only where no more are left, and only if `reached` holds. -/
def RunsOut (action : Parse α) (state : ParseState) (reached : Prop) : Prop :=
  ∀ failure after, action state = .error failure after → failure.fault = .endOfInput →
    after.upcoming = [] ∧ reached

theorem RunsOut.imp {action : Parse α} {other : Prop} (runsOut : RunsOut action state reached)
    (imp : reached → other) : RunsOut action state other := by
  intro failure after ran missing
  exact (runsOut failure after ran missing).imp_right imp

theorem RunsOut.bind {action : Parse α} {next : α → Parse β}
    (early : RunsOut action state reached)
    (late : ∀ value middle, action state = .ok value middle →
      RunsOut (next value) middle reached) :
    RunsOut (action >>= next) state reached := by
  intro failure after ran missing
  cases first : action state with
  | ok value middle =>
      rw [bind_of_ok next first] at ran
      exact late value middle first failure after ran missing
  | error =>
      rw [bind_of_error next first] at ran
      cases ran
      exact early _ _ first missing

theorem runsOut_pure (value : α) : RunsOut (pure value : Parse α) state reached := by
  rintro failure after ⟨⟩

theorem runsOut_failAt {token : Token} {fault : ParseFault} (other : fault ≠ .endOfInput) :
    RunsOut (failAt token fault : Parse α) state reached := by
  rintro failure after ⟨⟩ missing
  exact absurd missing other

theorem runsOut_failHere {fault : ParseFault} (other : fault ≠ .endOfInput) :
    RunsOut (failHere fault : Parse α) state reached := by
  rintro failure after ⟨⟩ missing
  exact absurd missing other

theorem runsOut_at_end (empty : state.upcoming = []) (holds : reached) :
    RunsOut (failHere .endOfInput : Parse α) state reached := by
  rintro failure after ⟨⟩ _
  exact ⟨empty, holds⟩

theorem RunsOut.next_bind {rest : Token → Parse β} (ends : state.upcoming = [] → reached)
    (late : ∀ token middle, Reads state [token] middle → RunsOut (rest token) middle reached) :
    RunsOut (next >>= rest) state reached := by
  refine RunsOut.bind ?_ fun token middle ran => late token middle (next_eq_ok ran)
  intro failure after ran missing
  unfold next at ran
  split at ran
  next empty => exact runsOut_at_end empty (ends empty) failure after ran missing
  next => cases ran

theorem runsOut_expect (kind : TokenKind) (ends : state.upcoming = [] → reached) :
    RunsOut (expect kind) state reached := by
  refine RunsOut.next_bind ends fun token _ _ => ?_
  split
  · exact runsOut_pure token
  · exact runsOut_failAt nofun

theorem runsOut_string (ends : state.upcoming = [] → reached) : RunsOut string state reached :=
  (runsOut_expect .string ends).bind fun token _ _ => runsOut_pure token.value

theorem runsOut_reference (token : Token) : RunsOut (reference token) state reached := by
  intro failure after ran missing
  unfold reference at ran
  split at ran
  next => cases ran
  next => exact runsOut_failAt (by simp) failure after ran missing

theorem runsOut_noteRepeated (opening : Token) (entries : Format Token) (key : String) :
    RunsOut (noteRepeated opening entries key) state reached := by
  obtain ⟨after, ran, _⟩ := yields_noteRepeated opening entries key state
  intro failure after failed
  rw [ran] at failed
  cases failed

theorem runsOut_checkDepth (token : Token) : RunsOut (checkDepth limit token) state reached := by
  intro failure after ran missing
  unfold checkDepth at ran
  split at ran
  next => cases ran
  next =>
    split at ran
    next => exact runsOut_failAt (by simp) failure after ran missing
    next => cases ran

theorem runsOut_deeper {inner : Parse α}
    (runsOut : RunsOut inner { state with depth := state.depth + 1 } reached) :
    RunsOut (deeper inner) state reached := by
  intro failure after ran missing
  unfold deeper at ran
  split at ran
  next => cases ran
  next failed =>
    cases ran
    obtain ⟨empty, holds⟩ := runsOut _ _ failed missing
    exact ⟨empty, holds⟩

def BreaksOff (limit : Option Nat) (part : Part) (state : ParseState) : Prop :=
  ∃ inner, Unfinished limit state.scope.names state.depth part state.upcoming inner

section Values

variable {action : Parse (Value Token)} {size : Nat} (sound : ReadsValues limit action)
  (runsOut : ∀ state, state.upcoming.length ≤ size →
    RunsOut action state (BreaksOff limit .value state))

include runsOut

theorem runsOut_pair (opening : Token) (entries : Format Token)
    (fits : state.upcoming.length ≤ size) :
    RunsOut (pair action opening entries) state (BreaksOff limit .pairs state) := by
  unfold BreaksOff
  refine (runsOut_string fun empty => ?_).bind fun _ first ranKey => ?_
  · rw [empty]
    exact ⟨_, .noPair⟩
  obtain ⟨key, readsKey, keyKind, rfl⟩ := string_eq_ok ranKey
  refine (runsOut_expect .colon fun empty => ?_).bind fun colon second ranColon => ?_
  · rw [readsKey.upcoming, empty]
    exact ⟨_, .key keyKind⟩
  obtain ⟨readsColon, colonKind⟩ := expect_eq_ok ranColon
  have reads := readsKey.cons readsColon
  have length := reads.length_upcoming
  refine ((runsOut second (by omega)).imp ?_).bind fun value _ _ =>
    (runsOut_noteRepeated opening entries _).bind fun _ _ _ => runsOut_pure _
  rintro ⟨inner, unfinished⟩
  rw [reads.scope, reads.depth] at unfinished
  rw [reads.upcoming]
  exact ⟨inner, .pairValue keyKind colonKind unfinished⟩

theorem runsOut_keywordForm {token : Token} {outer : Nat} (level : state.depth = outer + 1)
    (within : ∀ bound ∈ limit, state.depth ≤ bound) (fits : state.upcoming.length ≤ size) :
    RunsOut (keywordForm action token) state
      (∃ inner,
        Unfinished limit state.scope.names outer .value (token :: state.upcoming) inner) := by
  rw [level] at within
  unfold keywordForm
  split
  next keyword =>
    refine ((runsOut state fits).imp ?_).bind fun element _ _ => runsOut_pure _
    rintro ⟨inner, unfinished⟩
    rw [level] at unfinished
    exact ⟨inner, .arrayOf within keyword unfinished⟩
  next keyword =>
    refine (runsOut_string fun empty => ?_).bind fun literal _ _ => runsOut_pure _
    rw [empty]
    exact ⟨outer, .url within keyword⟩
  · exact runsOut_failAt nofun
  · exact runsOut_failAt nofun

include sound

theorem runsOut_pairs (opening : Token) {count : Nat} (entries : Format Token)
    (fits : state.upcoming.length ≤ size) (counted : state.upcoming.length ≤ count) :
    RunsOut (pairs action opening count entries) state (BreaksOff limit .pairs state) := by
  induction count generalizing state entries with
  | zero =>
      have empty := List.eq_nil_of_length_eq_zero (Nat.le_zero.mp counted)
      refine runsOut_at_end empty ?_
      rw [BreaksOff, empty]
      exact ⟨_, .noPair⟩
  | succ count ih =>
      refine (runsOut_pair runsOut opening entries fits).bind fun _ first ranPair => ?_
      obtain ⟨key, colon, value, tokens, readsPair, keyKind, colonKind, rfl, derives⟩ :=
        pair_sound sound ranPair
      unfold BreaksOff
      refine RunsOut.next_bind (fun empty => ?_) fun separator second readsSeparator => ?_
      · rw [readsPair.upcoming, empty, List.append_nil]
        exact ⟨_, .noSeparator keyKind colonKind derives⟩
      · have reads := readsPair.trans readsSeparator
        have length := reads.length_upcoming
        simp only [List.length_append, List.length_singleton] at length
        split
        · exact runsOut_pure _
        next comma =>
          refine (ih _ (by omega) (by omega)).imp ?_
          rintro ⟨inner, unfinished⟩
          rw [reads.scope, reads.depth] at unfinished
          have more := Unfinished.more keyKind colonKind derives comma unfinished
          rw [reads.upcoming]
          exact ⟨inner, by simpa using more⟩
        · exact runsOut_failAt nofun

theorem runsOut_form {token : Token} {outer : Nat} (level : state.depth = outer + 1)
    (within : ∀ bound ∈ limit, state.depth ≤ bound) (fits : state.upcoming.length ≤ size) :
    RunsOut (form action size token) state
      (∃ inner,
        Unfinished limit state.scope.names outer .value (token :: state.upcoming) inner) := by
  unfold form
  split
  · exact runsOut_pure _
  · exact (runsOut_reference token).bind fun expr _ _ => runsOut_pure _
  next opens =>
    refine ((runsOut_pairs sound runsOut token .empty fits fits).imp ?_).bind
      fun entries _ _ => runsOut_pure _
    rintro ⟨inner, unfinished⟩
    rw [level] at within unfinished
    exact ⟨inner, .format within opens unfinished⟩
  · exact runsOut_keywordForm runsOut level within fits
  · exact runsOut_failAt nofun

end Values

theorem runsOut_nested {fuel : Nat} (fits : state.upcoming.length ≤ fuel) :
    RunsOut (nested limit fuel) state (BreaksOff limit .value state) := by
  induction fuel generalizing state with
  | zero =>
      have empty := List.eq_nil_of_length_eq_zero (Nat.le_zero.mp fits)
      refine runsOut_at_end empty ?_
      rw [BreaksOff, empty]
      exact ⟨_, .noValue⟩
  | succ fuel ih =>
      unfold BreaksOff
      refine RunsOut.next_bind (fun empty => ?_) fun token middle reads => ?_
      · rw [empty]
        exact ⟨_, .noValue⟩
      · have length := reads.length_upcoming
        rw [List.length_singleton] at length
        refine (runsOut_checkDepth token).bind fun _ bottom ran => ?_
        obtain ⟨rfl, within⟩ := checkDepth_eq_ok ran
        rw [← reads.scope, ← reads.depth, reads.upcoming]
        refine runsOut_deeper (runsOut_form (nested_sound fuel) (fun _ => ih) rfl within ?_)
        simp only
        omega

section Top

variable {before : ParseState} {tokens : List Token} {token : Token} {fuel : Nat}

theorem runsOut_bound (binder : Binder) (reads : Reads before tokens state)
    (surface : before.depth = 0) (fits : before.upcoming.length ≤ fuel) :
    RunsOut (bound limit fuel binder) state
      (∃ inner, Unfinished limit before.scope.names 0 .value state.upcoming inner) := by
  have length := reads.length_upcoming
  rw [← reads.scope, ← surface, ← reads.depth]
  refine (runsOut_nested (by omega)).bind fun value _ _ => ?_
  split
  · exact runsOut_pure _
  · exact runsOut_failHere nofun

theorem runsOut_definition (readsToken : Reads before [token] state) (surface : before.depth = 0)
    (fits : before.upcoming.length ≤ fuel) (keyword : token.keyword? = some .define) :
    RunsOut (definition limit fuel token) state
      (∃ inner, UnfinishedTop limit before.scope.names before.upcoming inner) := by
  refine (runsOut_expect .identifier fun empty => ?_).bind fun name middle ranName => ?_
  · rw [readsToken.upcoming, empty]
    exact ⟨0, .keyword keyword (by simp)⟩
  · obtain ⟨readsName, identifier⟩ := expect_eq_ok ranName
    have reads := readsToken.cons readsName
    refine ((runsOut_bound .definition reads surface fits).imp ?_).bind fun value _ _ => ?_
    · rintro ⟨inner, unfinished⟩
      rw [reads.upcoming]
      exact ⟨inner, .definition keyword identifier unfinished⟩
    · rintro failure after ⟨⟩

theorem runsOut_route (readsToken : Reads before [token] state) (surface : before.depth = 0)
    (fits : before.upcoming.length ≤ fuel) (keyword : token.keyword? = some .route) :
    RunsOut (route limit fuel token) state
      (∃ inner, UnfinishedTop limit before.scope.names before.upcoming inner) := by
  refine (runsOut_string fun empty => ?_).bind fun _ middle ranPath => ?_
  · rw [readsToken.upcoming, empty]
    exact ⟨0, .keyword keyword (by simp)⟩
  · obtain ⟨path, readsPath, string, rfl⟩ := string_eq_ok ranPath
    have reads := readsToken.cons readsPath
    refine ((runsOut_bound .route reads surface fits).imp ?_).bind fun value _ _ => runsOut_pure _
    rintro ⟨inner, unfinished⟩
    rw [reads.upcoming]
    exact ⟨inner, .route keyword string unfinished⟩

theorem runsOut_response (readsToken : Reads before [token] state) (surface : before.depth = 0)
    (fits : before.upcoming.length ≤ fuel) (keyword : token.keyword? = some .response) :
    RunsOut (response limit fuel token) state
      (∃ inner, UnfinishedTop limit before.scope.names before.upcoming inner) := by
  refine (runsOut_string fun empty => ?_).bind fun _ middle ranPath => ?_
  · rw [readsToken.upcoming, empty]
    exact ⟨0, .keyword keyword (by simp)⟩
  · obtain ⟨path, readsPath, string, rfl⟩ := string_eq_ok ranPath
    have readsHead := readsToken.cons readsPath
    refine (RunsOut.next_bind (fun empty => ?_) fun code _ _ => ?_).bind fun _ last ranStatus => ?_
    · rw [readsHead.upcoming, empty]
      exact ⟨0, .noStatus keyword string⟩
    · split
      · exact runsOut_failAt nofun
      · exact runsOut_pure _
    · obtain ⟨code, readsCode, identifier, isStatus⟩ := status_eq_ok ranStatus
      have reads := readsToken.cons (readsPath.cons readsCode)
      refine ((runsOut_bound .response reads surface fits).imp ?_).bind
        fun value _ _ => runsOut_pure _
      rintro ⟨inner, unfinished⟩
      rw [reads.upcoming]
      exact ⟨inner, .response keyword string identifier isStatus unfinished⟩

theorem runsOut_top (left : state.upcoming ≠ []) (surface : state.depth = 0)
    (fits : state.upcoming.length ≤ fuel) :
    RunsOut (top limit fuel) state
      (∃ inner, UnfinishedTop limit state.scope.names state.upcoming inner) := by
  refine RunsOut.next_bind (fun empty => absurd empty left) fun token middle reads => ?_
  split
  next keyword => exact runsOut_definition reads surface fits keyword
  next keyword => exact runsOut_route reads surface fits keyword
  next keyword => exact runsOut_response reads surface fits keyword
  · exact runsOut_failAt nofun
  · exact runsOut_failAt nofun

theorem runsOut_tops {count : Nat} {found : List (Expr Token)} {known : List String}
    (surface : state.depth = 0) (fits : state.upcoming.length ≤ fuel)
    (subset : state.scope.names ⊆ known) :
    RunsOut (tops limit fuel count found) state
      (∃ inner, UnfinishedProgram limit known state.upcoming inner) := by
  intro failure after ran missing
  induction count generalizing state found known with
  | zero =>
      obtain ⟨_, impossible, _⟩ := tops_eq_error ran
      cases impossible
  | succ count ih =>
      obtain ⟨_, ⟨⟩, left, failed | ⟨expr, middle, ranTop, ranLater⟩⟩ := tops_eq_error ran
      · obtain ⟨empty, inner, unfinished⟩ := runsOut_top left surface fits _ _ failed missing
        exact ⟨empty, inner, .last (unfinished.mono subset)⟩
      · obtain ⟨tokens, ⟨reads, defined⟩, derives⟩ := top_sound surface ranTop
        have length := reads.length_upcoming
        have wider : (middle.noted expr).scope.names ⊆ known ++ expr.defined := by
          intro name member
          simp only [ParseState.noted, defined, Scope.mem_names_insertAll] at member
          exact List.mem_append.mpr (member.imp_left (subset ·))
        have laterSurface : (middle.noted expr).depth = 0 := reads.depth.trans surface
        have laterFits : (middle.noted expr).upcoming.length ≤ fuel := by
          simp only [ParseState.noted] at length ⊢
          omega
        obtain ⟨empty, inner, unfinished⟩ := ih laterSurface laterFits wider ranLater
        refine ⟨empty, inner, ?_⟩
        rw [reads.upcoming]
        exact .cons (derives.mono subset) unfinished

end Top

end Parse

end AeSchema
