import AeSchema.Proofs.Program.Completeness

/-! Runs of the parser, however they end: what they leave as it was, and which token a failure is
blamed on. -/

namespace AeSchema

def ParseState.noted (state : ParseState) (expr : Expr Token) : ParseState :=
  { state with notices := .parsed expr.kind expr.origin.location :: state.notices }

namespace Parse

variable {α β : Type} {limit : Option Nat} {state middle after : ParseState}

def endState : EStateM.Result ParseFailure ParseState α → ParseState
  | .ok _ after | .error _ after => after

theorem bind_of_ok {action : Parse α} {value : α} (next : α → Parse β)
    (ran : action state = .ok value middle) : (action >>= next) state = next value middle := by
  show EStateM.bind action next state = _
  simp [EStateM.bind, ran]

theorem bind_of_error {action : Parse α} {failure : ParseFailure} (next : α → Parse β)
    (ran : action state = .error failure middle) :
    (action >>= next) state = .error failure middle := by
  show EStateM.bind action next state = _
  simp [EStateM.bind, ran]

/-- Success or failure, the action only reads tokens: scope and depth are in the end as before. -/
def Tracked (action : Parse α) : Prop :=
  ∀ state, ∃ tokens, Reads state tokens (endState (action state))

theorem Tracked.reads {action : Parse α} {value : α} (tracked : Tracked action)
    (ran : action state = .ok value after) : ∃ tokens, Reads state tokens after := by
  have found := tracked state
  rw [ran] at found
  exact found

theorem Tracked.bind {action : Parse α} {next : α → Parse β} (early : Tracked action)
    (late : ∀ value, Tracked (next value)) : Tracked (action >>= next) := by
  intro state
  cases ran : action state with
  | ok value middle =>
      rw [bind_of_ok next ran]
      obtain ⟨first, reads⟩ := early.reads ran
      obtain ⟨second, more⟩ := late value middle
      exact ⟨first ++ second, reads.trans more⟩
  | error failure middle =>
      rw [bind_of_error next ran]
      have found := early state
      rw [ran] at found
      exact found

theorem tracked_pure (value : α) : Tracked (pure value : Parse α) :=
  fun state => ⟨[], .refl state⟩

theorem tracked_failAt (token : Token) (fault : ParseFault) :
    Tracked (failAt token fault : Parse α) :=
  fun state => ⟨[], .refl state⟩

theorem tracked_failHere (fault : ParseFault) : Tracked (failHere fault : Parse α) :=
  fun state => ⟨[], .refl state⟩

theorem tracked_next : Tracked next := by
  intro state
  cases ran : next state with
  | ok token after => exact ⟨[token], next_eq_ok ran⟩
  | error failure after =>
      unfold next at ran
      split at ran
      next =>
        cases ran
        exact ⟨[], .refl state⟩
      next => cases ran

theorem tracked_note (notice : Notice) : Tracked (note notice) :=
  fun state => ⟨[], by constructor <;> rfl⟩

theorem tracked_expect (kind : TokenKind) : Tracked (expect kind) := by
  refine tracked_next.bind fun token => ?_
  split
  · exact tracked_pure token
  · exact tracked_failAt token _

theorem tracked_string : Tracked string :=
  (tracked_expect .string).bind fun token => tracked_pure token.value

theorem tracked_reference (token : Token) : Tracked (reference token) := by
  intro state
  unfold reference
  split <;> exact ⟨[], .refl state⟩

theorem tracked_noteRepeated (opening : Token) (entries : Format Token) (key : String) :
    Tracked (noteRepeated opening entries key) := by
  unfold noteRepeated
  split
  · exact tracked_note _
  · exact tracked_pure ()

theorem tracked_checkDepth (token : Token) : Tracked (checkDepth limit token) := by
  intro state
  unfold checkDepth
  split
  · exact ⟨[], .refl state⟩
  · split <;> exact ⟨[], .refl state⟩

theorem tracked_deeper {inner : Parse α} (tracked : Tracked inner) : Tracked (deeper inner) := by
  intro state
  obtain ⟨tokens, reads⟩ := tracked { state with depth := state.depth + 1 }
  unfold deeper
  cases ran : inner { state with depth := state.depth + 1 } with
  | ok | error =>
      rw [ran] at reads
      exact ⟨tokens, reads.surface⟩

section Values

variable {inner : Parse (Value Token)} (tracked : Tracked inner)

include tracked

theorem tracked_pair (opening : Token) (entries : Format Token) :
    Tracked (pair inner opening entries) :=
  tracked_string.bind fun key => (tracked_expect .colon).bind fun _ => tracked.bind fun value =>
    (tracked_noteRepeated opening entries key).bind fun _ => tracked_pure (entries.insert key value)

theorem tracked_pairs (opening : Token) (count : Nat) (entries : Format Token) :
    Tracked (pairs inner opening count entries) := by
  induction count generalizing entries with
  | zero => exact tracked_failHere _
  | succ count ih =>
      refine (tracked_pair tracked opening entries).bind fun entries => ?_
      refine tracked_next.bind fun separator => ?_
      split
      · exact tracked_pure entries
      · exact ih entries
      · exact tracked_failAt separator _

theorem tracked_keywordForm (token : Token) : Tracked (keywordForm inner token) := by
  unfold keywordForm
  split
  · exact tracked.bind fun element => tracked_pure _
  · exact tracked_string.bind fun literal => tracked_pure _
  · exact tracked_failAt token _
  · exact tracked_failAt token _

theorem tracked_form (fuel : Nat) (token : Token) : Tracked (form inner fuel token) := by
  unfold form
  split
  · exact tracked_pure _
  · exact (tracked_reference token).bind fun expr => tracked_pure _
  · exact (tracked_pairs tracked token fuel .empty).bind fun entries => tracked_pure _
  · exact tracked_keywordForm tracked token
  · exact tracked_failAt token _

end Values

theorem tracked_nested (fuel : Nat) : Tracked (nested limit fuel) := by
  induction fuel with
  | zero => exact tracked_failHere _
  | succ fuel ih =>
      exact tracked_next.bind fun token => (tracked_checkDepth token).bind fun _ =>
        tracked_deeper (tracked_form ih fuel token)

theorem tracked_bound (fuel : Nat) (binder : Binder) : Tracked (bound limit fuel binder) := by
  refine (tracked_nested fuel).bind fun value => ?_
  split
  · exact tracked_pure _
  · exact tracked_failHere _

theorem tracked_status : Tracked status := by
  refine tracked_next.bind fun code => ?_
  split
  · exact tracked_failAt code _
  · exact tracked_pure _

def Shrinks (action : Parse α) : Prop :=
  ∀ state, (endState (action state)).upcoming.length ≤ state.upcoming.length

theorem Tracked.shrinks {action : Parse α} (tracked : Tracked action) : Shrinks action := by
  intro state
  obtain ⟨tokens, reads⟩ := tracked state
  have length := reads.length_upcoming
  omega

theorem Shrinks.bind {action : Parse α} {next : α → Parse β} (early : Shrinks action)
    (late : ∀ value, Shrinks (next value)) : Shrinks (action >>= next) := by
  intro state
  have first := early state
  cases ran : action state with
  | ok value middle =>
      rw [bind_of_ok next ran]
      rw [ran] at first
      exact Nat.le_trans (late value middle) first
  | error failure middle =>
      rw [bind_of_error next ran]
      rw [ran] at first
      exact first

theorem Shrinks.deeper {inner : Parse α} (shrinks : Shrinks inner) : Shrinks (deeper inner) := by
  intro state
  have bound := shrinks { state with depth := state.depth + 1 }
  unfold Parse.deeper
  cases ran : inner { state with depth := state.depth + 1 } with
  | ok | error =>
      rw [ran] at bound
      exact bound

structure Hungry (action : Parse α) : Prop where
  shrinks : Shrinks action
  none : ∀ state, state.upcoming = [] → action state = failHere .endOfInput state
  some : ∀ state, state.upcoming ≠ [] →
    (endState (action state)).upcoming.length < state.upcoming.length

theorem Hungry.bind {action : Parse α} {next : α → Parse β} (early : Hungry action)
    (late : ∀ value, Shrinks (next value)) : Hungry (action >>= next) := by
  refine ⟨early.shrinks.bind late, fun state empty => ?_, fun state left => ?_⟩
  · rw [bind_of_error next (early.none state empty)]
    rfl
  · have shorter := early.some state left
    cases ran : action state with
    | ok value middle =>
        rw [bind_of_ok next ran]
        rw [ran] at shorter
        exact Nat.lt_of_le_of_lt (late value middle) shorter
    | error failure middle =>
        rw [bind_of_error next ran]
        rw [ran] at shorter
        exact shorter

theorem hungry_next : Hungry next := by
  refine ⟨tracked_next.shrinks, fun state empty => by simp [next, empty], fun state left => ?_⟩
  obtain ⟨token, tokens, upcoming⟩ := List.exists_cons_of_ne_nil left
  simp [next, upcoming, endState]

theorem hungry_expect (kind : TokenKind) : Hungry (expect kind) := by
  refine hungry_next.bind fun token => ?_
  split
  · exact (tracked_pure token).shrinks
  · exact (tracked_failAt token _).shrinks

theorem hungry_string : Hungry string :=
  (hungry_expect .string).bind fun token => (tracked_pure token.value).shrinks

theorem hungry_pair {inner : Parse (Value Token)} (tracked : Tracked inner) (opening : Token)
    (entries : Format Token) : Hungry (pair inner opening entries) :=
  hungry_string.bind fun key => Tracked.shrinks <|
    (tracked_expect .colon).bind fun _ => tracked.bind fun _ =>
      (tracked_noteRepeated opening entries key).bind fun _ => tracked_pure _

theorem hungry_pairs {inner : Parse (Value Token)} (tracked : Tracked inner) (opening : Token)
    (count : Nat) (entries : Format Token) :
    Hungry (pairs inner opening (count + 1) entries) := by
  refine (hungry_pair tracked opening entries).bind fun entries =>
    Tracked.shrinks (tracked_next.bind fun separator => ?_)
  split
  · exact tracked_pure entries
  · exact tracked_pairs tracked opening count entries
  · exact tracked_failAt separator _

theorem pairs_nil {inner : Parse (Value Token)} (tracked : Tracked inner) (opening : Token)
    (count : Nat) (entries : Format Token) (empty : state.upcoming = []) :
    pairs inner opening count entries state = failHere .endOfInput state := by
  cases count with
  | zero => rfl
  | succ count => exact (hungry_pairs tracked opening count entries).none state empty

theorem hungry_nested (fuel : Nat) : Hungry (nested limit (fuel + 1)) :=
  hungry_next.bind fun token => Tracked.shrinks <| (tracked_checkDepth token).bind fun _ =>
    tracked_deeper (tracked_form (tracked_nested fuel) fuel token)

theorem nested_nil (fuel : Nat) (empty : state.upcoming = []) :
    nested limit fuel state = failHere .endOfInput state := by
  cases fuel with
  | zero => rfl
  | succ fuel => exact (hungry_nested fuel).none state empty

/-- A failing run has read `tokens` and blames the last token read up to then. Only names that are
not known are called unknown. -/
structure Halts (before : ParseState) (tokens : List Token) (failure : ParseFailure)
    (after : ParseState) : Prop where
  reads : Reads before tokens after
  culprit : failure.culprit = after.consumed.head?
  unknown : ∀ name, failure.fault = .unknownName name →
    name ∉ before.scope.names ∧ ∃ token ∈ failure.culprit, token.value = name

def Blames (action : Parse α) (state : ParseState) : Prop :=
  ∀ failure after, action state = .error failure after →
    ∃ tokens, Halts state tokens failure after

theorem Halts.behind {tokens more : List Token} {failure : ParseFailure}
    (reads : Reads state tokens middle) (halts : Halts middle more failure after) :
    Halts state (tokens ++ more) failure after := by
  refine ⟨reads.trans halts.reads, halts.culprit, ?_⟩
  rw [← reads.scope]
  exact halts.unknown

theorem Blames.bind {action : Parse α} {next : α → Parse β} (early : Blames action state)
    (tracked : Tracked action)
    (late : ∀ value middle, action state = .ok value middle → Blames (next value) middle) :
    Blames (action >>= next) state := by
  intro failure after ran
  cases first : action state with
  | ok value middle =>
      rw [bind_of_ok next first] at ran
      obtain ⟨tokens, reads⟩ := tracked.reads first
      obtain ⟨more, halts⟩ := late value middle first failure after ran
      exact ⟨tokens ++ more, .behind reads halts⟩
  | error =>
      rw [bind_of_error next first] at ran
      cases ran
      exact early _ _ first

theorem blames_pure (value : α) : Blames (pure value : Parse α) state := by
  rintro failure after ⟨⟩

theorem blames_failHere {fault : ParseFault} (known : ∀ name, fault ≠ .unknownName name) :
    Blames (failHere fault : Parse α) state := by
  rintro failure after ⟨⟩
  exact ⟨[], .refl state, rfl, fun name unknown => absurd unknown (known name)⟩

theorem blames_failAt {token : Token} {fault : ParseFault}
    (last : state.consumed.head? = some token) (known : ∀ name, fault ≠ .unknownName name) :
    Blames (failAt token fault : Parse α) state := by
  rintro failure after ⟨⟩
  exact ⟨[], .refl state, last.symm, fun name unknown => absurd unknown (known name)⟩

theorem blames_next : Blames next state := by
  intro failure after ran
  unfold next at ran
  split at ran
  next => exact blames_failHere (by simp) failure after ran
  next => cases ran

theorem Blames.next_bind {rest : Token → Parse β}
    (late : ∀ token middle, middle.consumed.head? = some token → Blames (rest token) middle) :
    Blames (next >>= rest) state := by
  refine blames_next.bind tracked_next fun token middle ran => ?_
  exact late token middle (by simp [(next_eq_ok ran).consumed])

theorem blames_expect (kind : TokenKind) : Blames (expect kind) state := by
  refine Blames.next_bind fun token middle last => ?_
  split
  · exact blames_pure token
  · exact blames_failAt last fun _ => nofun

theorem blames_string : Blames string state :=
  (blames_expect .string).bind (tracked_expect .string) fun token _ _ => blames_pure token.value

theorem blames_reference {token : Token} (last : state.consumed.head? = some token) :
    Blames (reference token) state := by
  intro failure after ran
  unfold reference at ran
  split at ran
  next => cases ran
  next unknown =>
    cases ran
    refine ⟨[], .refl state, last.symm, ?_⟩
    rintro _ ⟨⟩
    exact ⟨mt Scope.contains_iff.mpr unknown, token, rfl, rfl⟩

theorem blames_noteRepeated (opening : Token) (entries : Format Token) (key : String) :
    Blames (noteRepeated opening entries key) state := by
  obtain ⟨after, ran, _⟩ := yields_noteRepeated opening entries key state
  intro failure after failed
  rw [ran] at failed
  cases failed

theorem blames_checkDepth {token : Token} (last : state.consumed.head? = some token) :
    Blames (checkDepth limit token) state := by
  intro failure after ran
  unfold checkDepth at ran
  split at ran
  next => cases ran
  next =>
    split at ran
    next => exact blames_failAt last (by simp) failure after ran
    next => cases ran

theorem blames_deeper {inner : Parse α}
    (blames : Blames inner { state with depth := state.depth + 1 }) :
    Blames (deeper inner) state := by
  intro failure after ran
  unfold deeper at ran
  split at ran
  next => cases ran
  next fault bottom failed =>
    cases ran
    obtain ⟨tokens, halts⟩ := blames _ _ failed
    exact ⟨tokens, halts.reads.surface, halts.culprit, halts.unknown⟩

section Values

variable {inner : Parse (Value Token)} (tracked : Tracked inner)
  (blames : ∀ state, Blames inner state)

include tracked blames

theorem blames_pair (opening : Token) (entries : Format Token) :
    Blames (pair inner opening entries) state := by
  refine blames_string.bind tracked_string fun key _ _ => ?_
  refine (blames_expect .colon).bind (tracked_expect .colon) fun _ _ _ => ?_
  refine (blames _).bind tracked fun value _ _ => ?_
  exact (blames_noteRepeated opening entries key).bind (tracked_noteRepeated opening entries key)
    fun _ _ _ => blames_pure _

theorem blames_pairs (opening : Token) (count : Nat) (entries : Format Token) :
    Blames (pairs inner opening count entries) state := by
  induction count generalizing state entries with
  | zero => exact blames_failHere fun _ => nofun
  | succ count ih =>
      refine (blames_pair tracked blames opening entries).bind
        (tracked_pair tracked opening entries) fun entries _ _ => ?_
      refine Blames.next_bind fun separator _ last => ?_
      split
      · exact blames_pure entries
      · exact ih entries
      · exact blames_failAt last fun _ => nofun

theorem blames_keywordForm {token : Token} (last : state.consumed.head? = some token) :
    Blames (keywordForm inner token) state := by
  unfold keywordForm
  split
  · exact (blames state).bind tracked fun element _ _ => blames_pure _
  · exact blames_string.bind tracked_string fun literal _ _ => blames_pure _
  · exact blames_failAt last fun _ => nofun
  · exact blames_failAt last fun _ => nofun

theorem blames_form (fuel : Nat) {token : Token} (last : state.consumed.head? = some token) :
    Blames (form inner fuel token) state := by
  unfold form
  split
  · exact blames_pure _
  · exact (blames_reference last).bind (tracked_reference token) fun expr _ _ => blames_pure _
  · exact (blames_pairs tracked blames token fuel .empty).bind
      (tracked_pairs tracked token fuel .empty) fun entries _ _ => blames_pure _
  · exact blames_keywordForm tracked blames last
  · exact blames_failAt last fun _ => nofun

end Values

theorem blames_nested (fuel : Nat) (state : ParseState) : Blames (nested limit fuel) state := by
  induction fuel generalizing state with
  | zero => exact blames_failHere fun _ => nofun
  | succ fuel ih =>
      refine Blames.next_bind fun token middle last => ?_
      refine (blames_checkDepth last).bind (tracked_checkDepth token) fun _ bottom ran => ?_
      obtain ⟨rfl, _⟩ := checkDepth_eq_ok ran
      exact blames_deeper (blames_form (tracked_nested fuel) ih fuel last)

theorem blames_bound (fuel : Nat) (binder : Binder) : Blames (bound limit fuel binder) state := by
  refine (blames_nested fuel state).bind (tracked_nested fuel) fun value _ _ => ?_
  split
  · exact blames_pure _
  · exact blames_failHere fun _ => nofun

theorem blames_status : Blames status state := by
  refine Blames.next_bind fun code _ last => ?_
  split
  · exact blames_failAt last fun _ => nofun
  · exact blames_pure _

theorem blames_definition (fuel : Nat) (token : Token) :
    Blames (definition limit fuel token) state := by
  refine (blames_expect .identifier).bind (tracked_expect .identifier) fun name _ _ => ?_
  refine (blames_bound fuel .definition).bind (tracked_bound fuel .definition) fun value _ _ => ?_
  -- Nothing can fail from here on.
  rintro failure after ⟨⟩

theorem blames_route (fuel : Nat) (token : Token) : Blames (route limit fuel token) state := by
  refine blames_string.bind tracked_string fun path _ _ => ?_
  exact (blames_bound fuel .route).bind (tracked_bound fuel .route) fun value _ _ => blames_pure _

theorem blames_response (fuel : Nat) (token : Token) :
    Blames (response limit fuel token) state := by
  refine blames_string.bind tracked_string fun path _ _ => ?_
  refine blames_status.bind tracked_status fun code _ _ => ?_
  exact (blames_bound fuel .response).bind (tracked_bound fuel .response)
    fun value _ _ => blames_pure _

theorem top_halts {token : Token} {rest : List Token} {fuel : Nat} {failure : ParseFailure}
    (first : state.upcoming = token :: rest)
    (ran : top limit fuel state = .error failure after) :
    ∃ tokens, Halts state (token :: tokens) failure after := by
  obtain ⟨middle, ranNext, reads⟩ := yields_next first
  rw [top, bind_of_ok _ ranNext] at ran
  have last : middle.consumed.head? = some token := by simp [reads.consumed]
  have blames : ∃ tokens, Halts middle tokens failure after := by
    cases keyword : token.keyword? with
    | none =>
        simp only [keyword] at ran
        exact blames_failAt last (by simp) failure after ran
    | some reserved =>
        cases reserved
        all_goals simp only [keyword] at ran
        case define => exact blames_definition fuel token failure after ran
        case route => exact blames_route fuel token failure after ran
        case response => exact blames_response fuel token failure after ran
        all_goals exact blames_failAt last (by simp) failure after ran
  obtain ⟨tokens, halts⟩ := blames
  exact ⟨tokens, halts.behind reads⟩

section Tops

variable {fuel count : Nat} {found : List (Expr Token)} {expr : Expr Token}
  {failure : ParseFailure}

theorem tops_of_top_ok (left : state.upcoming ≠ []) (ran : top limit fuel state = .ok expr middle) :
    tops limit fuel (count + 1) found state =
      tops limit fuel count (expr :: found) (middle.noted expr) := by
  rw [tops_succ, if_neg (by simpa using left), bind_of_ok _ ran]
  rfl

theorem tops_of_top_error (left : state.upcoming ≠ [])
    (ran : top limit fuel state = .error failure after) :
    tops limit fuel (count + 1) found state = .error failure after := by
  rw [tops_succ, if_neg (by simpa using left), bind_of_error _ ran]

theorem tops_eq_error (ran : tops limit fuel count found state = .error failure after) :
    ∃ rounds, count = rounds + 1 ∧ state.upcoming ≠ [] ∧
      (top limit fuel state = .error failure after ∨
        ∃ expr middle, top limit fuel state = .ok expr middle ∧
          tops limit fuel rounds (expr :: found) (middle.noted expr) = .error failure after) := by
  obtain ⟨_, done⟩ := finish_ok found state
  cases count with
  | zero =>
      rw [tops, done] at ran
      cases ran
  | succ rounds =>
      by_cases empty : state.upcoming = []
      · rw [tops_succ, if_pos (by simpa using empty), done] at ran
        cases ran
      · refine ⟨rounds, rfl, empty, ?_⟩
        cases ranTop : top limit fuel state with
        | error fault bottom =>
            rw [tops_of_top_error empty ranTop] at ran
            cases ran
            exact .inl rfl
        | ok expr middle =>
            rw [tops_of_top_ok empty ranTop] at ran
            exact .inr ⟨expr, middle, rfl, ran⟩

theorem tops_halts (surface : state.depth = 0)
    (ran : tops limit fuel count found state = .error failure after) :
    ∃ token tokens scope, state.scope.names ⊆ scope.names ∧
      Halts { state with scope := scope } (token :: tokens) failure after := by
  induction count generalizing state found with
  | zero =>
      obtain ⟨_, impossible, _⟩ := tops_eq_error ran
      cases impossible
  | succ count ih =>
      obtain ⟨_, ⟨⟩, left, failed | ⟨expr, middle, ranTop, ranLater⟩⟩ := tops_eq_error ran
      · obtain ⟨token, rest, upcoming⟩ := List.exists_cons_of_ne_nil left
        obtain ⟨tokens, halts⟩ := top_halts upcoming failed
        exact ⟨token, tokens, state.scope, List.Subset.refl _, halts⟩
      · obtain ⟨front, ⟨reads, defined⟩, derives⟩ := top_sound surface ranTop
        have positive := derives.length_ge
        obtain ⟨first, behind, rfl⟩ : ∃ first behind, front = first :: behind :=
          List.exists_cons_of_length_pos (by omega)
        have laterSurface : (middle.noted expr).depth = 0 := reads.depth.trans surface
        obtain ⟨last, tokens, scope, wider, halts⟩ := ih laterSurface ranLater
        have readsNoted : Reads { state with scope := scope } (first :: behind)
            { middle.noted expr with scope := scope } :=
          ⟨reads.upcoming, reads.consumed, rfl, reads.depth⟩
        refine ⟨first, behind ++ last :: tokens, scope, ?_, halts.behind readsNoted⟩
        intro name known
        apply wider
        show name ∈ middle.scope.names
        rw [defined, Scope.mem_names_insertAll]
        exact .inl known

end Tops

end Parse

end AeSchema
