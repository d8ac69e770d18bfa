import AeSchema.Proofs.Program.Frame

/-! What a run of the parser does not look at: tokens that it does not reach, and names that are
known besides those it needs. When these are changed, it ends as before. -/

namespace AeSchema

/-- The end of the tokens is replaced, and more names are known. -/
structure Change where
  rest : List Token
  instead : List Token
  names : List String

namespace Change

/-- Failures that may turn out differently after the change. -/
def Excuses (change : Change) : ParseFault → Prop
  | .endOfInput => change.instead ≠ []
  | .unknownName name => name ∈ change.names
  | _ => False

/-- `twin` is `state` after the change. -/
structure Applies (change : Change) (state twin : ParseState) : Prop where
  upcoming : ∃ front,
    state.upcoming = front ++ change.rest ∧ twin.upcoming = front ++ change.instead
  depth : twin.depth = state.depth
  names : ∀ name, name ∈ twin.scope.names ↔ name ∈ state.scope.names ∨ name ∈ change.names

structure AppliesHere (change : Change) (state twin : ParseState) : Prop
    extends change.Applies state twin where
  blame : twin.consumed.head? = state.consumed.head?

theorem not_excuses {change : Change} {fault : ParseFault}
    (known : ∀ name ∈ change.names, fault ≠ .unknownName name)
    (ends : change.instead = [] ∨ fault ≠ .endOfInput) : ¬change.Excuses fault := by
  cases fault with
  | unknownName name => exact fun member => known name member rfl
  | endOfInput => exact fun more => ends.elim more fun missing => missing rfl
  | _ => exact id

open Parse

variable {α β : Type} {change : Change} {state twin middle after : ParseState} {size twinSize : Nat}
  {limit : Option Nat}

/-- The second outcome is the first one, unless this has used tokens that were replaced or is a
failure that the change excuses. -/
inductive Agrees (change : Change) :
    EStateM.Result ParseFailure ParseState α → EStateM.Result ParseFailure ParseState α → Prop
  | ok {result after twin} : change.AppliesHere after twin →
      Agrees change (.ok result after) (.ok result twin)
  | error {failure after twin} : Agrees change (.error failure after) (.error failure twin)
  | beyond {first second} : (endState first).upcoming.length < change.rest.length →
      Agrees change first second
  | excused {failure after second} : change.Excuses failure.fault →
      Agrees change (.error failure after) second

structure Robust (change : Change) (size twinSize : Nat) (action other : Parse α) : Prop where
  shrinks : Shrinks action
  agrees : ∀ state twin, change.AppliesHere state twin → state.upcoming.length ≤ size →
    twin.upcoming.length ≤ twinSize → change.Agrees (action state) (other twin)

theorem Applies.length (applies : change.Applies state twin) :
    twin.upcoming.length + change.rest.length =
      state.upcoming.length + change.instead.length := by
  obtain ⟨front, split, twinSplit⟩ := applies.upcoming
  rw [split, twinSplit, List.length_append, List.length_append]
  omega

theorem Robust.smaller {action other : Parse α} (robust : change.Robust size twinSize action other)
    {less twinLess : Nat} (bound : less ≤ size) (twinBound : twinLess ≤ twinSize) :
    change.Robust less twinLess action other :=
  ⟨robust.shrinks, fun state twin applies fits twinFits =>
    robust.agrees state twin applies (Nat.le_trans fits bound)
      (Nat.le_trans twinFits twinBound)⟩

theorem Robust.bind {action other : Parse α} {next twinNext : α → Parse β}
    (early : change.Robust size twinSize action other)
    (late : ∀ value, change.Robust size twinSize (next value) (twinNext value)) :
    change.Robust size twinSize (action >>= next) (other >>= twinNext) := by
  refine ⟨early.shrinks.bind fun value => (late value).shrinks, ?_⟩
  intro state twin applies fits twinFits
  have agrees := early.agrees state twin applies fits twinFits
  have length := early.shrinks state
  generalize ran : action state = first at agrees length
  generalize twinRan : other twin = second at agrees
  cases agrees with
  | @ok value middle twinMiddle appliesLater =>
      rw [bind_of_ok next ran, bind_of_ok twinNext twinRan]
      have twinLength := applies.length
      have laterLength := appliesLater.length
      simp only [endState] at length
      exact (late value).agrees middle twinMiddle appliesLater (by omega) (by omega)
  | error =>
      rw [bind_of_error next ran, bind_of_error twinNext twinRan]
      exact .error
  | excused excuses =>
      rw [bind_of_error next ran]
      exact .excused excuses
  | beyond short =>
      cases first with
      | ok value middle =>
          rw [bind_of_ok next ran]
          have shorter := (late value).shrinks middle
          simp only [endState] at short
          exact .beyond (by omega)
      | error failure middle =>
          rw [bind_of_error next ran]
          exact .beyond short

theorem robust_pure (value : α) : change.Robust size twinSize (pure value) (pure value) :=
  ⟨(tracked_pure value).shrinks, fun _ _ applies _ _ => .ok applies⟩

theorem robust_failAt (token : Token) (fault : ParseFault) :
    change.Robust size twinSize (failAt token fault : Parse α) (failAt token fault) :=
  ⟨(tracked_failAt token fault).shrinks, fun _ _ _ _ _ => .error⟩

theorem robust_failHere (fault : ParseFault) :
    change.Robust size twinSize (failHere fault : Parse α) (failHere fault) := by
  refine ⟨(tracked_failHere fault).shrinks, fun state twin applies _ _ => ?_⟩
  rw [failHere, failHere, applies.blame]
  exact .error

theorem agrees_at_end {action other : Parse α} (applies : change.AppliesHere state twin)
    (empty : state.upcoming = []) (none : action state = failHere .endOfInput state)
    (twinNone : twin.upcoming = [] → other twin = failHere .endOfInput twin) :
    change.Agrees (action state) (other twin) := by
  rw [none]
  by_cases same : change.instead = []
  · have twinEmpty : twin.upcoming = [] := by
      have length := applies.length
      rw [empty, same, List.length_nil] at length
      exact List.eq_nil_of_length_eq_zero (by omega)
    rw [twinNone twinEmpty, failHere, failHere, applies.blame]
    exact .error
  · exact .excused same

theorem agrees_at_change {action other : Parse α} (hungry : Hungry action)
    (applies : change.AppliesHere state twin) (reached : state.upcoming = change.rest)
    (twinNone : twin.upcoming = [] → other twin = failHere .endOfInput twin) :
    change.Agrees (action state) (other twin) := by
  by_cases empty : state.upcoming = []
  · exact agrees_at_end applies empty (hungry.none state empty) twinNone
  · exact .beyond (reached ▸ hungry.some state empty)

theorem robust_of_no_fuel {other : Parse α}
    (none : ∀ state, state.upcoming = [] → other state = failHere .endOfInput state) :
    change.Robust 0 twinSize (failHere .endOfInput) other := by
  refine ⟨(tracked_failHere _).shrinks, fun state twin applies fits _ => ?_⟩
  have empty := List.eq_nil_of_length_eq_zero (Nat.le_zero.mp fits)
  exact agrees_at_end applies empty rfl (none twin)

theorem robust_of_no_twin_fuel {action : Parse α} (hungry : Hungry action) :
    change.Robust size 0 action (failHere .endOfInput) := by
  refine ⟨hungry.shrinks, fun state twin applies _ fits => ?_⟩
  obtain ⟨front, split, twinSplit⟩ := applies.upcoming
  have empty := List.eq_nil_of_length_eq_zero (Nat.le_zero.mp fits)
  rw [twinSplit, List.append_eq_nil_iff] at empty
  rw [empty.1] at split
  exact agrees_at_change hungry applies split fun _ => rfl

theorem agrees_next_bind {rest twinRest : Token → Parse α} {token : Token} {front : List Token}
    (applies : change.Applies state twin) (split : state.upcoming = token :: (front ++ change.rest))
    (twinSplit : twin.upcoming = token :: (front ++ change.instead))
    (late : ∀ middle twinMiddle, change.AppliesHere middle twinMiddle →
      middle.upcoming.length + 1 = state.upcoming.length →
      twinMiddle.upcoming.length + 1 = twin.upcoming.length →
        change.Agrees (rest token middle) (twinRest token twinMiddle)) :
    change.Agrees ((next >>= rest) state) ((next >>= twinRest) twin) := by
  obtain ⟨middle, ran, reads⟩ := yields_next split
  obtain ⟨twinMiddle, twinRan, twinReads⟩ := yields_next twinSplit
  have upcoming : middle.upcoming = front ++ change.rest := reads.upcoming_eq split
  have twinUpcoming : twinMiddle.upcoming = front ++ change.instead :=
    twinReads.upcoming_eq twinSplit
  rw [bind_of_ok rest ran, bind_of_ok twinRest twinRan]
  refine late middle twinMiddle ⟨⟨⟨front, upcoming, twinUpcoming⟩, ?_, ?_⟩, ?_⟩ ?_ ?_
  · rw [reads.depth, twinReads.depth, applies.depth]
  · rw [reads.scope, twinReads.scope]
    exact applies.names
  · rw [reads.consumed, twinReads.consumed]
    rfl
  · rw [upcoming, split, List.length_cons]
  · rw [twinUpcoming, twinSplit, List.length_cons]

theorem Robust.next_bind {rest twinRest : Token → Parse α}
    (late : ∀ token, change.Robust size twinSize (rest token) (twinRest token)) :
    change.Robust (size + 1) (twinSize + 1) (next >>= rest) (next >>= twinRest) := by
  have hungry := hungry_next.bind fun token => (late token).shrinks
  refine ⟨hungry.shrinks, fun state twin applies fits twinFits => ?_⟩
  obtain ⟨front, split, twinSplit⟩ := applies.upcoming
  cases front with
  | nil =>
      refine agrees_at_change hungry applies split fun empty => ?_
      rw [bind_of_error twinRest (hungry_next.none twin empty)]
      rfl
  | cons token front =>
      refine agrees_next_bind applies.toApplies split twinSplit
        fun middle twinMiddle appliesLater shorter twinShorter => ?_
      exact (late token).agrees middle twinMiddle appliesLater (by omega) (by omega)

theorem robust_next : change.Robust size twinSize next next := by
  have robust : change.Robust (size + 1) (twinSize + 1) (next >>= pure) (next >>= pure) :=
    Robust.next_bind robust_pure
  rw [bind_pure] at robust
  exact robust.smaller (Nat.le_succ size) (Nat.le_succ twinSize)

theorem robust_note (notice : Notice) :
    change.Robust size twinSize (note notice) (note notice) :=
  ⟨(tracked_note notice).shrinks, fun _ _ applies _ _ =>
    .ok ⟨⟨applies.upcoming, applies.depth, applies.names⟩, applies.blame⟩⟩

theorem robust_expect (kind : TokenKind) :
    change.Robust size twinSize (expect kind) (expect kind) := by
  refine robust_next.bind fun token => ?_
  split
  · exact robust_pure token
  · exact robust_failAt token _

theorem robust_string : change.Robust size twinSize string string :=
  (robust_expect .string).bind fun token => robust_pure token.value

theorem robust_reference (token : Token) :
    change.Robust size twinSize (reference token) (reference token) := by
  refine ⟨(tracked_reference token).shrinks, fun state twin applies _ _ => ?_⟩
  have names := applies.names token.value
  simp only [← Scope.contains_iff] at names
  unfold reference
  by_cases known : state.scope.contains token.value = true
  · rw [if_pos known, if_pos (names.mpr (.inl known))]
    exact .ok applies
  · rw [if_neg known]
    by_cases added : token.value ∈ change.names
    · exact .excused added
    · rw [if_neg (mt names.mp (not_or.mpr ⟨known, added⟩))]
      exact .error

theorem robust_noteRepeated (opening : Token) (entries : Format Token) (key : String) :
    change.Robust size twinSize (noteRepeated opening entries key)
      (noteRepeated opening entries key) := by
  unfold noteRepeated
  split
  · exact robust_note _
  · exact robust_pure ()

theorem robust_checkDepth (token : Token) :
    change.Robust size twinSize (checkDepth limit token) (checkDepth limit token) := by
  refine ⟨(tracked_checkDepth token).shrinks, fun state twin applies _ _ => ?_⟩
  unfold checkDepth
  cases limit with
  | none => exact .ok applies
  | some bound =>
      simp only [applies.depth]
      split
      · exact .error
      · exact .ok applies

theorem robust_deeper {inner twinInner : Parse α}
    (robust : change.Robust size twinSize inner twinInner) :
    change.Robust size twinSize (deeper inner) (deeper twinInner) := by
  refine ⟨robust.shrinks.deeper, fun state twin applies fits twinFits => ?_⟩
  have below : change.AppliesHere { state with depth := state.depth + 1 }
      { twin with depth := twin.depth + 1 } :=
    ⟨⟨applies.upcoming, congrArg (· + 1) applies.depth, applies.names⟩, applies.blame⟩
  have agrees := robust.agrees _ _ below fits twinFits
  unfold deeper
  generalize inner { state with depth := state.depth + 1 } = first at agrees
  generalize twinInner { twin with depth := twin.depth + 1 } = second at agrees
  cases agrees with
  | ok applies =>
      exact .ok ⟨⟨applies.upcoming, congrArg (· - 1) applies.depth, applies.names⟩, applies.blame⟩
  | error => exact .error
  | excused excuses => exact .excused excuses
  | beyond short => cases first <;> exact .beyond short

section Values

variable {inner twinInner : Parse (Value Token)}
  (robust : change.Robust size twinSize inner twinInner)

include robust

theorem robust_pair (opening : Token) (entries : Format Token) :
    change.Robust size twinSize (pair inner opening entries) (pair twinInner opening entries) := by
  refine robust_string.bind fun key => (robust_expect .colon).bind fun _ => ?_
  refine robust.bind fun value => (robust_noteRepeated opening entries key).bind fun _ => ?_
  exact robust_pure (entries.insert key value)

theorem robust_keywordForm (token : Token) :
    change.Robust size twinSize (keywordForm inner token) (keywordForm twinInner token) := by
  unfold keywordForm
  split
  · exact robust.bind fun element => robust_pure _
  · exact robust_string.bind fun literal => robust_pure _
  · exact robust_failAt token _
  · exact robust_failAt token _

end Values

theorem robust_pairs {inner twinInner : Parse (Value Token)}
    (robust : change.Robust size twinSize inner twinInner) (tracked : Tracked inner)
    (twinTracked : Tracked twinInner) (opening : Token) {count twinCount : Nat}
    (counted : count ≤ size) (twinCounted : twinCount ≤ twinSize) (entries : Format Token) :
    change.Robust count twinCount (pairs inner opening count entries)
      (pairs twinInner opening twinCount entries) := by
  induction count generalizing twinCount entries with
  | zero =>
      exact robust_of_no_fuel fun state empty =>
        pairs_nil twinTracked opening twinCount entries empty
  | succ count ih =>
      cases twinCount with
      | zero => exact robust_of_no_twin_fuel (hungry_pairs tracked opening count entries)
      | succ twinCount =>
          have robustPair := robust_pair (robust.smaller counted twinCounted) opening entries
          refine robustPair.bind fun entries => Robust.next_bind fun separator => ?_
          split
          · exact robust_pure entries
          · exact ih (Nat.le_of_succ_le counted) (Nat.le_of_succ_le twinCounted) entries
          · exact robust_failAt separator _

theorem robust_form {inner twinInner : Parse (Value Token)}
    (robust : change.Robust size twinSize inner twinInner) (tracked : Tracked inner)
    (twinTracked : Tracked twinInner) (token : Token) :
    change.Robust size twinSize (form inner size token) (form twinInner twinSize token) := by
  unfold form
  split
  · exact robust_pure _
  · exact (robust_reference token).bind fun expr => robust_pure _
  · refine Robust.bind ?_ fun entries => robust_pure _
    exact robust_pairs robust tracked twinTracked token (Nat.le_refl _) (Nat.le_refl _) .empty
  · exact robust_keywordForm robust token
  · exact robust_failAt token _

theorem robust_nested (fuel twinFuel : Nat) :
    change.Robust fuel twinFuel (nested limit fuel) (nested limit twinFuel) := by
  induction fuel generalizing twinFuel with
  | zero => exact robust_of_no_fuel fun state empty => nested_nil twinFuel empty
  | succ fuel ih =>
      cases twinFuel with
      | zero => exact robust_of_no_twin_fuel (hungry_nested fuel)
      | succ twinFuel =>
          refine Robust.next_bind fun token => (robust_checkDepth token).bind fun _ => ?_
          exact robust_deeper
            (robust_form (ih twinFuel) (tracked_nested fuel) (tracked_nested twinFuel) token)

theorem robust_bound (fuel twinFuel : Nat) (binder : Binder) :
    change.Robust fuel twinFuel (bound limit fuel binder) (bound limit twinFuel binder) := by
  refine (robust_nested fuel twinFuel).bind fun value => ?_
  split
  · exact robust_pure _
  · exact robust_failHere _

theorem robust_status : change.Robust size twinSize status status := by
  refine robust_next.bind fun code => ?_
  split
  · exact robust_failAt code _
  · exact robust_pure _

section Top

variable {fuel twinFuel : Nat} {token : Token} {front : List Token}

theorem robust_define (name : String) :
    change.Robust size twinSize (define name) (define name) := by
  refine ⟨fun state => Nat.le_refl _, fun state twin applies _ _ => .ok ⟨⟨applies.upcoming,
    applies.depth, fun other => ?_⟩, applies.blame⟩⟩
  simp only [Scope.mem_names_insert, applies.names]
  exact or_right_comm

theorem robust_definition (fuel twinFuel : Nat) (token : Token) :
    change.Robust fuel twinFuel (definition limit fuel token)
      (definition limit twinFuel token) := by
  refine (robust_expect .identifier).bind fun name => ?_
  refine (robust_bound fuel twinFuel .definition).bind fun value => ?_
  exact (robust_define name.value).bind fun _ => robust_pure _

theorem robust_route (fuel twinFuel : Nat) (token : Token) :
    change.Robust fuel twinFuel (route limit fuel token) (route limit twinFuel token) :=
  robust_string.bind fun _ => (robust_bound fuel twinFuel .route).bind fun _ => robust_pure _

theorem robust_response (fuel twinFuel : Nat) (token : Token) :
    change.Robust fuel twinFuel (response limit fuel token) (response limit twinFuel token) :=
  robust_string.bind fun _ => robust_status.bind fun _ =>
    (robust_bound fuel twinFuel .response).bind fun _ => robust_pure _

theorem agrees_top (applies : change.Applies state twin)
    (split : state.upcoming = token :: (front ++ change.rest))
    (twinSplit : twin.upcoming = token :: (front ++ change.instead))
    (fits : state.upcoming.length ≤ fuel) (twinFits : twin.upcoming.length ≤ twinFuel) :
    change.Agrees (top limit fuel state) (top limit twinFuel twin) := by
  refine agrees_next_bind applies split twinSplit
    fun middle twinMiddle later shorter twinShorter => ?_
  cases token.keyword? with
  | none => exact .error
  | some keyword =>
      cases keyword with
      | define =>
          exact (robust_definition fuel twinFuel token).agrees _ _ later (by omega) (by omega)
      | route => exact (robust_route fuel twinFuel token).agrees _ _ later (by omega) (by omega)
      | response =>
          exact (robust_response fuel twinFuel token).agrees _ _ later (by omega) (by omega)
      | arrayOf | url => exact .error

theorem Applies.tops_error {count twinCount : Nat} {found twinFound : List (Expr Token)}
    {failure : ParseFailure} (applies : change.Applies state twin) (surface : state.depth = 0)
    (fits : state.upcoming.length ≤ fuel) (twinFits : twin.upcoming.length ≤ twinFuel)
    (counted : twin.upcoming.length ≤ twinCount)
    (ran : tops limit fuel count found state = .error failure after) :
    after.upcoming.length < change.rest.length ∨ change.Excuses failure.fault ∨
      ∃ bottom, tops limit twinFuel twinCount twinFound twin = .error failure bottom := by
  induction count generalizing state twin found twinCount twinFound with
  | zero =>
      obtain ⟨_, impossible, _⟩ := tops_eq_error ran
      cases impossible
  | succ count ih =>
      obtain ⟨front, split, twinSplit⟩ := applies.upcoming
      cases front with
      | nil =>
          -- A failing run reads at least one token, and here all are replaced.
          obtain ⟨_, _, _, _, halts⟩ := tops_halts surface ran
          have length := halts.reads.length_upcoming
          simp only [split, List.nil_append, List.length_cons] at length
          exact .inl (by omega)
      | cons token front =>
          have left : twin.upcoming ≠ [] := by simp [twinSplit]
          obtain ⟨twinCount, rfl⟩ : ∃ rounds, twinCount = rounds + 1 := by
            rw [twinSplit, List.cons_append, List.length_cons] at counted
            exact Nat.exists_eq_add_one.mpr (Nat.lt_of_lt_of_le (Nat.succ_pos _) counted)
          have agrees : change.Agrees (top limit fuel state) (top limit twinFuel twin) :=
            agrees_top applies split twinSplit fits twinFits
          have length := applies.length
          generalize twinRan : top limit twinFuel twin = second at agrees
          obtain ⟨_, ⟨⟩, _, failed | ⟨expr, middle, ranTop, ranLater⟩⟩ := tops_eq_error ran
          · rw [failed] at agrees
            cases agrees with
            | beyond short => exact .inl short
            | excused excuses => exact .inr (.inl excuses)
            | error => exact .inr (.inr ⟨_, tops_of_top_error left twinRan⟩)
          · obtain ⟨tokens, ⟨reads, _⟩, derives⟩ := top_sound surface ranTop
            have used := reads.length_upcoming
            have positive := derives.length_ge
            have laterSurface : (middle.noted expr).depth = 0 := reads.depth.trans surface
            simp only at used
            rw [ranTop] at agrees
            cases agrees with
            | beyond short =>
                -- What runs later does not give tokens back.
                obtain ⟨_, _, _, _, halts⟩ := tops_halts laterSurface ranLater
                have later := halts.reads.length_upcoming
                simp only [endState] at short
                simp only [ParseState.noted] at later
                exact .inl (by omega)
            | @ok _ _ twinMiddle appliesHere =>
                have laterLength := appliesHere.length
                have appliesLater :
                    change.Applies (middle.noted expr) (twinMiddle.noted expr) :=
                  ⟨appliesHere.upcoming, appliesHere.depth, appliesHere.names⟩
                rw [tops_of_top_ok left twinRan]
                apply ih appliesLater laterSurface _ _ _ ranLater
                all_goals simp only [ParseState.noted]; omega

theorem Applies.tops_error_same {count twinCount : Nat} {found twinFound : List (Expr Token)}
    {failure : ParseFailure} (applies : change.Applies state twin) (surface : state.depth = 0)
    (fits : state.upcoming.length ≤ fuel) (twinFits : twin.upcoming.length ≤ twinFuel)
    (counted : twin.upcoming.length ≤ twinCount)
    (ran : tops limit fuel count found state = .error failure after)
    (unread : change.rest.length ≤ after.upcoming.length)
    (unexcused : ¬change.Excuses failure.fault) :
    ∃ bottom, tops limit twinFuel twinCount twinFound twin = .error failure bottom := by
  rcases applies.tops_error surface fits twinFits counted ran with beyond | excuses | same
  · exact absurd beyond (Nat.not_lt.mpr unread)
  · exact absurd excuses unexcused
  · exact same

end Top

end Change

end AeSchema
