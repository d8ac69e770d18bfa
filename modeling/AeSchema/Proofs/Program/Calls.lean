import AeSchema.Proofs.Program.Progress

/-! The calls for nested values in a run of the parser, one for each value that is begun. They come
in the order of the tokens, and each lies inside the one that reads the array or object around
it. -/

namespace AeSchema

/-- A call that reads a value. Its level is one for a bound value, and one more than that of the
array or object around it for any other value: so many calls are active. -/
structure NestedCall where
  level : Nat
  /-- What the parser has counted by then. -/
  depth : Nat
  /-- How many tokens are read before. -/
  index : Nat
  /-- The token that the value starts with, unless none is left. -/
  first? : Option Token
  scope : Scope

def NestedCall.of (level : Nat) (state : ParseState) : NestedCall :=
  ⟨level, state.depth, state.consumed.length, state.upcoming.head?, state.scope⟩

abbrev Calls := ParseState → List NestedCall

namespace Parse

variable {α β : Type}

def noCalls : Calls := fun _ => []

def callsAfter (action : Parse α) (calls : α → Calls) : Calls := fun state =>
  match action state with
  | .ok value middle => calls value middle
  | .error .. => []

def callsDeeper (calls : Calls) : Calls := fun state =>
  calls { state with depth := state.depth + 1 }

def pairCalls (inner : Calls) : Calls :=
  callsAfter string fun _ => callsAfter (expect .colon) fun _ => inner

def pairsCalls (nested : Parse (Value Token)) (inner : Calls) (opening : Token) :
    Nat → Format Token → Calls
  | 0, _ => noCalls
  | fuel + 1, entries => fun state =>
      pairCalls inner state ++
        callsAfter (pair nested opening entries) (fun entries => callsAfter next fun separator =>
          match separator.kind with
          | .comma => pairsCalls nested inner opening fuel entries
          | _ => noCalls) state

def keywordCalls (inner : Calls) (token : Token) : Calls :=
  match token.keyword? with
  | some .arrayOf => inner
  | _ => noCalls

def formCalls (nested : Parse (Value Token)) (inner : Calls) (fuel : Nat) (token : Token) : Calls :=
  match token.kind with
  | .curlyOpen => pairsCalls nested inner token fuel .empty
  | .keyword => keywordCalls inner token
  | _ => noCalls

/-- The call itself, at `level`, and those that it makes, one level below. -/
def nestedCalls (limit : Option Nat) : Nat → Nat → Calls
  | 0, level => fun state => [.of level state]
  | fuel + 1, level => fun state =>
      [.of level state] ++
        callsAfter next (fun token => callsAfter (checkDepth limit token) fun _ =>
          callsDeeper <|
            formCalls (nested limit fuel) (nestedCalls limit fuel (level + 1)) fuel token) state

def topCalls (limit : Option Nat) (fuel : Nat) : Calls :=
  let bound := nestedCalls limit fuel 1
  callsAfter next fun token =>
    match token.keyword? with
    | some .define => callsAfter (expect .identifier) fun _ => bound
    | some .route => callsAfter string fun _ => bound
    | some .response => callsAfter string fun _ => callsAfter status fun _ => bound
    | _ => noCalls

def topsCalls (limit : Option Nat) (fuel : Nat) : Nat → Calls
  | 0 => noCalls
  | count + 1 => fun state =>
      if state.upcoming.isEmpty then []
      else
        topCalls limit fuel state ++
          callsAfter (top limit fuel)
            (fun expr middle => topsCalls limit fuel count (middle.noted expr)) state

end Parse

def runCalls (limit : Option Nat) (tokens : List Token) : List NestedCall :=
  Parse.topsCalls limit tokens.length tokens.length (.ofTokens tokens)

namespace Parse

variable {α β : Type} {limit : Option Nat} {state middle : ParseState}

theorem callsAfter_noCalls (action : Parse α) (state : ParseState) :
    callsAfter action (fun _ => noCalls) state = [] := by
  unfold callsAfter
  split <;> rfl

/-- The call is made behind tokens that can be read from the state, counts the active calls, and is
one below the limit at most. -/
structure Reached (limit : Option Nat) (state : ParseState) (call : NestedCall) : Prop where
  place : ∃ read rest, state.upcoming = read ++ rest ∧
    call.index = state.consumed.length + read.length ∧ call.first? = rest.head?
  counted : call.depth + 1 = call.level
  within : ∀ bound ∈ limit, state.depth ≤ bound → call.depth ≤ bound

theorem Reached.behind {tokens : List Token} {call : NestedCall}
    (reads : Reads state tokens middle) (reached : Reached limit middle call) :
    Reached limit state call := by
  obtain ⟨read, rest, split, index, first⟩ := reached.place
  refine ⟨⟨tokens ++ read, rest, ?_, ?_, first⟩, reached.counted, ?_⟩
  · rw [reads.upcoming, split, List.append_assoc]
  · rw [index, reads.consumed, List.length_append, List.length_append, List.length_reverse]
    omega
  · rw [← reads.depth]
    exact reached.within

/-- The calls of the action, one after the other and all before it is done. -/
structure Traces (limit : Option Nat) (calls : Calls) (action : Parse α) (state : ParseState) :
    Prop where
  reached : ∀ call ∈ calls state, Reached limit state call
  scope : ∀ call ∈ calls state, call.scope = state.scope
  sorted : (calls state).Pairwise fun first second => first.index < second.index
  ended : ∀ value after, action state = .ok value after →
    ∀ call ∈ calls state, call.index < after.consumed.length

theorem traces_noCalls (action : Parse α) : Traces limit noCalls action state :=
  ⟨List.forall_mem_nil _, List.forall_mem_nil _, .nil, fun _ _ _ => List.forall_mem_nil _⟩

theorem Traces.bind {early : Calls} {late : α → Calls} {action : Parse α} {next : α → Parse β}
    (first : Traces limit early action state) (tracked : Tracked action)
    (moves : early state ≠ [] → ∀ value, Takes 0 (next value))
    (second : ∀ value middle tokens, action state = .ok value middle →
      Reads state tokens middle → Traces limit (late value) (next value) middle) :
    Traces limit (fun state => early state ++ callsAfter action late state) (action >>= next)
      state := by
  cases ran : action state with
  | error failure after =>
      have none : callsAfter action late state = [] := by simp [callsAfter, ran]
      refine ⟨?_, ?_, ?_, ?_⟩
      · rw [none, List.append_nil]
        exact first.reached
      · rw [none, List.append_nil]
        exact first.scope
      · rw [none, List.append_nil]
        exact first.sorted
      · intro value bottom done
        rw [bind_of_error next ran] at done
        cases done
  | ok value middle =>
      have some : callsAfter action late state = late value middle := by simp [callsAfter, ran]
      obtain ⟨tokens, reads⟩ := tracked.reads ran
      have later := second value middle tokens ran reads
      refine ⟨?_, ?_, ?_, ?_⟩
      · rw [some, List.forall_mem_append]
        exact ⟨first.reached, fun call member => (later.reached call member).behind reads⟩
      · rw [some, List.forall_mem_append]
        exact ⟨first.scope, fun call member => (later.scope call member).trans reads.scope⟩
      · rw [some, List.pairwise_append]
        refine ⟨first.sorted, later.sorted, fun call member other otherMember => ?_⟩
        have stop := first.ended value middle ran call member
        obtain ⟨_, _, _, start, _⟩ := (later.reached other otherMember).place
        omega
      · intro result after done
        rw [bind_of_ok next ran] at done
        rw [some, List.forall_mem_append]
        refine ⟨fun call member => ?_, later.ended result after done⟩
        have stop := first.ended value middle ran call member
        have longer : middle.consumed.length ≤ after.consumed.length :=
          (moves (List.ne_nil_of_mem member) value middle result after done).2.2
        omega

theorem Traces.after {calls : α → Calls} {action : Parse α} {next : α → Parse β}
    (tracked : Tracked action)
    (late : ∀ value middle tokens, action state = .ok value middle →
      Reads state tokens middle → Traces limit (calls value) (next value) middle) :
    Traces limit (callsAfter action calls) (action >>= next) state :=
  (traces_noCalls action).bind tracked (fun some => absurd rfl some) late

theorem Traces.before {calls : Calls} {action : Parse α} {next : α → Parse β}
    (traces : Traces limit calls action state) (moves : ∀ value, Takes 0 (next value)) :
    Traces limit calls (action >>= next) state := by
  refine ⟨traces.reached, traces.scope, traces.sorted, fun result after done call member => ?_⟩
  obtain ⟨value, middle, first, second⟩ := bind_eq_ok_iff.mp done
  have stop := traces.ended value middle first call member
  have longer : middle.consumed.length ≤ after.consumed.length :=
    (moves value middle result after second).2.2
  omega

theorem traces_deeper {calls : Calls} {inner : Parse α}
    (room : ∀ bound ∈ limit, state.depth + 1 ≤ bound)
    (traces : Traces limit calls inner { state with depth := state.depth + 1 }) :
    Traces limit (callsDeeper calls) (deeper inner) state := by
  refine ⟨fun call member => ?_, traces.scope, traces.sorted,
    fun value after done call member => ?_⟩
  · have reached := traces.reached call member
    exact ⟨reached.place, reached.counted, fun bound known _ =>
      reached.within bound known (room bound known)⟩
  · obtain ⟨bottom, ran, rfl⟩ := deeper_eq_ok done
    exact traces.ended value bottom ran call member

section Values

variable {inner : Calls} {action : Parse (Value Token)} {depth : Nat}
  (traces : ∀ state, state.depth = depth → Traces limit inner action state)

include traces

theorem traces_keywordForm (token : Token) (level : state.depth = depth) :
    Traces limit (keywordCalls inner token) (keywordForm action token) state := by
  unfold keywordCalls keywordForm
  cases token.keyword? with
  | none => exact traces_noCalls _
  | some keyword =>
      cases keyword with
      | arrayOf => exact (traces state level).before fun element => (tracked_pure _).takes
      | _ => exact traces_noCalls _

theorem traces_pair (opening : Token) (entries : Format Token) (level : state.depth = depth) :
    Traces limit (pairCalls inner) (pair action opening entries) state := by
  refine .after tracked_string fun key first front _ readsKey => ?_
  refine .after (tracked_expect .colon) fun _ second more _ reads => ?_
  have same : second.depth = depth := by rw [reads.depth, readsKey.depth, level]
  refine (traces second same).before fun value => Tracked.takes ?_
  exact (tracked_noteRepeated opening entries key).bind fun _ => tracked_pure _

variable (tracked : Tracked action)

include tracked

theorem traces_pairs (opening : Token) (fuel : Nat) (entries : Format Token)
    (level : state.depth = depth) :
    Traces limit (pairsCalls action inner opening fuel entries) (pairs action opening fuel entries)
      state := by
  induction fuel generalizing state entries with
  | zero => exact traces_noCalls _
  | succ fuel ih =>
      refine (traces_pair traces opening entries level).bind
        (tracked_pair tracked opening entries) (fun _ entries => Tracked.takes ?_)
        fun entries first front _ readsPair => ?_
      · refine tracked_next.bind fun separator => ?_
        split
        · exact tracked_pure entries
        · exact tracked_pairs tracked opening fuel entries
        · exact tracked_failAt separator _
      · refine .after tracked_next fun separator second more _ reads => ?_
        have same : second.depth = depth := by rw [reads.depth, readsPair.depth, level]
        cases separator.kind with
        | comma => exact ih entries same
        | _ => exact traces_noCalls _

theorem traces_form (fuel : Nat) (token : Token) (level : state.depth = depth) :
    Traces limit (formCalls action inner fuel token) (form action fuel token) state := by
  unfold formCalls form
  cases token.kind with
  | curlyOpen =>
      exact (traces_pairs traces tracked token fuel .empty level).before
        fun entries => (tracked_pure _).takes
  | keyword => exact traces_keywordForm traces token level
  | _ => exact traces_noCalls _

end Values

theorem reached_of {level : Nat} (counted : state.depth + 1 = level) :
    Reached limit state (.of level state) :=
  ⟨⟨[], state.upcoming, rfl, rfl, rfl⟩, counted, fun _ _ => id⟩

theorem traces_next {level : Nat} (counted : state.depth + 1 = level) :
    Traces limit (fun state => [.of level state]) next state := by
  refine ⟨?_, ?_, List.pairwise_singleton _ _, fun token after ran => ?_⟩
  · rw [List.forall_mem_singleton]
    exact reached_of counted
  · rw [List.forall_mem_singleton, NestedCall.of]
  · rw [List.forall_mem_singleton, (next_eq_ok ran).consumed]
    exact Nat.lt_succ_self _

theorem traces_nested (fuel level : Nat) (counted : state.depth + 1 = level) :
    Traces limit (nestedCalls limit fuel level) (nested limit fuel) state := by
  induction fuel generalizing state level with
  | zero =>
      refine ⟨?_, ?_, List.pairwise_singleton _ _, ?_⟩
      · rw [nestedCalls, List.forall_mem_singleton]
        exact reached_of counted
      · rw [nestedCalls, List.forall_mem_singleton, NestedCall.of]
      · rintro value after ⟨⟩
  | succ fuel ih =>
      refine (traces_next counted).bind tracked_next (fun _ token => Tracked.takes ?_)
        fun token middle _ _ reads => ?_
      · exact (tracked_checkDepth token).bind fun _ =>
          tracked_deeper (tracked_form (tracked_nested fuel) fuel token)
      · refine .after (tracked_checkDepth token) fun _ bottom _ ran _ => ?_
        obtain ⟨rfl, room⟩ := checkDepth_eq_ok ran
        refine traces_deeper room (traces_form (fun deep same => ih (level + 1) ?_)
          (tracked_nested fuel) fuel token rfl)
        rw [same, reads.depth, counted]

theorem traces_bound (fuel : Nat) (binder : Binder) (surface : state.depth = 0) :
    Traces limit (nestedCalls limit fuel 1) (bound limit fuel binder) state := by
  refine (traces_nested fuel 1 (by omega)).before fun value => Tracked.takes ?_
  split
  · exact tracked_pure _
  · exact tracked_failHere _

theorem traces_definition (fuel : Nat) (token : Token) (surface : state.depth = 0) :
    Traces limit (callsAfter (expect .identifier) fun _ => nestedCalls limit fuel 1)
      (definition limit fuel token) state := by
  refine .after (tracked_expect .identifier) fun name _ _ _ reads => ?_
  refine (traces_bound fuel .definition (reads.depth.trans surface)).before fun value => ?_
  exact (takes_define name.value).before fun _ => tracked_pure _

theorem traces_route (fuel : Nat) (token : Token) (surface : state.depth = 0) :
    Traces limit (callsAfter string fun _ => nestedCalls limit fuel 1) (route limit fuel token)
      state := by
  refine .after tracked_string fun _ _ _ _ reads => ?_
  exact (traces_bound fuel .route (reads.depth.trans surface)).before
    fun _ => (tracked_pure _).takes

theorem traces_response (fuel : Nat) (token : Token) (surface : state.depth = 0) :
    Traces limit (callsAfter string fun _ => callsAfter status fun _ => nestedCalls limit fuel 1)
      (response limit fuel token) state := by
  refine .after tracked_string fun _ _ _ _ readsPath => ?_
  refine .after tracked_status fun _ _ _ _ reads => ?_
  exact (traces_bound fuel .response (reads.depth.trans (readsPath.depth.trans surface))).before
    fun _ => (tracked_pure _).takes

theorem traces_top (fuel : Nat) (surface : state.depth = 0) :
    Traces limit (topCalls limit fuel) (top limit fuel) state := by
  refine .after tracked_next fun token middle _ _ reads => ?_
  have level := reads.depth.trans surface
  cases token.keyword? with
  | none => exact traces_noCalls _
  | some keyword =>
      cases keyword with
      | define => exact traces_definition fuel token level
      | route => exact traces_route fuel token level
      | response => exact traces_response fuel token level
      | _ => exact traces_noCalls _

theorem topsCalls_reached_sorted (fuel count : Nat) (surface : state.depth = 0) :
    (∀ call ∈ topsCalls limit fuel count state, Reached limit state call) ∧
      (topsCalls limit fuel count state).Pairwise fun first second =>
        first.index < second.index := by
  induction count generalizing state with
  | zero => exact ⟨List.forall_mem_nil _, .nil⟩
  | succ count ih =>
      have traces : Traces limit (topCalls limit fuel) (top limit fuel) state :=
        traces_top fuel surface
      simp only [topsCalls]
      split
      next => exact ⟨List.forall_mem_nil _, .nil⟩
      next =>
        cases ran : top limit fuel state with
        | error failure after =>
            simp only [callsAfter, ran, List.append_nil]
            exact ⟨traces.reached, traces.sorted⟩
        | ok expr middle =>
            simp only [callsAfter, ran]
            obtain ⟨tokens, ⟨reads, _⟩, _⟩ := top_sound surface ran
            have level : (middle.noted expr).depth = 0 := reads.depth.trans surface
            obtain ⟨later, sorted⟩ := ih level
            have behind : ∀ call ∈ topsCalls limit fuel count (middle.noted expr),
                Reached limit { middle with scope := state.scope } call := fun call member =>
              ⟨(later call member).place, (later call member).counted, (later call member).within⟩
            constructor
            · rw [List.forall_mem_append]
              exact ⟨traces.reached, fun call member => (behind call member).behind reads⟩
            · rw [List.pairwise_append]
              refine ⟨traces.sorted, sorted, fun call member other otherMember => ?_⟩
              have stop := traces.ended expr middle ran call member
              obtain ⟨_, _, _, start, _⟩ := (behind other otherMember).place
              simp only at start
              omega

end Parse

section Runs

variable {limit : Option Nat} {tokens : List Token} {call : NestedCall}

theorem reached_of_mem_runCalls (member : call ∈ runCalls limit tokens) :
    Parse.Reached limit (.ofTokens tokens) call :=
  (Parse.topsCalls_reached_sorted tokens.length tokens.length rfl).1 call member

theorem runCalls_sorted (limit : Option Nat) (tokens : List Token) :
    (runCalls limit tokens).Pairwise fun first second => first.index < second.index :=
  (Parse.topsCalls_reached_sorted tokens.length tokens.length rfl).2

theorem first?_of_mem_runCalls (member : call ∈ runCalls limit tokens) :
    call.first? = tokens[call.index]? := by
  obtain ⟨read, rest, split, index, first⟩ := (reached_of_mem_runCalls member).place
  have place : call.index = read.length := by simpa [ParseState.ofTokens] using index
  have whole : tokens = read ++ rest := split
  rw [first, place, whole, List.head?_eq_getElem?, List.getElem?_append_right (Nat.le_refl _),
    Nat.sub_self]

theorem level_le_of_mem_runCalls {bound : Nat} (member : call ∈ runCalls (some bound) tokens) :
    call.level ≤ bound + 1 := by
  have reached := reached_of_mem_runCalls member
  have counted := reached.counted
  have within := reached.within bound rfl (Nat.zero_le bound)
  omega

end Runs

end AeSchema
