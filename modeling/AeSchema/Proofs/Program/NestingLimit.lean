import AeSchema.Proofs.Program.Calls

/-! What the nesting limit changes: a run with it goes like one without, up to the first value that
lies one level too deep. -/

namespace AeSchema

/-- A value is begun, with a token, one level deeper than `bound` allows. -/
def NestedCall.Exceeds (bound : Nat) (call : NestedCall) : Prop :=
  call.level = bound + 1 ∧ call.first?.isSome

instance (bound : Nat) (call : NestedCall) : Decidable (call.Exceeds bound) :=
  inferInstanceAs (Decidable (_ ∧ _))

theorem NestedCall.of_exceeds_iff {bound level : Nat} {state : ParseState} :
    (of level state).Exceeds bound ↔ level = bound + 1 ∧ state.upcoming ≠ [] := by
  rw [Exceeds, of, List.isSome_head?]

namespace Parse

variable {α β : Type} {bound : Nat} {state middle : ParseState}

/-- The result with the limit, given the calls and the result of the run without. -/
inductive Capped (bound : Nat) (calls : List NestedCall)
    (free : EStateM.Result ParseFailure ParseState α) :
    EStateM.Result ParseFailure ParseState α → Prop
  | within : (∀ call ∈ calls, ¬call.Exceeds bound) → Capped bound calls free free
  | beyond {before call later token after} : calls = before ++ call :: later →
      (∀ earlier ∈ before, ¬earlier.Exceeds bound) → call.level = bound + 1 →
      call.first? = some token → after.consumed.length = call.index + 1 →
      Capped bound calls free (.error ⟨.tooDeep bound, some token⟩ after)

theorem capped_noCalls {action : Parse α} :
    Capped bound (noCalls state) (action state) (action state) :=
  .within (List.forall_mem_nil _)

theorem Capped.behind {early calls : List NestedCall}
    {free limited : EStateM.Result ParseFailure ParseState α}
    (none : ∀ call ∈ early, ¬call.Exceeds bound) (capped : Capped bound calls free limited) :
    Capped bound (early ++ calls) free limited := by
  cases capped with
  | within more =>
      refine .within ?_
      rw [List.forall_mem_append]
      exact ⟨none, more⟩
  | beyond split more level first place =>
      refine .beyond (by rw [split, List.append_assoc]) ?_ level first place
      rw [List.forall_mem_append]
      exact ⟨none, more⟩

theorem Capped.bind {early : List NestedCall} {late : α → Calls} {free limited : Parse α}
    {next other : α → Parse β} (first : Capped bound early (free state) (limited state))
    (second : ∀ value middle, free state = .ok value middle →
      Capped bound (late value middle) (next value middle) (other value middle)) :
    Capped bound (early ++ callsAfter free late state) ((free >>= next) state)
      ((limited >>= other) state) := by
  generalize ranLimited : limited state = limitedResult at first
  cases first with
  | beyond split none level token place =>
      rw [bind_of_error other ranLimited, split, List.append_assoc]
      exact .beyond rfl none level token place
  | within none =>
      cases ran : free state with
      | error failure after =>
          rw [ran] at ranLimited
          rw [bind_of_error next ran, bind_of_error other ranLimited]
          simp only [callsAfter, ran, List.append_nil]
          exact .within none
      | ok value middle =>
          rw [ran] at ranLimited
          rw [bind_of_ok next ran, bind_of_ok other ranLimited]
          simp only [callsAfter, ran]
          exact (second value middle ran).behind none

theorem Capped.after {late : α → Calls} {action : Parse α} {next other : α → Parse β}
    (second : ∀ value middle, action state = .ok value middle →
      Capped bound (late value middle) (next value middle) (other value middle)) :
    Capped bound (callsAfter action late state) ((action >>= next) state)
      ((action >>= other) state) :=
  capped_noCalls.bind second

theorem Capped.before {calls : List NestedCall} {free limited : Parse α} {next : α → Parse β}
    (first : Capped bound calls (free state) (limited state)) :
    Capped bound calls ((free >>= next) state) ((limited >>= next) state) := by
  have whole : Capped bound (calls ++ callsAfter free (fun _ => noCalls) state)
      ((free >>= next) state) ((limited >>= next) state) :=
    first.bind fun _ _ _ => capped_noCalls
  rwa [callsAfter_noCalls, List.append_nil] at whole

theorem capped_deeper {calls : Calls} {free limited : Parse α}
    (capped : Capped bound (calls { state with depth := state.depth + 1 })
      (free { state with depth := state.depth + 1 })
      (limited { state with depth := state.depth + 1 })) :
    Capped bound (callsDeeper calls state) (deeper free state) (deeper limited state) := by
  unfold callsDeeper deeper
  generalize limited { state with depth := state.depth + 1 } = limitedResult at capped
  cases capped with
  | within none => exact .within none
  | beyond split none level token place => exact .beyond split none level token place

section Values

variable {inner : Calls} {free limited : Parse (Value Token)} {depth size : Nat}
  (capped : ∀ state, state.depth = depth → state.upcoming.length ≤ size →
    Capped bound (inner state) (free state) (limited state))

include capped

theorem capped_pair (opening : Token) (entries : Format Token) (level : state.depth = depth)
    (short : state.upcoming.length ≤ size) :
    Capped bound (pairCalls inner state) (pair free opening entries state)
      (pair limited opening entries state) := by
  refine .after fun key first ranKey => ?_
  refine .after fun _ second ranColon => ?_
  obtain ⟨_, readsKey, _⟩ := string_eq_ok ranKey
  have reads := readsKey.cons (expect_eq_ok ranColon).1
  have length := reads.length_upcoming
  exact (capped second (reads.depth.trans level) (by omega)).before

theorem capped_keywordForm (token : Token) (level : state.depth = depth)
    (short : state.upcoming.length ≤ size) :
    Capped bound (keywordCalls inner token state) (keywordForm free token state)
      (keywordForm limited token state) := by
  unfold keywordCalls keywordForm
  cases token.keyword? with
  | none => exact capped_noCalls
  | some keyword =>
      cases keyword with
      | arrayOf => exact (capped state level short).before
      | _ => exact capped_noCalls

variable (tracked : Tracked free)

include tracked

theorem capped_pairs (opening : Token) (fuel : Nat) (entries : Format Token)
    (level : state.depth = depth) (short : state.upcoming.length ≤ size) :
    Capped bound (pairsCalls free inner opening fuel entries state)
      (pairs free opening fuel entries state) (pairs limited opening fuel entries state) := by
  induction fuel generalizing state entries with
  | zero => exact capped_noCalls
  | succ fuel ih =>
      refine (capped_pair capped opening entries level short).bind fun entries first ranPair => ?_
      refine .after fun separator second ranNext => ?_
      obtain ⟨_, readsPair⟩ := (tracked_pair tracked opening _).reads ranPair
      have reads := readsPair.trans (next_eq_ok ranNext)
      have length := reads.length_upcoming
      cases separator.kind with
      | comma => exact ih entries (reads.depth.trans level) (by omega)
      | _ => exact capped_noCalls

theorem capped_form (fuel : Nat) (token : Token) (level : state.depth = depth)
    (short : state.upcoming.length ≤ size) :
    Capped bound (formCalls free inner fuel token state) (form free fuel token state)
      (form limited fuel token state) := by
  unfold formCalls form
  cases token.kind with
  | curlyOpen => exact (capped_pairs capped tracked token fuel .empty level short).before
  | keyword => exact capped_keywordForm capped token level short
  | _ => exact capped_noCalls

end Values

theorem checkDepth_of_room (token : Token) (room : state.depth < bound) :
    checkDepth (some bound) token state = .ok () state :=
  if_neg (Nat.not_le.mpr room)

theorem checkDepth_of_full (token : Token) (full : bound ≤ state.depth) :
    checkDepth (some bound) token state = .error ⟨.tooDeep bound, some token⟩ state :=
  if_pos full

/-- By induction on the fuel, which covers the tokens that are left: the run without the limit ends
for want of tokens before it ends for want of fuel. -/
theorem capped_nested (fuel : Nat) (room : state.depth ≤ bound)
    (short : state.upcoming.length ≤ fuel) :
    Capped bound (nestedCalls none fuel (state.depth + 1) state) (nested none fuel state)
      (nested (some bound) fuel state) := by
  induction fuel generalizing state with
  | zero =>
      have empty : state.upcoming = [] := List.eq_nil_of_length_eq_zero (by omega)
      refine .within ?_
      rw [nestedCalls, List.forall_mem_singleton, NestedCall.of_exceeds_iff]
      exact fun exceeds => exceeds.2 empty
  | succ fuel ih =>
      rw [nestedCalls, nested, nested]
      cases upcoming : state.upcoming with
      | nil =>
          have ends : next state = failHere .endOfInput state := hungry_next.none state upcoming
          have own : ∀ call ∈ [NestedCall.of (state.depth + 1) state], ¬call.Exceeds bound := by
            rw [List.forall_mem_singleton, NestedCall.of_exceeds_iff]
            exact fun exceeds => exceeds.2 upcoming
          rw [bind_of_error _ ends, bind_of_error _ ends]
          refine .behind own ?_
          simp only [callsAfter, ends, failHere]
          exact .within (List.forall_mem_nil _)
      | cons token rest =>
          obtain ⟨middle, ran, reads⟩ := yields_next upcoming
          have length := reads.length_upcoming
          rw [List.length_singleton] at length
          have deep := reads.depth
          rw [bind_of_ok _ ran, bind_of_ok _ ran]
          by_cases full : state.depth = bound
          · rw [bind_of_error _ (checkDepth_of_full token (by omega))]
            have first : (NestedCall.of (state.depth + 1) state).first? = some token := by
              rw [NestedCall.of, upcoming, List.head?_cons]
            have place : middle.consumed.length = state.consumed.length + 1 := by
              rw [reads.consumed]
              rfl
            exact .beyond rfl (List.forall_mem_nil _) (congrArg (· + 1) full) first place
          · have own : ∀ call ∈ [NestedCall.of (state.depth + 1) state], ¬call.Exceeds bound := by
              rw [List.forall_mem_singleton, NestedCall.of_exceeds_iff]
              omega
            have inside (bottom : ParseState) (level : bottom.depth = middle.depth + 1)
                (shorter : bottom.upcoming.length ≤ fuel) :
                Capped bound (nestedCalls none fuel (state.depth + 1 + 1) bottom)
                  (nested none fuel bottom) (nested (some bound) fuel bottom) := by
              rw [← deep, ← level]
              exact ih (by omega) shorter
            have enough : middle.upcoming.length ≤ fuel := by omega
            have free : checkDepth none token middle = .ok () middle := rfl
            rw [bind_of_ok _ free, bind_of_ok _ (checkDepth_of_room token (by omega))]
            refine .behind own ?_
            simp only [callsAfter, ran, free]
            exact capped_deeper (capped_form inside (tracked_nested fuel) fuel token rfl enough)

section Top

variable {fuel : Nat} (surface : state.depth = 0) (short : state.upcoming.length ≤ fuel)

include surface short

theorem capped_bound (binder : Binder) :
    Capped bound (nestedCalls none fuel 1 state) (Parse.bound none fuel binder state)
      (Parse.bound (some bound) fuel binder state) := by
  have room : state.depth ≤ bound := by omega
  have capped := capped_nested fuel room short
  rw [surface] at capped
  exact capped.before

theorem capped_definition (token : Token) :
    Capped bound (callsAfter (expect .identifier) (fun _ => nestedCalls none fuel 1) state)
      (definition none fuel token state) (definition (some bound) fuel token state) := by
  refine .after fun name middle ran => ?_
  have reads := (expect_eq_ok ran).1
  have length := reads.length_upcoming
  exact (capped_bound (reads.depth.trans surface) (by omega) .definition).before

theorem capped_route (token : Token) :
    Capped bound (callsAfter string (fun _ => nestedCalls none fuel 1) state)
      (route none fuel token state) (route (some bound) fuel token state) := by
  refine .after fun path middle ran => ?_
  obtain ⟨_, reads, _⟩ := string_eq_ok ran
  have length := reads.length_upcoming
  exact (capped_bound (reads.depth.trans surface) (by omega) .route).before

theorem capped_response (token : Token) :
    Capped bound
      (callsAfter string (fun _ => callsAfter status fun _ => nestedCalls none fuel 1) state)
      (response none fuel token state) (response (some bound) fuel token state) := by
  refine .after fun path first ranPath => .after fun code second ranStatus => ?_
  obtain ⟨_, readsPath, _⟩ := string_eq_ok ranPath
  obtain ⟨_, readsCode, _⟩ := status_eq_ok ranStatus
  have reads := readsPath.trans readsCode
  have length := reads.length_upcoming
  exact (capped_bound (reads.depth.trans surface) (by omega) .response).before

theorem capped_top :
    Capped bound (topCalls none fuel state) (top none fuel state)
      (top (some bound) fuel state) := by
  refine .after fun token middle ran => ?_
  have reads := next_eq_ok ran
  have length := reads.length_upcoming
  have level := reads.depth.trans surface
  have less : middle.upcoming.length ≤ fuel := by omega
  cases token.keyword? with
  | none => exact capped_noCalls
  | some keyword =>
      cases keyword with
      | define => exact capped_definition level less token
      | route => exact capped_route level less token
      | response => exact capped_response level less token
      | _ => exact capped_noCalls

theorem capped_tops (count : Nat) (found : List (Expr Token)) :
    Capped bound (topsCalls none fuel count state) (tops none fuel count found state)
      (tops (some bound) fuel count found state) := by
  induction count generalizing state found with
  | zero => exact capped_noCalls
  | succ count ih =>
      rw [tops_succ, tops_succ]
      simp only [topsCalls]
      split
      next => exact capped_noCalls
      next =>
        refine (capped_top surface short).bind fun expr middle ran => ?_
        obtain ⟨tokens, ⟨reads, _⟩, _⟩ := top_sound surface ran
        have length := reads.length_upcoming
        have level : (middle.noted expr).depth = 0 := reads.depth.trans surface
        have less : (middle.noted expr).upcoming.length ≤ fuel := by
          show middle.upcoming.length ≤ fuel
          simp only at length
          omega
        exact ih level less (expr :: found)

end Top

end Parse

theorem runParse_capped (bound : Nat) (tokens : List Token) :
    Parse.Capped bound (runCalls none tokens) (runParse none tokens)
      (runParse (some bound) tokens) := by
  have surface : (ParseState.ofTokens tokens).depth = 0 := rfl
  have short : (ParseState.ofTokens tokens).upcoming.length ≤ tokens.length := Nat.le_refl _
  exact Parse.capped_tops surface short tokens.length []

section Limit

variable {bound : Nat} {tokens : List Token}

theorem runParse_some_of_within (within : ∀ call ∈ runCalls none tokens, ¬call.Exceeds bound) :
    runParse (some bound) tokens = runParse none tokens := by
  have capped := runParse_capped bound tokens
  generalize runParse (some bound) tokens = limited at capped
  cases capped with
  | within => rfl
  | @beyond before call later token _ split _ level first _ =>
      have member : call ∈ runCalls none tokens := by simp [split]
      have exceeds : call.Exceeds bound := ⟨level, by simp [first]⟩
      exact absurd exceeds (within call member)

theorem upcoming_of_runParse_error {limit : Option Nat} {failure : ParseFailure}
    {after : ParseState} (failed : runParse limit tokens = .error failure after) :
    after.upcoming = tokens.drop after.consumed.length := by
  obtain ⟨token, read, scope, _, halts⟩ := Parse.tops_halts rfl failed
  have split : tokens = (token :: read) ++ after.upcoming := halts.reads.upcoming
  have length : after.consumed.length = (token :: read).length := by
    rw [halts.reads.consumed, List.length_append, List.length_reverse]
    rfl
  rw [length, split, List.drop_left]

theorem runParse_some_of_exceeds (deep : ∃ call ∈ runCalls none tokens, call.Exceeds bound) :
    ∃ call ∈ runCalls none tokens, call.Exceeds bound ∧
      (∀ other ∈ runCalls none tokens, other.Exceeds bound → call.index ≤ other.index) ∧
      ∃ token after, tokens[call.index]? = some token ∧
        runParse (some bound) tokens = .error ⟨.tooDeep bound, some token⟩ after ∧
        after.upcoming = tokens.drop (call.index + 1) := by
  have capped := runParse_capped bound tokens
  generalize ran : runParse (some bound) tokens = limited at capped
  cases capped with
  | within none =>
      obtain ⟨call, member, exceeds⟩ := deep
      exact absurd exceeds (none call member)
  | @beyond before call later token after split none level first place =>
      have member : call ∈ runCalls Option.none tokens := by simp [split]
      refine ⟨call, member, ⟨level, by simp [first]⟩, fun other otherMember exceeds => ?_,
        token, after, ?_, rfl, ?_⟩
      · have sorted := runCalls_sorted Option.none tokens
        rw [split, List.pairwise_append, List.pairwise_cons] at sorted
        rw [split, List.mem_append, List.mem_cons] at otherMember
        obtain earlier | rfl | laterMember := otherMember
        · exact absurd exceeds (none other earlier)
        · exact Nat.le_refl _
        · exact Nat.le_of_lt (sorted.2.1.1 other laterMember)
      · rw [← first?_of_mem_runCalls member, first]
      · rw [upcoming_of_runParse_error ran, place]

end Limit

/-- The parser without the limit decides: either it begins no value with a token at a level above
the limit, and the result is the same, or the parser with the limit fails at the first of these
tokens. What is counted is the level alone, and at most one call more than the limit is active. -/
theorem parse_nestingLimit (tokens : List Token) :
    ((∀ call ∈ runCalls none tokens, ¬call.Exceeds nestingLimit) →
      parse tokens = parseWithin none tokens) ∧
    ((∃ call ∈ runCalls none tokens, call.Exceeds nestingLimit) →
      ∃ call ∈ runCalls none tokens, call.Exceeds nestingLimit ∧
        (∀ other ∈ runCalls none tokens, other.Exceeds nestingLimit → call.index ≤ other.index) ∧
        ∃ token after, tokens[call.index]? = some token ∧
          parse tokens = .error ⟨.tooDeep nestingLimit, some token⟩ ∧
          runParse (some nestingLimit) tokens = .error ⟨.tooDeep nestingLimit, some token⟩ after ∧
          after.upcoming = tokens.drop (call.index + 1)) ∧
    (ParseFault.tooDeep nestingLimit).message = "expression nested too deeply" ∧
    (∀ limit, ∀ call ∈ runCalls limit tokens,
      call.depth + 1 = call.level ∧ call.first? = tokens[call.index]?) ∧
    (∀ limit, (runCalls limit tokens).Pairwise fun first second => first.index < second.index) ∧
    ∀ call ∈ runCalls (some nestingLimit) tokens, call.level ≤ 257 := by
  refine ⟨fun within => ?_, fun deep => ?_, rfl, fun limit call member => ?_,
    fun limit => runCalls_sorted limit tokens, fun call member => level_le_of_mem_runCalls member⟩
  · rw [parse, parseWithin, parseWithin, runParse_some_of_within within]
  · obtain ⟨call, member, exceeds, first, token, after, found, ran, left⟩ :=
      runParse_some_of_exceeds deep
    refine ⟨call, member, exceeds, first, token, after, found, ?_, ran, left⟩
    rw [parse, parseWithin, ran]
  · exact ⟨(reached_of_mem_runCalls member).counted, first?_of_mem_runCalls member⟩

theorem parse_nestingLimit_sample :
    let token (kind : TokenKind) (value : String) : Token := ⟨value, kind, ⟨1, 1⟩, ⟨0, 0⟩⟩
    let array := token .keyword "ArrayOf"
    let closing := token .curlyClose "\x7d"
    let shallow := [token .keyword "def", token .identifier "A", array, array, token .string "x"]
    let deep := shallow ++ [token .keyword "def", token .identifier "B"] ++
      List.replicate 256 array ++ [closing]
    (∀ call ∈ runCalls none shallow, ¬call.Exceeds nestingLimit) ∧
      parse shallow = parseWithin none shallow ∧
      (∃ call ∈ runCalls none deep, call.Exceeds nestingLimit) ∧
      ∃ found, parse deep = .error ⟨.tooDeep nestingLimit, some found⟩ := by
  intro token array closing shallow deep
  have within : ∀ call ∈ runCalls none shallow, ¬call.Exceeds nestingLimit := by decide +kernel
  have exceeds : ∃ call ∈ runCalls none deep, call.Exceeds nestingLimit := by decide +kernel
  obtain ⟨_, _, _, _, found, _, _, fails, _⟩ := (parse_nestingLimit deep).2.1 exceeds
  exact ⟨within, (parse_nestingLimit shallow).1 within, exceeds, found, fails⟩

end AeSchema
