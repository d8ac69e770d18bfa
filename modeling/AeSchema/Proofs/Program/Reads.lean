import AeSchema.Program.Parse

/-! Runs of the parser that succeed: what they read and what they leave as it was. -/

namespace AeSchema

/-- Between the two states, `tokens` are read; scope and depth stay the same. -/
structure Reads (before : ParseState) (tokens : List Token) (after : ParseState) : Prop where
  upcoming : before.upcoming = tokens ++ after.upcoming
  consumed : after.consumed = tokens.reverse ++ before.consumed
  scope : after.scope = before.scope
  depth : after.depth = before.depth

namespace Reads

variable {before middle after : ParseState}

theorem refl (state : ParseState) : Reads state [] state := by
  constructor <;> rfl

theorem trans {first second : List Token} (early : Reads before first middle)
    (late : Reads middle second after) : Reads before (first ++ second) after := by
  constructor
  · rw [early.upcoming, late.upcoming, List.append_assoc]
  · rw [late.consumed, early.consumed, List.reverse_append, List.append_assoc]
  · rw [late.scope, early.scope]
  · rw [late.depth, early.depth]

theorem cons {token : Token} {tokens : List Token} (early : Reads before [token] middle)
    (late : Reads middle tokens after) : Reads before (token :: tokens) after :=
  early.trans late

theorem upcoming_eq {tokens rest : List Token} (reads : Reads before tokens after)
    (split : before.upcoming = tokens ++ rest) : after.upcoming = rest := by
  have both := reads.upcoming
  rw [split] at both
  exact (List.append_cancel_left both).symm

theorem length_upcoming {tokens : List Token} (reads : Reads before tokens after) :
    before.upcoming.length = tokens.length + after.upcoming.length := by
  rw [reads.upcoming, List.length_append]

theorem surface {tokens : List Token}
    (reads : Reads { before with depth := before.depth + 1 } tokens after) :
    Reads before tokens { after with depth := after.depth - 1 } :=
  ⟨reads.upcoming, reads.consumed, reads.scope, by simp [reads.depth]⟩

end Reads

namespace Parse

variable {α β : Type} {state after : ParseState}

theorem bind_eq_ok_iff {action : Parse α} {next : α → Parse β} {result : β} :
    (action >>= next) state = .ok result after ↔
      ∃ value middle, action state = .ok value middle ∧ next value middle = .ok result after := by
  show EStateM.bind action next state = _ ↔ _
  unfold EStateM.bind
  cases action state with
  | ok value middle =>
      constructor
      · intro ran
        exact ⟨value, middle, rfl, ran⟩
      · rintro ⟨_, _, same, ran⟩
        cases same
        exact ran
  | error failure middle => simp

theorem pure_eq_ok_iff {value result : α} :
    (pure value : Parse α) state = .ok result after ↔ value = result ∧ state = after := by
  show EStateM.Result.ok value state = .ok result after ↔ _
  simp

@[simp]
theorem failAt_ne_ok {token : Token} {fault : ParseFault} {result : α} :
    (failAt token fault : Parse α) state ≠ .ok result after := by
  simp [failAt]

@[simp]
theorem failHere_ne_ok {fault : ParseFault} {result : α} :
    (failHere fault : Parse α) state ≠ .ok result after := by
  simp [failHere]

def Yields (action : Parse α) (state : ParseState) (tokens : List Token) (result : α) : Prop :=
  ∃ after, action state = .ok result after ∧ Reads state tokens after

theorem Yields.bind {action : Parse α} {next : α → Parse β} {first second : List Token}
    {value : α} {result : β} (early : Yields action state first value)
    (late : ∀ middle, Reads state first middle → Yields (next value) middle second result) :
    Yields (action >>= next) state (first ++ second) result := by
  obtain ⟨middle, ran, reads⟩ := early
  obtain ⟨after, done, more⟩ := late middle reads
  exact ⟨after, bind_eq_ok_iff.mpr ⟨value, middle, ran, done⟩, reads.trans more⟩

theorem yields_pure (value : α) (state : ParseState) : Yields (pure value) state [] value :=
  ⟨state, rfl, .refl state⟩

theorem Yields.bind_pure {action : Parse α} {tokens : List Token} {value : α} (f : α → β)
    (yields : Yields action state tokens value) :
    Yields (action >>= fun value => pure (f value)) state tokens (f value) := by
  obtain ⟨after, ran, reads⟩ := yields
  exact ⟨after, bind_eq_ok_iff.mpr ⟨value, after, ran, rfl⟩, reads⟩

theorem yields_next {token : Token} {rest : List Token} (first : state.upcoming = token :: rest) :
    Yields next state [token] token := by
  refine ⟨{ state with consumed := token :: state.consumed, upcoming := rest }, ?_, ?_⟩
  · simp [next, first]
  · constructor <;> simp [first]

theorem next_eq_ok {token : Token} (ran : next state = .ok token after) :
    Reads state [token] after := by
  unfold next at ran
  split at ran
  next => simp at ran
  next first rest upcoming =>
    simp only [EStateM.Result.ok.injEq] at ran
    obtain ⟨rfl, rfl⟩ := ran
    constructor <;> simp [upcoming]

theorem yields_expect {kind : TokenKind} {token : Token} {rest : List Token}
    (first : state.upcoming = token :: rest) (same : token.kind = kind) :
    Yields (expect kind) state [token] token := by
  refine (yields_next first).bind fun middle _ => ?_
  rw [if_pos same]
  exact yields_pure token middle

theorem expect_eq_ok {kind : TokenKind} {token : Token}
    (ran : expect kind state = .ok token after) :
    Reads state [token] after ∧ token.kind = kind := by
  obtain ⟨first, middle, taken, checked⟩ := bind_eq_ok_iff.mp ran
  split at checked
  next same =>
    obtain ⟨rfl, rfl⟩ := pure_eq_ok_iff.mp checked
    exact ⟨next_eq_ok taken, same⟩
  next => simp at checked

theorem yields_string {token : Token} {rest : List Token}
    (first : state.upcoming = token :: rest) (same : token.kind = .string) :
    Yields string state [token] token.value :=
  (yields_expect first same).bind fun middle _ => yields_pure _ middle

theorem string_eq_ok {value : String} (ran : string state = .ok value after) :
    ∃ token, Reads state [token] after ∧ token.kind = .string ∧ token.value = value := by
  obtain ⟨token, middle, taken, returned⟩ := bind_eq_ok_iff.mp ran
  obtain ⟨rfl, rfl⟩ := pure_eq_ok_iff.mp returned
  exact ⟨token, (expect_eq_ok taken).1, (expect_eq_ok taken).2, rfl⟩

theorem yields_note (notice : Notice) (state : ParseState) : Yields (note notice) state [] () :=
  ⟨{ state with notices := notice :: state.notices }, rfl, by constructor <;> rfl⟩

theorem note_eq_ok {notice : Notice} {result : Unit} (ran : note notice state = .ok result after) :
    after = { state with notices := notice :: state.notices } := by
  simp only [note, EStateM.Result.ok.injEq] at ran
  exact ran.2.symm

theorem yields_noteRepeated (opening : Token) (entries : Format Token) (key : String)
    (state : ParseState) : Yields (noteRepeated opening entries key) state [] () := by
  unfold noteRepeated
  split
  · exact yields_note _ state
  · exact yields_pure () state

theorem noteRepeated_eq_ok {opening : Token} {entries : Format Token} {key : String}
    (ran : noteRepeated opening entries key state = .ok () after) : Reads state [] after := by
  obtain ⟨middle, same, reads⟩ := yields_noteRepeated opening entries key state
  rw [same, EStateM.Result.ok.injEq] at ran
  exact ran.2 ▸ reads

theorem yields_checkDepth {limit : Option Nat} (token : Token)
    (within : ∀ bound ∈ limit, state.depth + 1 ≤ bound) :
    Yields (checkDepth limit token) state [] () := by
  refine ⟨state, ?_, .refl state⟩
  unfold checkDepth
  cases limit with
  | none => rfl
  | some bound =>
      have room := within bound rfl
      simp only
      rw [if_neg (by omega)]

theorem checkDepth_eq_ok {limit : Option Nat} {token : Token}
    (ran : checkDepth limit token state = .ok () after) :
    after = state ∧ ∀ bound ∈ limit, state.depth + 1 ≤ bound := by
  unfold checkDepth at ran
  cases limit with
  | none =>
      simp only [EStateM.Result.ok.injEq, true_and] at ran
      exact ⟨ran.symm, by simp⟩
  | some bound =>
      simp only at ran
      split at ran
      next => simp at ran
      next room =>
        simp only [EStateM.Result.ok.injEq, true_and] at ran
        refine ⟨ran.symm, ?_⟩
        simp only [Option.mem_some_iff, forall_eq']
        omega

theorem yields_deeper {inner : Parse α} {tokens : List Token} {result : α}
    (yields : Yields inner { state with depth := state.depth + 1 } tokens result) :
    Yields (deeper inner) state tokens result := by
  obtain ⟨bottom, ran, reads⟩ := yields
  exact ⟨{ bottom with depth := bottom.depth - 1 }, by simp [deeper, ran], reads.surface⟩

theorem deeper_eq_ok {inner : Parse α} {result : α} (ran : deeper inner state = .ok result after) :
    ∃ bottom, inner { state with depth := state.depth + 1 } = .ok result bottom ∧
      after = { bottom with depth := bottom.depth - 1 } := by
  unfold deeper at ran
  split at ran
  next value bottom found =>
    simp only [EStateM.Result.ok.injEq] at ran
    obtain ⟨rfl, rfl⟩ := ran
    exact ⟨bottom, found, rfl⟩
  next => simp at ran

theorem yields_reference {token : Token} (known : token.value ∈ state.scope.names) :
    Yields (reference token) state [] (.reference token.value token) := by
  refine ⟨state, ?_, .refl state⟩
  unfold reference
  rw [if_pos (Scope.contains_iff.mpr known)]

theorem reference_eq_ok {token : Token} {expr : Expr Token}
    (ran : reference token state = .ok expr after) :
    token.value ∈ state.scope.names ∧ expr = .reference token.value token ∧ after = state := by
  unfold reference at ran
  split at ran
  next known =>
    simp only [EStateM.Result.ok.injEq] at ran
    exact ⟨Scope.contains_iff.mp known, ran.1.symm, ran.2.symm⟩
  next => simp at ran

end Parse

end AeSchema
