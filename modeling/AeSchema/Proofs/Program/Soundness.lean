import AeSchema.Proofs.Program.Grammar
import AeSchema.Proofs.Program.Reads

/-! What the parser accepts is derived from the grammar, with the tree that the parser gives. -/

namespace AeSchema

namespace Parse

variable {limit : Option Nat} {state after : ParseState}

def ReadsValues (limit : Option Nat) (action : Parse (Value Token)) : Prop :=
  ∀ state value after, action state = .ok value after →
    ∃ tokens, Reads state tokens after ∧
      Derives limit state.scope.names (state.depth + 1) (.value value) tokens

theorem pair_sound {inner : Parse (Value Token)} (sound : ReadsValues limit inner)
    {opening : Token} {format result : Format Token}
    (ran : pair inner opening format state = .ok result after) :
    ∃ key colon value tokens, Reads state (key :: colon :: tokens) after ∧
      key.kind = .string ∧ colon.kind = .colon ∧ result = format.insert key.value value ∧
      Derives limit state.scope.names (state.depth + 1) (.value value) tokens := by
  obtain ⟨_, first, ranKey, ranRest⟩ := bind_eq_ok_iff.mp ran
  obtain ⟨colon, second, ranColon, ranRest⟩ := bind_eq_ok_iff.mp ranRest
  obtain ⟨value, third, ranValue, ranRest⟩ := bind_eq_ok_iff.mp ranRest
  obtain ⟨_, fourth, ranNote, returned⟩ := bind_eq_ok_iff.mp ranRest
  obtain ⟨rfl, rfl⟩ := pure_eq_ok_iff.mp returned
  obtain ⟨key, readsKey, keyKind, rfl⟩ := string_eq_ok ranKey
  obtain ⟨readsColon, colonKind⟩ := expect_eq_ok ranColon
  obtain ⟨tokens, readsValue, derives⟩ := sound second value third ranValue
  have readsHead := readsKey.cons readsColon
  rw [readsHead.scope, readsHead.depth] at derives
  have reads := (readsHead.trans readsValue).trans (noteRepeated_eq_ok ranNote)
  rw [List.append_nil] at reads
  exact ⟨key, colon, value, tokens, reads, keyKind, colonKind, rfl, derives⟩

theorem pairs_sound {inner : Parse (Value Token)} (sound : ReadsValues limit inner)
    {opening : Token} {fuel : Nat} {format result : Format Token}
    (ran : pairs inner opening fuel format state = .ok result after) :
    ∃ entries tokens closing, Reads state (tokens ++ [closing]) after ∧
      closing.kind = .curlyClose ∧ result = format.insertAll entries ∧
      Derives limit state.scope.names (state.depth + 1) (.pairs entries) tokens := by
  induction fuel generalizing state format with
  | zero => simp [pairs] at ran
  | succ fuel ih =>
      rw [pairs] at ran
      obtain ⟨inserted, first, ranPair, ranRest⟩ := bind_eq_ok_iff.mp ran
      obtain ⟨separator, second, ranSeparator, ranMore⟩ := bind_eq_ok_iff.mp ranRest
      obtain ⟨key, colon, value, tokens, readsPair, keyKind, colonKind, rfl, derives⟩ :=
        pair_sound sound ranPair
      have reads := readsPair.trans (next_eq_ok ranSeparator)
      cases kind : separator.kind
      all_goals simp only [kind, failAt_ne_ok] at ranMore
      case curlyClose =>
        obtain ⟨rfl, rfl⟩ := pure_eq_ok_iff.mp ranMore
        exact ⟨[(key.value, value)], _, separator, reads, kind, rfl,
          .pair keyKind colonKind derives⟩
      case comma =>
        obtain ⟨entries, more, closing, readsMore, close, rfl, derivesMore⟩ := ih ranMore
        rw [reads.scope, reads.depth] at derivesMore
        refine ⟨(key.value, value) :: entries, key :: colon :: (tokens ++ separator :: more),
          closing, ?_, close, rfl, .more keyKind colonKind derives kind derivesMore⟩
        simpa using reads.trans readsMore

theorem keywordForm_sound {inner : Parse (Value Token)} (sound : ReadsValues limit inner)
    (within : ∀ bound ∈ limit, state.depth ≤ bound) {token : Token} {value : Value Token}
    (ran : keywordForm inner token state = .ok value after) :
    ∃ tokens, Reads state tokens after ∧
      Derives limit state.scope.names state.depth (.value value) (token :: tokens) := by
  unfold keywordForm at ran
  cases keyword : token.keyword? with
  | none => simp [keyword] at ran
  | some reserved =>
      cases reserved
      all_goals simp only [keyword, failAt_ne_ok] at ran
      case arrayOf =>
        obtain ⟨element, middle, ranElement, returned⟩ := bind_eq_ok_iff.mp ran
        obtain ⟨rfl, rfl⟩ := pure_eq_ok_iff.mp returned
        obtain ⟨tokens, reads, derives⟩ := sound state element middle ranElement
        exact ⟨tokens, reads, .arrayOf within keyword derives⟩
      case url =>
        obtain ⟨_, middle, ranLiteral, returned⟩ := bind_eq_ok_iff.mp ran
        obtain ⟨rfl, rfl⟩ := pure_eq_ok_iff.mp returned
        obtain ⟨literal, reads, string, rfl⟩ := string_eq_ok ranLiteral
        exact ⟨[literal], reads, .url within keyword string⟩

theorem form_sound {inner : Parse (Value Token)} (sound : ReadsValues limit inner)
    (within : ∀ bound ∈ limit, state.depth ≤ bound) {token : Token} {fuel : Nat}
    {value : Value Token} (ran : form inner fuel token state = .ok value after) :
    ∃ tokens, Reads state tokens after ∧
      Derives limit state.scope.names state.depth (.value value) (token :: tokens) := by
  unfold form at ran
  cases kind : token.kind
  all_goals simp only [kind, failAt_ne_ok] at ran
  case keyword => exact keywordForm_sound sound within ran
  case identifier =>
    obtain ⟨_, _, ranReference, returned⟩ := bind_eq_ok_iff.mp ran
    obtain ⟨known, rfl, rfl⟩ := reference_eq_ok ranReference
    obtain ⟨rfl, rfl⟩ := pure_eq_ok_iff.mp returned
    exact ⟨[], .refl _, .name within kind known⟩
  case string =>
    obtain ⟨rfl, rfl⟩ := pure_eq_ok_iff.mp ran
    exact ⟨[], .refl _, .string within kind⟩
  case curlyOpen =>
    obtain ⟨_, _, ranPairs, returned⟩ := bind_eq_ok_iff.mp ran
    obtain ⟨rfl, rfl⟩ := pure_eq_ok_iff.mp returned
    obtain ⟨entries, tokens, closing, reads, close, rfl, derives⟩ := pairs_sound sound ranPairs
    exact ⟨tokens ++ [closing], reads, .format within kind derives close⟩

theorem nested_sound (fuel : Nat) : ReadsValues limit (nested limit fuel) := by
  induction fuel with
  | zero =>
      intro state value after ran
      simp [nested] at ran
  | succ fuel ih =>
      intro state value after ran
      rw [nested] at ran
      obtain ⟨token, middle, ranNext, rest⟩ := bind_eq_ok_iff.mp ran
      obtain ⟨_, _, ranCheck, ranDeeper⟩ := bind_eq_ok_iff.mp rest
      obtain ⟨rfl, within⟩ := checkDepth_eq_ok ranCheck
      obtain ⟨bottom, ranForm, rfl⟩ := deeper_eq_ok ranDeeper
      have readsToken := next_eq_ok ranNext
      obtain ⟨tokens, reads, derives⟩ := form_sound ih within ranForm
      rw [readsToken.scope, readsToken.depth] at derives
      exact ⟨token :: tokens, readsToken.cons reads.surface, derives⟩

theorem bound_sound {fuel : Nat} {binder : Binder} {expr : Expr Token}
    (ran : bound limit fuel binder state = .ok expr after) :
    ∃ tokens, Reads state tokens after ∧
      Derives limit state.scope.names (state.depth + 1) (.value (.expr expr)) tokens := by
  obtain ⟨value, middle, ranValue, returned⟩ := bind_eq_ok_iff.mp ran
  cases value with
  | text content => simp at returned
  | expr inner =>
      obtain ⟨rfl, rfl⟩ := pure_eq_ok_iff.mp returned
      exact nested_sound fuel state _ middle ranValue

theorem status_eq_ok {code : Nat} (ran : status state = .ok code after) :
    ∃ token, Reads state [token] after ∧ token.kind = .identifier ∧ IsStatus token.value code := by
  obtain ⟨token, middle, ranNext, returned⟩ := bind_eq_ok_iff.mp ran
  cases found : status? token with
  | none => simp [found] at returned
  | some number =>
      simp only [found] at returned
      obtain ⟨rfl, rfl⟩ := pure_eq_ok_iff.mp returned
      exact ⟨token, next_eq_ok ranNext, status?_eq_some_iff.mp found⟩

structure ReadsTop (before : ParseState) (tokens : List Token) (expr : Expr Token)
    (after : ParseState) : Prop where
  reads : Reads before tokens { after with scope := before.scope }
  scope : after.scope = before.scope.insertAll expr.defined

section Top

variable {before : ParseState} {token : Token} {fuel : Nat} {expr : Expr Token}

theorem readsTop_of_reads {tokens : List Token} (reads : Reads before tokens after)
    (nothing : expr.defined = []) : ReadsTop before tokens expr after := by
  refine ⟨⟨reads.upcoming, reads.consumed, rfl, reads.depth⟩, ?_⟩
  rw [nothing]
  exact reads.scope

theorem definition_sound (readsToken : Reads before [token] state) (surface : before.depth = 0)
    (keyword : token.keyword? = some .define)
    (ran : definition limit fuel token state = .ok expr after) :
    ∃ tokens, ReadsTop before tokens expr after ∧
      DerivesTop limit before.scope.names expr tokens := by
  obtain ⟨name, first, ranName, ranRest⟩ := bind_eq_ok_iff.mp ran
  obtain ⟨value, second, ranValue, ranRest⟩ := bind_eq_ok_iff.mp ranRest
  obtain ⟨_, third, ranDefine, returned⟩ := bind_eq_ok_iff.mp ranRest
  obtain ⟨rfl, rfl⟩ := pure_eq_ok_iff.mp returned
  simp only [define, EStateM.Result.ok.injEq, true_and] at ranDefine
  subst ranDefine
  obtain ⟨readsName, identifier⟩ := expect_eq_ok ranName
  obtain ⟨tokens, readsValue, derives⟩ := bound_sound ranValue
  have readsHead := readsToken.cons readsName
  have reads := readsHead.trans readsValue
  rw [readsHead.scope, readsHead.depth, surface] at derives
  refine ⟨token :: name :: tokens, ⟨⟨reads.upcoming, reads.consumed, rfl, reads.depth⟩, ?_⟩,
    .definition keyword identifier derives⟩
  show second.scope.insert name.value = before.scope.insert name.value
  rw [reads.scope]

theorem route_sound (readsToken : Reads before [token] state) (surface : before.depth = 0)
    (keyword : token.keyword? = some .route)
    (ran : route limit fuel token state = .ok expr after) :
    ∃ tokens, ReadsTop before tokens expr after ∧
      DerivesTop limit before.scope.names expr tokens := by
  obtain ⟨_, first, ranPath, ranRest⟩ := bind_eq_ok_iff.mp ran
  obtain ⟨value, second, ranValue, returned⟩ := bind_eq_ok_iff.mp ranRest
  obtain ⟨rfl, rfl⟩ := pure_eq_ok_iff.mp returned
  obtain ⟨path, readsPath, string, rfl⟩ := string_eq_ok ranPath
  obtain ⟨tokens, readsValue, derives⟩ := bound_sound ranValue
  have readsHead := readsToken.cons readsPath
  have reads := readsHead.trans readsValue
  rw [readsHead.scope, readsHead.depth, surface] at derives
  exact ⟨token :: path :: tokens, readsTop_of_reads reads rfl, .route keyword string derives⟩

theorem response_sound (readsToken : Reads before [token] state) (surface : before.depth = 0)
    (keyword : token.keyword? = some .response)
    (ran : response limit fuel token state = .ok expr after) :
    ∃ tokens, ReadsTop before tokens expr after ∧
      DerivesTop limit before.scope.names expr tokens := by
  obtain ⟨_, first, ranPath, ranRest⟩ := bind_eq_ok_iff.mp ran
  obtain ⟨code, second, ranStatus, ranRest⟩ := bind_eq_ok_iff.mp ranRest
  obtain ⟨value, third, ranValue, returned⟩ := bind_eq_ok_iff.mp ranRest
  obtain ⟨rfl, rfl⟩ := pure_eq_ok_iff.mp returned
  obtain ⟨path, readsPath, string, rfl⟩ := string_eq_ok ranPath
  obtain ⟨word, readsWord, identifier, isStatus⟩ := status_eq_ok ranStatus
  obtain ⟨tokens, readsValue, derives⟩ := bound_sound ranValue
  have readsHead := readsToken.cons (readsPath.cons readsWord)
  have reads := readsHead.trans readsValue
  rw [readsHead.scope, readsHead.depth, surface] at derives
  exact ⟨token :: path :: word :: tokens, readsTop_of_reads reads rfl,
    .response keyword string identifier isStatus derives⟩

theorem top_sound (surface : before.depth = 0) (ran : top limit fuel before = .ok expr after) :
    ∃ tokens, ReadsTop before tokens expr after ∧
      DerivesTop limit before.scope.names expr tokens := by
  obtain ⟨token, middle, ranNext, ranRest⟩ := bind_eq_ok_iff.mp ran
  have readsToken := next_eq_ok ranNext
  cases keyword : token.keyword? with
  | none => simp [keyword] at ranRest
  | some reserved =>
      cases reserved
      all_goals simp only [keyword, failAt_ne_ok] at ranRest
      case define => exact definition_sound readsToken surface keyword ranRest
      case route => exact route_sound readsToken surface keyword ranRest
      case response => exact response_sound readsToken surface keyword ranRest

end Top

theorem tops_succ (fuel count : Nat) (found : List (Expr Token)) (state : ParseState) :
    tops limit fuel (count + 1) found state =
      if state.upcoming.isEmpty then finish found state
      else (do
        let expr ← top limit fuel
        note (.parsed expr.kind expr.origin.location)
        tops limit fuel count (expr :: found)) state := by
  rw [tops]
  show (if state.upcoming.isEmpty then _ else _ : Parse _) state = _
  split <;> rfl

theorem finish_eq_ok {found program : List (Expr Token)}
    (ran : finish found state = .ok program after) : program = found.reverse := by
  obtain ⟨_, _, _, ranRest⟩ := bind_eq_ok_iff.mp ran
  obtain ⟨_, _, _, returned⟩ := bind_eq_ok_iff.mp ranRest
  exact (pure_eq_ok_iff.mp returned).1.symm

theorem tops_sound {fuel count : Nat} {found program : List (Expr Token)} {known : List String}
    (ran : tops limit fuel count found state = .ok program after)
    (enough : state.upcoming.length ≤ count) (surface : state.depth = 0)
    (subset : state.scope.names ⊆ known) :
    ∃ later, program = found.reverse ++ later ∧
      DerivesProgram limit known later state.upcoming := by
  -- Every expression takes three tokens or more, so `count` never runs out before the tokens do.
  induction count generalizing state found known with
  | zero =>
      have empty : state.upcoming = [] := List.eq_nil_of_length_eq_zero (by omega)
      rw [empty]
      exact ⟨[], by simp [finish_eq_ok ran], .nil⟩
  | succ count ih =>
      rw [tops_succ] at ran
      split at ran
      next empty =>
        rw [List.isEmpty_iff.mp empty]
        exact ⟨[], by simp [finish_eq_ok ran], .nil⟩
      next =>
        obtain ⟨expr, first, ranTop, ranRest⟩ := bind_eq_ok_iff.mp ran
        obtain ⟨_, second, ranNote, ranLater⟩ := bind_eq_ok_iff.mp ranRest
        obtain ⟨tokens, ⟨reads, defined⟩, derives⟩ := top_sound surface ranTop
        obtain rfl := note_eq_ok ranNote
        have topLevel := derives.mono subset
        have positive := topLevel.length_ge
        have length := reads.length_upcoming
        have wider : first.scope.names ⊆ known ++ expr.defined := by
          intro name member
          rw [defined, Scope.mem_names_insertAll] at member
          exact List.mem_append.mpr (member.imp_left (subset ·))
        obtain ⟨later, rfl, derivesLater⟩ :=
          ih ranLater (by simp at length ⊢; omega) (reads.depth.trans surface) wider
        rw [reads.upcoming]
        exact ⟨expr :: later, by simp, .cons topLevel derivesLater⟩

end Parse

end AeSchema
