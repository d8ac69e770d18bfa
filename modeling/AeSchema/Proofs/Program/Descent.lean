import AeSchema.Proofs.Program.Frame

/-! The recursion that reads a value, without fuel. Two readers, of a value and of the pairs of an
object, that call each other as the grammar has it are determined by that alone; the parser is these
readers as soon as its fuel covers the tokens that are left. -/

namespace AeSchema

namespace Parse

variable {α β : Type} {limit : Option Nat} {size : Nat}

def level (limit : Option Nat) (inside : Token → Parse (Value Token)) : Parse (Value Token) := do
  let token ← next
  checkDepth limit token
  deeper (inside token)

def formOf (value : Parse (Value Token)) (object : Token → Parse (Format Token)) (token : Token) :
    Parse (Value Token) :=
  match token.kind with
  | .string => return .text token.value
  | .identifier => do
      let expr ← reference token
      return .expr expr
  | .curlyOpen => do
      let entries ← object token
      return .expr (.format entries token)
  | .keyword => keywordForm value token
  | kind => failAt token (.noValue kind)

/-- One round of the loop over the pairs of an object: the last one, `.inl`, or one with a comma
behind it. -/
def pairsRound (value : Parse (Value Token)) (opening : Token) (entries : Format Token) :
    Parse (Format Token ⊕ Format Token) := do
  let more ← pair value opening entries
  let separator ← next
  match separator.kind with
  | .curlyClose => return .inl more
  | .comma => return .inr more
  | kind => failAt separator (.noSeparator kind)

/-- Readers of a value and of the pairs of an object that call each other, and nothing bounds how
often and how deep. -/
structure Descends (limit : Option Nat) (value : Parse (Value Token))
    (pairs : Token → Format Token → Parse (Format Token)) : Prop where
  value_eq : value = level limit (formOf value fun opening => pairs opening .empty)
  pairs_eq : ∀ opening entries,
    pairs opening entries = pairsRound value opening entries >>= Sum.elim pure (pairs opening)

def readValue (limit : Option Nat) : Parse (Value Token) := fun state =>
  nested limit state.upcoming.length state

def readPairs (limit : Option Nat) (opening : Token) (entries : Format Token) :
    Parse (Format Token) := fun state =>
  pairs (readValue limit) opening state.upcoming.length entries state

def readTop (limit : Option Nat) : Parse (Expr Token) := fun state =>
  top limit state.upcoming.length state

theorem nested_succ (fuel : Nat) :
    nested limit (fuel + 1) =
      level limit (formOf (nested limit fuel) fun opening =>
        pairs (nested limit fuel) opening fuel .empty) :=
  rfl

theorem pairs_succ (value : Parse (Value Token)) (opening : Token) (count : Nat)
    (entries : Format Token) :
    pairs value opening (count + 1) entries =
      pairsRound value opening entries >>= Sum.elim pure (pairs value opening count) := by
  rw [pairs, pairsRound, bind_assoc]
  congr 1
  funext more
  rw [bind_assoc]
  congr 1
  funext separator
  cases separator.kind <;> rfl

theorem tracked_readValue : Tracked (readValue limit) :=
  fun state => tracked_nested state.upcoming.length state

theorem hungry_pairsRound {value : Parse (Value Token)} (tracked : Tracked value)
    (opening : Token) (entries : Format Token) : Hungry (pairsRound value opening entries) := by
  refine (hungry_pair tracked opening entries).bind fun more =>
    Tracked.shrinks (tracked_next.bind fun separator => ?_)
  split
  · exact tracked_pure _
  · exact tracked_pure _
  · exact tracked_failAt separator _

theorem level_nil {inside : Token → Parse (Value Token)} {state : ParseState}
    (empty : state.upcoming = []) : level limit inside state = failHere .endOfInput state :=
  bind_of_error _ (hungry_next.none state empty)

def SameBelow (size : Nat) (action other : Parse α) : Prop :=
  ∀ state, state.upcoming.length < size → action state = other state

namespace SameBelow

theorem refl (action : Parse α) : SameBelow size action action :=
  fun _ _ => rfl

theorem trans {first second third : Parse α} (early : SameBelow size first second)
    (late : SameBelow size second third) : SameBelow size first third :=
  fun state short => (early state short).trans (late state short)

theorem mono {action other : Parse α} {less : Nat} (same : SameBelow size action other)
    (bound : less ≤ size) : SameBelow less action other :=
  fun state short => same state (Nat.lt_of_lt_of_le short bound)

theorem before {action other : Parse α} {next : α → Parse β} (same : SameBelow size action other) :
    SameBelow size (action >>= next) (other >>= next) := by
  intro state short
  have equal := same state short
  cases ran : other state with
  | ok value middle => rw [bind_of_ok next (equal.trans ran), bind_of_ok next ran]
  | error failure middle => rw [bind_of_error next (equal.trans ran), bind_of_error next ran]

theorem after {action : Parse α} {next other : α → Parse β} (shrinks : Shrinks action)
    (late : ∀ value, SameBelow size (next value) (other value)) :
    SameBelow size (action >>= next) (action >>= other) := by
  intro state short
  have shorter := shrinks state
  cases ran : action state with
  | error failure middle => rw [bind_of_error next ran, bind_of_error other ran]
  | ok value middle =>
      rw [bind_of_ok next ran, bind_of_ok other ran]
      rw [ran] at shorter
      exact late value middle (Nat.lt_of_le_of_lt shorter short)

theorem deeper {action other : Parse α} (same : SameBelow size action other) :
    SameBelow size (deeper action) (deeper other) := by
  intro state short
  have equal := same { state with depth := state.depth + 1 } short
  unfold Parse.deeper
  rw [equal]

end SameBelow

theorem Hungry.shorter {action : Parse α} {state after : ParseState} {value : α}
    (hungry : Hungry action) (ran : action state = .ok value after) :
    after.upcoming.length < state.upcoming.length := by
  have left : state.upcoming ≠ [] := by
    intro empty
    rw [hungry.none state empty] at ran
    exact failHere_ne_ok ran
  have shorter := hungry.some state left
  rwa [ran] at shorter

theorem Hungry.sameBelow {action : Parse α} {next other : α → Parse β} (hungry : Hungry action)
    (late : ∀ value, SameBelow size (next value) (other value)) :
    SameBelow (size + 1) (action >>= next) (action >>= other) := by
  intro state short
  cases ran : action state with
  | error failure middle => rw [bind_of_error next ran, bind_of_error other ran]
  | ok value middle =>
      rw [bind_of_ok next ran, bind_of_ok other ran]
      have shorter := hungry.shorter ran
      exact late value middle (by omega)

theorem sameBelow_level {inside other : Token → Parse (Value Token)}
    (same : ∀ token, SameBelow size (inside token) (other token)) :
    SameBelow (size + 1) (level limit inside) (level limit other) :=
  hungry_next.sameBelow fun token =>
    .after (tracked_checkDepth token).shrinks fun _ => (same token).deeper

section Values

variable {value other : Parse (Value Token)} (same : SameBelow size value other)

include same

theorem sameBelow_keywordForm (token : Token) :
    SameBelow size (keywordForm value token) (keywordForm other token) := by
  unfold keywordForm
  cases token.keyword? with
  | none => exact .refl _
  | some keyword =>
      cases keyword with
      | arrayOf => exact same.before
      | _ => exact .refl _

theorem sameBelow_formOf {object otherObject : Token → Parse (Format Token)}
    (sameObject : ∀ opening, SameBelow size (object opening) (otherObject opening))
    (token : Token) :
    SameBelow size (formOf value object token) (formOf other otherObject token) := by
  unfold formOf
  cases token.kind with
  | curlyOpen => exact (sameObject token).before
  | keyword => exact sameBelow_keywordForm same token
  | _ => exact .refl _

theorem sameBelow_pair (opening : Token) (entries : Format Token) :
    SameBelow (size + 1) (pair value opening entries) (pair other opening entries) :=
  hungry_string.sameBelow fun _ => .after (tracked_expect .colon).shrinks fun _ => same.before

variable (tracked : Tracked value)

include tracked

theorem sameBelow_pairsRound {later otherLater : Format Token → Parse (Format Token)}
    (sameLater : ∀ entries, SameBelow size (later entries) (otherLater entries))
    (opening : Token) (entries : Format Token) :
    SameBelow (size + 1) (pairsRound value opening entries >>= Sum.elim pure later)
      (pairsRound other opening entries >>= Sum.elim pure otherLater) := by
  have round : SameBelow (size + 1) (pairsRound value opening entries)
      (pairsRound other opening entries) := (sameBelow_pair same opening entries).before
  refine .trans ((hungry_pairsRound tracked opening entries).sameBelow fun more => ?_) round.before
  cases more with
  | inl done => exact .refl _
  | inr more => exact sameLater more

theorem sameBelow_pairs (trackedOther : Tracked other) {count otherCount : Nat}
    (enough : size ≤ count + 1) (otherEnough : size ≤ otherCount + 1) (opening : Token)
    (entries : Format Token) :
    SameBelow size (pairs value opening count entries)
      (pairs other opening otherCount entries) := by
  induction size generalizing count otherCount entries with
  | zero => exact fun state short => absurd short (Nat.not_lt_zero _)
  | succ size ih =>
      intro state short
      by_cases empty : state.upcoming = []
      · rw [pairs_nil tracked opening count entries empty,
          pairs_nil trackedOther opening otherCount entries empty]
      · have left := List.length_pos_iff.mpr empty
        obtain ⟨count, rfl⟩ : ∃ less, count = less + 1 := Nat.exists_eq_succ_of_ne_zero (by omega)
        obtain ⟨otherCount, rfl⟩ : ∃ less, otherCount = less + 1 :=
          Nat.exists_eq_succ_of_ne_zero (by omega)
        have smaller := same.mono (Nat.le_succ size)
        rw [pairs_succ, pairs_succ]
        exact sameBelow_pairsRound smaller tracked
          (fun entries => ih smaller (by omega) (by omega) entries) opening entries state short

end Values

theorem sameBelow_nested {fuel otherFuel : Nat} (enough : size ≤ fuel + 1)
    (otherEnough : size ≤ otherFuel + 1) :
    SameBelow size (nested limit fuel) (nested limit otherFuel) := by
  -- Every level takes a token and one of the fuel, so neither fuel is spent before the tokens are.
  induction size generalizing fuel otherFuel with
  | zero => exact fun state short => absurd short (Nat.not_lt_zero _)
  | succ size ih =>
      intro state short
      by_cases empty : state.upcoming = []
      · rw [nested_nil fuel empty, nested_nil otherFuel empty]
      · have left := List.length_pos_iff.mpr empty
        obtain ⟨fuel, rfl⟩ : ∃ less, fuel = less + 1 := Nat.exists_eq_succ_of_ne_zero (by omega)
        obtain ⟨otherFuel, rfl⟩ : ∃ less, otherFuel = less + 1 :=
          Nat.exists_eq_succ_of_ne_zero (by omega)
        have smaller : SameBelow size (nested limit fuel) (nested limit otherFuel) :=
          ih (by omega) (by omega)
        have object (opening : Token) :
            SameBelow size (pairs (nested limit fuel) opening fuel .empty)
              (pairs (nested limit otherFuel) opening otherFuel .empty) :=
          sameBelow_pairs smaller (tracked_nested fuel) (tracked_nested otherFuel)
            (by omega) (by omega) opening .empty
        rw [nested_succ, nested_succ]
        exact sameBelow_level (sameBelow_formOf smaller object) state short

theorem sameBelow_readValue (fuel : Nat) :
    SameBelow (fuel + 1) (nested limit fuel) (readValue limit) := by
  intro state short
  have enough : state.upcoming.length + 1 ≤ fuel + 1 := short
  exact sameBelow_nested enough (Nat.le_refl _) state (Nat.lt_succ_self _)

theorem sameBelow_readPairs {value : Parse (Value Token)} (tracked : Tracked value) {fuel : Nat}
    (same : SameBelow (fuel + 1) value (readValue limit)) (opening : Token)
    (entries : Format Token) :
    SameBelow (fuel + 1) (pairs value opening fuel entries) (readPairs limit opening entries) := by
  intro state short
  have enough : state.upcoming.length + 1 ≤ fuel + 1 := short
  exact sameBelow_pairs (same.mono enough) tracked tracked_readValue enough (Nat.le_refl _) opening
    entries state (Nat.lt_succ_self _)

theorem exists_length_eq {state : ParseState} (left : state.upcoming ≠ []) :
    ∃ less, state.upcoming.length = less + 1 :=
  Nat.exists_eq_succ_of_ne_zero (Nat.ne_of_gt (List.length_pos_iff.mpr left))

theorem descends_read (limit : Option Nat) :
    Descends limit (readValue limit) (readPairs limit) := by
  constructor
  · funext state
    by_cases empty : state.upcoming = []
    · rw [level_nil empty]
      exact nested_nil _ empty
    · obtain ⟨fuel, length⟩ := exists_length_eq empty
      have value : SameBelow (fuel + 1) (nested limit fuel) (readValue limit) :=
        sameBelow_readValue fuel
      rw [readValue, length, nested_succ]
      exact sameBelow_level (sameBelow_formOf value fun opening =>
        sameBelow_readPairs (tracked_nested fuel) value opening .empty) state (by omega)
  · intro opening entries
    funext state
    have hungry : Hungry (pairsRound (readValue limit) opening entries) :=
      hungry_pairsRound tracked_readValue opening entries
    by_cases empty : state.upcoming = []
    · rw [bind_of_error _ (hungry.none state empty)]
      exact pairs_nil tracked_readValue opening _ entries empty
    · obtain ⟨fuel, length⟩ := exists_length_eq empty
      rw [readPairs, length, pairs_succ]
      exact sameBelow_pairsRound (.refl _) tracked_readValue
        (sameBelow_readPairs tracked_readValue (.refl _) opening) opening entries state (by omega)

theorem Descends.sameBelow {value : Parse (Value Token)}
    {pairs : Token → Format Token → Parse (Format Token)} (descends : Descends limit value pairs)
    (size : Nat) :
    SameBelow size (readValue limit) value ∧
      ∀ opening entries,
        SameBelow size (readPairs limit opening entries) (pairs opening entries) := by
  -- Either reader takes a token before it calls itself or the other.
  induction size with
  | zero =>
      exact ⟨fun state short => absurd short (Nat.not_lt_zero _),
        fun _ _ state short => absurd short (Nat.not_lt_zero _)⟩
  | succ size ih =>
      obtain ⟨sameValue, samePairs⟩ := ih
      have read := descends_read limit
      constructor
      · rw [read.value_eq, descends.value_eq]
        exact sameBelow_level (sameBelow_formOf sameValue fun opening => samePairs opening .empty)
      · intro opening entries
        rw [read.pairs_eq, descends.pairs_eq]
        exact sameBelow_pairsRound sameValue tracked_readValue (samePairs opening) opening entries

theorem descends_iff {value : Parse (Value Token)}
    {pairs : Token → Format Token → Parse (Format Token)} :
    Descends limit value pairs ↔ value = readValue limit ∧ pairs = readPairs limit := by
  constructor
  · intro descends
    constructor
    · funext state
      exact ((descends.sameBelow _).1 state (Nat.lt_succ_self _)).symm
    · funext opening entries state
      exact ((descends.sameBelow _).2 opening entries state (Nat.lt_succ_self _)).symm
  · rintro ⟨rfl, rfl⟩
    exact descends_read limit

section Top

variable {fuel otherFuel : Nat} (enough : size ≤ fuel + 1) (otherEnough : size ≤ otherFuel + 1)

include enough otherEnough

theorem sameBelow_bound (binder : Binder) :
    SameBelow size (bound limit fuel binder) (bound limit otherFuel binder) :=
  (sameBelow_nested enough otherEnough).before

theorem sameBelow_top : SameBelow size (top limit fuel) (top limit otherFuel) := by
  have value (binder : Binder) :
      SameBelow size (bound limit fuel binder) (bound limit otherFuel binder) :=
    sameBelow_bound enough otherEnough binder
  refine .after tracked_next.shrinks fun token => ?_
  split
  · exact .after (tracked_expect .identifier).shrinks fun _ => (value .definition).before
  · exact .after tracked_string.shrinks fun _ => (value .route).before
  · exact .after tracked_string.shrinks fun _ => .after tracked_status.shrinks fun _ =>
      (value .response).before
  · exact .refl _
  · exact .refl _

end Top

theorem nested_eq_readValue {fuel : Nat} {state : ParseState}
    (enough : state.upcoming.length ≤ fuel) : nested limit fuel state = readValue limit state :=
  sameBelow_readValue fuel state (Nat.lt_succ_of_le enough)

theorem top_eq_readTop {fuel : Nat} {state : ParseState} (enough : state.upcoming.length ≤ fuel) :
    top limit fuel state = readTop limit state :=
  sameBelow_top (Nat.succ_le_succ enough) (Nat.le_refl _) state (Nat.lt_succ_self _)

end Parse

end AeSchema
