import AeSchema.Proofs.Program.Frame
import AeSchema.Proofs.Token.Lines

/-! Twin runs of the parser, on tokens that differ in their places only. The parser looks at kinds
and values, so the runs go the same way and end alike. -/

namespace AeSchema

namespace Token

variable {token twin : Token} (same : token.lexeme = twin.lexeme)

include same

theorem kind_of_lexeme_eq : token.kind = twin.kind :=
  congrArg Lexeme.kind same

theorem value_of_lexeme_eq : token.value = twin.value :=
  congrArg Lexeme.value same

theorem keyword?_of_lexeme_eq : token.keyword? = twin.keyword? := by
  rw [keyword?, keyword?, kind_of_lexeme_eq same, value_of_lexeme_eq same]

end Token

theorem Format.map_insert {Origin Other : Type} (f : Origin → Other) (key : String)
    (value : Value Origin) (format : Format Origin) :
    (format.insert key value).map f = (format.map f).insert key (value.map f) := by
  cases format with
  | empty => rfl
  | entry first old rest =>
      by_cases known : first = key
      · rw [insert, if_pos known, Format.map, Format.map, insert, if_pos known]
      · rw [insert, if_neg known, Format.map, Format.map, insert, if_neg known,
          rest.map_insert f key value]

/-- The states differ in the places of tokens and in what was noted at most. -/
structure Alike (state twin : ParseState) : Prop where
  upcoming : state.upcoming.map Token.lexeme = twin.upcoming.map Token.lexeme
  scope : state.scope = twin.scope
  depth : state.depth = twin.depth

namespace Parse

variable {α β γ δ : Type} {limit : Option Nat} {state twin : ParseState}

/-- Of the two results the same can be seen, and the states that are left are alike. -/
inductive Matches (view : α → γ) :
    EStateM.Result ParseFailure ParseState α → EStateM.Result ParseFailure ParseState α → Prop
  | ok {result other after twin} : view result = view other → Alike after twin →
      Matches view (.ok result after) (.ok other twin)
  | error {failure other after twin} : failure.fault = other.fault → Alike after twin →
      Matches view (.error failure after) (.error other twin)

def Twins (view : α → γ) (action other : Parse α) : Prop :=
  ∀ state twin, Alike state twin → Matches view (action state) (other twin)

theorem Twins.bind {view : α → γ} {later : β → δ} {action other : Parse α}
    {next twinNext : α → Parse β} (early : Twins view action other)
    (late : ∀ value twin, view value = view twin → Twins later (next value) (twinNext twin)) :
    Twins later (action >>= next) (other >>= twinNext) := by
  intro state twin alike
  have outcomes := early state twin alike
  generalize ran : action state = first at outcomes
  generalize twinRan : other twin = second at outcomes
  cases outcomes with
  | ok same alikeLater =>
      rw [bind_of_ok next ran, bind_of_ok twinNext twinRan]
      exact late _ _ same _ _ alikeLater
  | error same alikeLater =>
      rw [bind_of_error next ran, bind_of_error twinNext twinRan]
      exact .error same alikeLater

theorem twins_pure {view : α → γ} {value other : α} (same : view value = view other) :
    Twins view (pure value) (pure other) :=
  fun _ _ alike => .ok same alike

theorem twins_failAt (view : α → γ) (token other : Token) {fault otherFault : ParseFault}
    (same : fault = otherFault) : Twins view (failAt token fault) (failAt other otherFault) :=
  fun _ _ alike => .error same alike

theorem twins_failHere (view : α → γ) (fault : ParseFault) :
    Twins view (failHere fault) (failHere fault) :=
  fun _ _ alike => .error rfl alike

theorem twins_next : Twins Token.lexeme next next := by
  intro state twin alike
  have lexemes := alike.upcoming
  unfold next
  cases upcoming : state.upcoming with
  | nil =>
      rw [upcoming, List.map_nil, eq_comm, List.map_eq_nil_iff] at lexemes
      rw [lexemes]
      exact .error rfl alike
  | cons token rest =>
      rw [upcoming, List.map_cons, eq_comm, List.map_eq_cons_iff] at lexemes
      obtain ⟨other, others, twinUpcoming, same, later⟩ := lexemes
      rw [twinUpcoming]
      exact .ok same.symm ⟨later.symm, alike.scope, alike.depth⟩

theorem twins_define (name : String) : Twins id (define name) (define name) :=
  fun _ _ alike => .ok rfl ⟨alike.upcoming, congrArg (·.insert name) alike.scope, alike.depth⟩

theorem twins_expect (kind : TokenKind) : Twins Token.lexeme (expect kind) (expect kind) := by
  refine twins_next.bind fun token twin same => ?_
  have kinds := Token.kind_of_lexeme_eq same
  rw [kinds]
  split
  · exact twins_pure same
  · exact twins_failAt _ token twin rfl

theorem twins_string : Twins id string string :=
  (twins_expect .string).bind fun _ _ same => twins_pure (Token.value_of_lexeme_eq same)

theorem twins_reference {token other : Token} (same : token.lexeme = other.lexeme) :
    Twins (Expr.map Token.lexeme) (reference token) (reference other) := by
  intro state twin alike
  have values := Token.value_of_lexeme_eq same
  unfold reference
  rw [alike.scope, values]
  split
  · exact .ok (by simp [Expr.map, same]) alike
  · exact .error rfl alike

theorem twins_noteRepeated (opening other : Token) (entries others : Format Token) (key : String) :
    Twins id (noteRepeated opening entries key) (noteRepeated other others key) := by
  intro state twin alike
  unfold noteRepeated
  -- Only one of the keys may be repeated, but what is noted then is not seen.
  split
  all_goals
    split
    · exact .ok rfl ⟨alike.upcoming, alike.scope, alike.depth⟩
    · exact .ok rfl ⟨alike.upcoming, alike.scope, alike.depth⟩

theorem twins_checkDepth (token other : Token) :
    Twins id (checkDepth limit token) (checkDepth limit other) := by
  intro state twin alike
  unfold checkDepth
  cases limit with
  | none => exact .ok rfl alike
  | some bound =>
      simp only [alike.depth]
      split
      · exact .error rfl alike
      · exact .ok rfl alike

theorem twins_deeper {view : α → γ} {inner other : Parse α} (twins : Twins view inner other) :
    Twins view (deeper inner) (deeper other) := by
  intro state twin alike
  have outcomes := twins { state with depth := state.depth + 1 }
    { twin with depth := twin.depth + 1 }
    ⟨alike.upcoming, alike.scope, congrArg (· + 1) alike.depth⟩
  unfold deeper
  generalize inner { state with depth := state.depth + 1 } = first at outcomes
  generalize other { twin with depth := twin.depth + 1 } = second at outcomes
  cases outcomes with
  | ok same alikeLater =>
      exact .ok same ⟨alikeLater.upcoming, alikeLater.scope, congrArg (· - 1) alikeLater.depth⟩
  | error same alikeLater =>
      exact .error same ⟨alikeLater.upcoming, alikeLater.scope, congrArg (· - 1) alikeLater.depth⟩

section Values

variable {inner otherInner : Parse (Value Token)}
  (twins : Twins (Value.map Token.lexeme) inner otherInner)

include twins

theorem twins_pair (opening other : Token) {entries others : Format Token}
    (same : entries.map Token.lexeme = others.map Token.lexeme) :
    Twins (Format.map Token.lexeme) (pair inner opening entries)
      (pair otherInner other others) := by
  refine twins_string.bind fun key otherKey keys => ?_
  obtain rfl : key = otherKey := keys
  refine (twins_expect .colon).bind fun _ _ _ => twins.bind fun value content values => ?_
  refine (twins_noteRepeated opening other entries others key).bind fun _ _ _ => twins_pure ?_
  rw [Format.map_insert, Format.map_insert, same, values]

theorem twins_pairs (opening other : Token) (count : Nat) {entries others : Format Token}
    (same : entries.map Token.lexeme = others.map Token.lexeme) :
    Twins (Format.map Token.lexeme) (pairs inner opening count entries)
      (pairs otherInner other count others) := by
  induction count generalizing entries others with
  | zero => exact twins_failHere _ .endOfInput
  | succ count ih =>
      refine (twins_pair twins opening other same).bind fun entries others same => ?_
      refine twins_next.bind fun separator twin separators => ?_
      rw [Token.kind_of_lexeme_eq separators]
      split
      · exact twins_pure same
      · exact ih same
      · exact twins_failAt _ separator twin rfl

theorem twins_keywordForm {token other : Token} (same : token.lexeme = other.lexeme) :
    Twins (Value.map Token.lexeme) (keywordForm inner token) (keywordForm otherInner other) := by
  unfold keywordForm
  rw [Token.keyword?_of_lexeme_eq same, Token.value_of_lexeme_eq same]
  split
  · refine twins.bind fun element twin elements => twins_pure ?_
    simp [Value.map, Expr.map, elements, same]
  · refine twins_string.bind fun literal twin literals => twins_pure ?_
    obtain rfl : literal = twin := literals
    simp [Value.map, Expr.map, same]
  · exact twins_failAt _ token other rfl
  · exact twins_failAt _ token other rfl

theorem twins_form (fuel : Nat) {token other : Token} (same : token.lexeme = other.lexeme) :
    Twins (Value.map Token.lexeme) (form inner fuel token) (form otherInner fuel other) := by
  unfold form
  rw [Token.kind_of_lexeme_eq same, Token.value_of_lexeme_eq same]
  split
  · exact twins_pure rfl
  · refine (twins_reference same).bind fun expr twin exprs => twins_pure ?_
    simp [Value.map, exprs]
  · refine (twins_pairs twins token other fuel rfl).bind fun entries others formats =>
      twins_pure ?_
    simp [Value.map, Expr.map, formats, same]
  · exact twins_keywordForm twins same
  · exact twins_failAt _ token other rfl

end Values

theorem twins_nested (fuel : Nat) :
    Twins (Value.map Token.lexeme) (nested limit fuel) (nested limit fuel) := by
  induction fuel with
  | zero => exact twins_failHere _ .endOfInput
  | succ fuel ih =>
      refine twins_next.bind fun token other same => ?_
      refine (twins_checkDepth token other).bind fun _ _ _ => ?_
      exact twins_deeper (twins_form ih fuel same)

theorem twins_bound (fuel : Nat) (binder : Binder) :
    Twins (Expr.map Token.lexeme) (bound limit fuel binder) (bound limit fuel binder) := by
  refine (twins_nested fuel).bind fun value other same => ?_
  cases value with
  | expr inner =>
      cases other with
      | expr twin => exact twins_pure (Value.expr.inj same)
      | text => cases same
  | text =>
      cases other with
      | expr => cases same
      | text => exact twins_failHere _ _

theorem twins_status : Twins id status status := by
  refine twins_next.bind fun code other same => ?_
  have statuses : status? code = status? other := by
    rw [status?, status?, Token.kind_of_lexeme_eq same, Token.value_of_lexeme_eq same]
  rw [statuses]
  split
  · exact twins_failAt _ code other rfl
  · exact twins_pure rfl

section Top

variable (fuel : Nat) {token other : Token} (same : token.lexeme = other.lexeme)

include same

theorem twins_definition :
    Twins (Expr.map Token.lexeme) (definition limit fuel token) (definition limit fuel other) := by
  refine (twins_expect .identifier).bind fun name twin names => ?_
  refine (twins_bound fuel .definition).bind fun value content values => ?_
  rw [Token.value_of_lexeme_eq names]
  refine (twins_define twin.value).bind fun _ _ _ => twins_pure ?_
  simp [Expr.map, values, same]

theorem twins_route :
    Twins (Expr.map Token.lexeme) (route limit fuel token) (route limit fuel other) := by
  refine twins_string.bind fun path twin paths => ?_
  obtain rfl : path = twin := paths
  refine (twins_bound fuel .route).bind fun value content values => twins_pure ?_
  simp [Expr.map, values, same]

theorem twins_response :
    Twins (Expr.map Token.lexeme) (response limit fuel token) (response limit fuel other) := by
  refine twins_string.bind fun path twin paths => twins_status.bind fun code number codes => ?_
  obtain rfl : path = twin := paths
  obtain rfl : code = number := codes
  refine (twins_bound fuel .response).bind fun value content values => twins_pure ?_
  simp [Expr.map, values, same]

end Top

theorem twins_top (fuel : Nat) :
    Twins (Expr.map Token.lexeme) (top limit fuel) (top limit fuel) := by
  refine twins_next.bind fun token other same => ?_
  rw [Token.keyword?_of_lexeme_eq same, Token.kind_of_lexeme_eq same]
  split
  · exact twins_definition fuel same
  · exact twins_route fuel same
  · exact twins_response fuel same
  · exact twins_failAt _ token other rfl
  · exact twins_failAt _ token other rfl

theorem twins_finish {found others : List (Expr Token)}
    (same : found.map (Expr.map Token.lexeme) = others.map (Expr.map Token.lexeme)) :
    Twins (List.map (Expr.map Token.lexeme)) (finish found) (finish others) := by
  intro state twin alike
  refine .ok ?_ ⟨alike.upcoming, alike.scope, alike.depth⟩
  rw [List.map_reverse, List.map_reverse, same]

theorem twins_tops (fuel count : Nat) {found others : List (Expr Token)}
    (same : found.map (Expr.map Token.lexeme) = others.map (Expr.map Token.lexeme)) :
    Twins (List.map (Expr.map Token.lexeme)) (tops limit fuel count found)
      (tops limit fuel count others) := by
  induction count generalizing found others with
  | zero => exact twins_finish same
  | succ count ih =>
      intro state twin alike
      have ends : state.upcoming = [] ↔ twin.upcoming = [] := by
        rw [← List.map_eq_nil_iff (f := Token.lexeme), alike.upcoming, List.map_eq_nil_iff]
      by_cases empty : state.upcoming = []
      · rw [tops_succ, tops_succ, if_pos (by simpa using empty),
          if_pos (by simpa using ends.mp empty)]
        exact twins_finish same state twin alike
      · have outcomes : Matches (Expr.map Token.lexeme) (top limit fuel state)
            (top limit fuel twin) := twins_top fuel state twin alike
        generalize ran : top limit fuel state = first at outcomes
        generalize twinRan : top limit fuel twin = second at outcomes
        cases outcomes with
        | @ok expr other middle twinMiddle exprs alikeLater =>
            rw [tops_of_top_ok empty ran, tops_of_top_ok (mt ends.mpr empty) twinRan]
            have noted : Alike (middle.noted expr) (twinMiddle.noted other) :=
              ⟨alikeLater.upcoming, alikeLater.scope, alikeLater.depth⟩
            have founds : (expr :: found).map (Expr.map Token.lexeme) =
                (other :: others).map (Expr.map Token.lexeme) := by
              rw [List.map_cons, List.map_cons, exprs, same]
            exact ih founds _ _ noted
        | error faults alikeLater =>
            rw [tops_of_top_error empty ran, tops_of_top_error (mt ends.mpr empty) twinRan]
            exact .error faults alikeLater

end Parse

end AeSchema
