import AeSchema.Proofs.Expr.Insertions
import AeSchema.Proofs.Program.Completeness
import AeSchema.Proofs.Program.Concatenation
import AeSchema.Proofs.Program.Trace
import Mathlib.Data.Finset.Card

/-! What the scope holds between two top-level expressions, and that it does not change while one of
them is read. -/

namespace AeSchema

open Parse

/-- The parser stands at `state` between two top-level expressions, having read `found`. -/
inductive Between (tokens : List Token) : List (Expr Token) → ParseState → Prop
  | start : Between tokens [] (.ofTokens tokens)
  | next {found state expr after} : Between tokens found state → state.upcoming ≠ [] →
      top (some nestingLimit) tokens.length state = .ok expr after →
      Between tokens (found ++ [expr]) (after.noted expr)

/-- The run comes to an end behind the last expression, or inside one that it has begun. -/
inductive RunEnds (tokens : List Token) :
    EStateM.Result ParseFailure ParseState (List (Expr Token)) → Prop
  | ok {program last after} : Between tokens program last → last.upcoming = [] →
      after.scope = last.scope → RunEnds tokens (.ok program after)
  | error {found last failure after} : Between tokens found last → last.upcoming ≠ [] →
      top (some nestingLimit) tokens.length last = .error failure after →
      RunEnds tokens (.error failure after)

/-- The scope consists of `definitions`, each listed where it first came, and both of its sides tell
the same. -/
structure Scope.Lists (scope : Scope) (definitions : List String) : Prop where
  names : scope.names = definitions.eraseDups
  nodup : scope.names.Nodup
  contains : ∀ name, scope.contains name = true ↔ name ∈ scope.names
  size : scope.size = definitions.toFinset.card
  fresh : ∀ name ∉ scope.names, (scope.insertNew name).1 = true ∧
    (scope.insertNew name).2.names = scope.names ++ [name]
  known : ∀ name ∈ scope.names, scope.insertNew name = (false, scope)

section Scopes

variable {scope : Scope} {name : String}

theorem Scope.nodup_names (scope : Scope) : scope.names.Nodup :=
  List.nodup_reverse.mpr scope.distinct

theorem Scope.size_eq_length_names (scope : Scope) : scope.size = scope.names.length := by
  rw [size, names, List.length_reverse]

theorem Scope.insertNew_of_mem (known : name ∈ scope.names) :
    scope.insertNew name = (false, scope) := by
  rw [insertNew, dif_pos (contains_iff.mpr known)]

theorem Scope.insertNew_of_not_mem (fresh : name ∉ scope.names) :
    (scope.insertNew name).1 = true ∧ (scope.insertNew name).2.names = scope.names ++ [name] := by
  rw [← contains_iff] at fresh
  refine ⟨?_, ?_⟩
  · rw [insertNew, dif_neg fresh]
  · rw [← insert, names_insert, if_neg fresh]

theorem Scope.insertAll_append (scope : Scope) (first second : List String) :
    scope.insertAll (first ++ second) = (scope.insertAll first).insertAll second :=
  List.foldl_append

theorem Scope.names_insertAll_empty (definitions : List String) :
    (empty.insertAll definitions).names = definitions.eraseDups := by
  induction definitions using List.reverseRecOn with
  | nil => rfl
  | append_singleton definitions name ih =>
      rw [insertAll_append, insertAll, List.foldl_cons, List.foldl_nil, names_insert, ih,
        eraseDups_concat]
      simp only [contains_iff, ih, List.mem_eraseDups]

theorem Scope.lists_insertAll_empty (definitions : List String) :
    (empty.insertAll definitions).Lists definitions := by
  have names := names_insertAll_empty definitions
  refine ⟨names, nodup_names _, fun name => contains_iff, ?_, fun name => insertNew_of_not_mem,
    fun name => insertNew_of_mem⟩
  have same : (empty.insertAll definitions).names.toFinset = definitions.toFinset := by
    ext name
    rw [List.mem_toFinset, List.mem_toFinset, names, List.mem_eraseDups]
  rw [size_eq_length_names, ← List.toFinset_card_of_nodup (nodup_names _), same]

end Scopes

section Boundaries

variable {tokens : List Token} {found : List (Expr Token)} {state after : ParseState}
  {expr : Expr Token} {failure : ParseFailure}

theorem definedNames_concat (found : List (Expr Token)) (expr : Expr Token) :
    definedNames (found ++ [expr]) = definedNames found ++ expr.defined := by
  simp [definedNames]

theorem halts_of_top_error (left : state.upcoming ≠ [])
    (failed : top (some nestingLimit) tokens.length state = .error failure after) :
    ∃ read, Halts state read failure after := by
  obtain ⟨token, rest, upcoming⟩ := List.exists_cons_of_ne_nil left
  obtain ⟨later, halts⟩ := top_halts upcoming failed
  exact ⟨token :: later, halts⟩

namespace Between

theorem surface (between : Between tokens found state) : state.depth = 0 := by
  induction between with
  | start => rfl
  | next _ _ ran ih =>
      obtain ⟨_, ⟨reads, _⟩, _⟩ := top_sound ih ran
      exact reads.depth.trans ih

theorem scope (between : Between tokens found state) :
    state.scope = Scope.empty.insertAll (definedNames found) := by
  induction between with
  | start => rfl
  | next before _ ran ih =>
      obtain ⟨_, ⟨_, defined⟩, _⟩ := top_sound before.surface ran
      rw [definedNames_concat, Scope.insertAll_append, ← ih]
      exact defined

theorem shorter (between : Between tokens found state)
    (ran : top (some nestingLimit) tokens.length state = .ok expr after) :
    after.upcoming.length < state.upcoming.length := by
  obtain ⟨_, ⟨reads, _⟩, derives⟩ := top_sound between.surface ran
  have positive := derives.length_ge
  have length := reads.length_upcoming
  simp only at length
  omega

theorem length_le (between : Between tokens found state) :
    state.upcoming.length ≤ tokens.length := by
  induction between with
  | start => exact Nat.le_refl _
  | next before _ ran ih => exact (before.shorter ran).le.trans ih

theorem top_eq_ok_iff (between : Between tokens found state) {rest : List Token} :
    (∃ after, top (some nestingLimit) tokens.length state = .ok expr after ∧
      after.upcoming = rest) ↔
    ∃ read, state.upcoming = read ++ rest ∧
      DerivesTop (some nestingLimit) state.scope.names expr read := by
  constructor
  · rintro ⟨after, ran, rfl⟩
    obtain ⟨read, ⟨reads, _⟩, derives⟩ := top_sound between.surface ran
    exact ⟨read, reads.upcoming, derives⟩
  · rintro ⟨read, split, derives⟩
    have ready : Ready state.scope.names 1 state read :=
      ⟨⟨rest, split.symm⟩, by rw [between.surface], List.Subset.refl _⟩
    have enough : read.length ≤ tokens.length := by
      have whole := between.length_le
      rw [split, List.length_append] at whole
      omega
    obtain ⟨after, ran, ⟨reads, _⟩⟩ := top_of_derives derives ready enough
    exact ⟨after, ran, reads.upcoming_eq split⟩

theorem reached (between : Between tokens found state) :
    ∃ count, state.upcoming.length ≤ count ∧ runParse (some nestingLimit) tokens =
      tops (some nestingLimit) tokens.length count found.reverse state := by
  induction between with
  | start => exact ⟨tokens.length, Nat.le_refl _, rfl⟩
  | next before left ran ih =>
      -- The rounds last as long as there are tokens left.
      obtain ⟨count, enough, reached⟩ := ih
      have shorter := before.shorter ran
      obtain ⟨rounds, rfl⟩ : ∃ rounds, count = rounds + 1 :=
        Nat.exists_eq_succ_of_ne_zero (by omega)
      refine ⟨rounds, by simp only [ParseState.noted]; omega, ?_⟩
      rw [reached, tops_of_top_ok left ran, List.reverse_append, List.reverse_singleton,
        List.singleton_append]

theorem ends_finish (between : Between tokens found state) (empty : state.upcoming = []) :
    RunEnds tokens (finish found.reverse state) := by
  have whole : Between tokens found.reverse.reverse state := by rwa [List.reverse_reverse]
  exact .ok whole empty rfl

theorem ends (between : Between tokens found state) (count : Nat)
    (enough : state.upcoming.length ≤ count) :
    RunEnds tokens (tops (some nestingLimit) tokens.length count found.reverse state) := by
  induction count generalizing found state with
  | zero =>
      have empty : state.upcoming = [] := List.eq_nil_of_length_eq_zero (by omega)
      exact between.ends_finish empty
  | succ count ih =>
      by_cases empty : state.upcoming = []
      · rw [tops_succ, if_pos (by simpa using empty)]
        exact between.ends_finish empty
      · cases ran : top (some nestingLimit) tokens.length state with
        | error failure after =>
            rw [tops_of_top_error empty ran]
            exact .error between empty ran
        | ok expr after =>
            have shorter := between.shorter ran
            have later := ih (between.next empty ran) (by simp only [ParseState.noted]; omega)
            rw [List.reverse_append, List.reverse_singleton, List.singleton_append] at later
            rw [tops_of_top_ok empty ran]
            exact later

end Between

end Boundaries

/-- Between two top-level expressions, the scope lists the names of the definitions read so far and
no others. The next expression is judged by this scope throughout: it holds at every value inside,
and it grows only by what the expression defines, once all of that is read. -/
theorem scope_lists_definitions (tokens : List Token) :
    RunEnds tokens (runParse (some nestingLimit) tokens) ∧
    (Recorded.run (some nestingLimit) tokens).1 = runParse (some nestingLimit) tokens ∧
    ∀ found state, Between tokens found state →
      (∃ count, runParse (some nestingLimit) tokens =
        tops (some nestingLimit) tokens.length count found.reverse state) ∧
      state.scope.Lists (definedNames found) ∧
      ((Recorded.top (some nestingLimit) tokens.length state).1 =
          top (some nestingLimit) tokens.length state ∧
        ∀ call ∈ (Recorded.top (some nestingLimit) tokens.length state).2,
          call.scope = state.scope) ∧
      (∀ expr rest, (∃ after, top (some nestingLimit) tokens.length state = .ok expr after ∧
          after.upcoming = rest) ↔
        ∃ read, state.upcoming = read ++ rest ∧
          DerivesTop (some nestingLimit) state.scope.names expr read) ∧
      (∀ expr after, top (some nestingLimit) tokens.length state = .ok expr after →
        after.scope = state.scope.insertAll expr.defined) ∧
      ∀ failure after, state.upcoming ≠ [] →
        top (some nestingLimit) tokens.length state = .error failure after →
          after.scope = state.scope ∧
          ∀ name, failure.fault = .unknownName name → name ∉ state.scope.names := by
  refine ⟨Between.start.ends tokens.length (Nat.le_refl _), congrArg Prod.fst (Recorded.run_eq _ _),
    fun found state between => ?_⟩
  obtain ⟨count, _, reached⟩ := between.reached
  refine ⟨⟨count, reached⟩, ?_, ?_, fun expr rest => between.top_eq_ok_iff, ?_, ?_⟩
  · rw [between.scope]
    exact Scope.lists_insertAll_empty _
  · rw [Recorded.tells_top]
    exact ⟨rfl, (traces_top tokens.length between.surface).scope⟩
  · intro expr after ran
    obtain ⟨_, ⟨_, defined⟩, _⟩ := top_sound between.surface ran
    exact defined
  · intro failure after left failed
    obtain ⟨_, halts⟩ := halts_of_top_error left failed
    exact ⟨halts.reads.scope, fun name fault => (halts.unknown name fault).1⟩

/-- A name defined twice, the second time by what it stood for, and one that is used before its own
definition is complete. -/
theorem scope_lists_definitions_sample :
    let token (kind : TokenKind) (value : String) : Token := ⟨value, kind, ⟨1, 1⟩, ⟨0, 0⟩⟩
    let define := token .keyword "def"
    let url := token .keyword "Url"
    let link := token .string "k"
    let a := token .identifier "A"
    let b := token .identifier "B"
    let c := token .identifier "C"
    let arrayOf := token .keyword "ArrayOf"
    let tokens := [define, a, url, link, define, b, url, link, define, a, arrayOf, a, define, c, c]
    ∃ found state after, Between tokens found state ∧
      top (some nestingLimit) tokens.length state = .error ⟨.unknownName "C", some c⟩ after ∧
      (definedNames found).eraseDups = ["A", "B"] ∧ state.scope.names = ["A", "B"] ∧
      (∀ call ∈ (Recorded.top (some nestingLimit) tokens.length state).2,
        call.scope = state.scope) ∧
      "C" ∉ state.scope.names ∧ after.scope = state.scope := by
  intro token define url link a b c arrayOf tokens
  have parsed : parse tokens = .error ⟨.unknownName "C", some c⟩ := by decide +kernel
  have listed : (endState (runParse (some nestingLimit) tokens)).scope.names = ["A", "B"] := by
    decide +kernel
  obtain ⟨after, ran⟩ := parse_eq_error_iff.mp parsed
  obtain ⟨ends, -, each⟩ := scope_lists_definitions tokens
  rw [ran] at ends listed
  cases ends with
  | @error found state _ _ between left failed =>
      obtain ⟨-, lists, ⟨-, inside⟩, -, -, kept⟩ := each found state between
      obtain ⟨same, unknown⟩ := kept _ after left failed
      have names : state.scope.names = ["A", "B"] := same ▸ listed
      exact ⟨found, state, after, between, failed, lists.names ▸ names, names, inside,
        unknown "C" rfl, same⟩

end AeSchema
