import AeSchema.Proofs.Program.Change
import AeSchema.Proofs.Program.Invariants

/-! Token sequences put together: the second part is read as on its own, except that the definitions
of the first one are known there. -/

namespace AeSchema

section Grammar

variable {limit : Option Nat} {known wider : List String} {tokens rest : List Token}
  {program later : List (Expr Token)}

theorem DerivesProgram.mono (derives : DerivesProgram limit known program tokens)
    (subset : known ⊆ wider) : DerivesProgram limit wider program tokens := by
  induction derives generalizing wider with
  | nil => exact .nil
  | @cons known expr tokens program rest top _ ih =>
      exact .cons (top.mono subset) (ih (List.append_subset.mpr
        ⟨List.subset_append_of_subset_left _ subset, List.subset_append_right _ _⟩))

theorem DerivesProgram.append (first : DerivesProgram limit known program tokens)
    (second : DerivesProgram limit [] later rest) :
    DerivesProgram limit known (program ++ later) (tokens ++ rest) := by
  induction first with
  | nil => exact second.mono (List.nil_subset _)
  | cons top _ ih =>
      rw [List.cons_append, List.append_assoc]
      exact .cons top ih

def Phrase.Every (property : Expr Token → Prop) : Phrase → Prop
  | .value inner => inner.Every property
  | .pairs entries => ∀ entry ∈ entries, entry.2.Every property

theorem Derives.origins {level : Nat} {phrase : Phrase}
    (derives : Derives limit known level phrase tokens) :
    phrase.Every fun expr => expr.origin ∈ tokens := by
  induction derives with
  | string => exact Value.every_text _ _
  | name =>
      refine Value.every_expr (by simp [Expr.origin]) ?_
      rintro _ ⟨⟩
  | url =>
      refine Value.every_expr (by simp [Expr.origin]) ?_
      rintro _ ⟨⟩
  | format _ _ _ _ ih =>
      refine Value.every_expr (by simp [Expr.origin]) ?_
      rintro _ (_ | _ | _ | member)
      exact (ih _ (Format.mem_of_mem_toList_ofList member)).imp fun expr mem => by simp [mem]
  | arrayOf _ _ _ ih =>
      refine Value.every_expr (by simp [Expr.origin]) ?_
      rintro _ ⟨⟩
      exact Value.Every.imp ih fun expr mem => by simp [mem]
  | pair _ _ _ ih =>
      rw [Phrase.Every, List.forall_mem_singleton]
      exact Value.Every.imp ih fun expr mem => by simp [mem]
  | more _ _ _ _ _ ihValue ihRest =>
      rw [Phrase.Every, List.forall_mem_cons]
      refine ⟨Value.Every.imp ihValue fun expr mem => by simp [mem], fun entry member => ?_⟩
      exact (ihRest entry member).imp fun expr mem => by simp [mem]

theorem DerivesTop.origins {expr : Expr Token} (derives : DerivesTop limit known expr tokens) :
    (Value.expr expr).Every fun expr => expr.origin ∈ tokens := by
  cases derives with
  | definition _ _ value | route _ _ value | response _ _ _ _ value =>
      refine Value.every_expr (by simp [Expr.origin]) ?_
      rintro _ ⟨⟩
      exact Value.Every.imp value.origins fun expr mem => by simp [mem]

theorem DerivesProgram.origins (derives : DerivesProgram limit known program tokens) :
    ∀ expr ∈ program, (Value.expr expr).Every fun expr => expr.origin ∈ tokens := by
  induction derives with
  | nil => simp
  | cons top _ ih =>
      rw [List.forall_mem_cons]
      refine ⟨top.origins.imp fun expr mem => by simp [mem], fun expr member => ?_⟩
      exact (ih expr member).imp fun expr mem => by simp [mem]

end Grammar

section Runs

open Parse

variable {limit : Option Nat} {state : ParseState} {fuel : Nat} {tokens rest : List Token}
  {program : List (Expr Token)}

theorem tops_behind {known : List String} (count : Nat) (found : List (Expr Token))
    (derives : DerivesProgram limit known program tokens)
    (split : state.upcoming = tokens ++ rest) (fits : state.upcoming.length ≤ fuel)
    (surface : state.depth = 0) (subset : known ⊆ state.scope.names) :
    ∃ middle, middle.upcoming = rest ∧ middle.depth = 0 ∧
      (∀ name, name ∈ middle.scope.names ↔
        name ∈ state.scope.names ∨ name ∈ definedNames program) ∧
      tops limit fuel (count + program.length) found state =
        tops limit fuel count (program.reverse ++ found) middle := by
  induction derives generalizing state found with
  | nil => exact ⟨state, split, surface, by simp [definedNames], rfl⟩
  | @cons known expr tokens program later top _ ih =>
      rw [List.append_assoc] at split
      have length := congrArg List.length split
      have positive := top.length_ge
      rw [List.length_append] at length
      have ready : Ready known 1 state tokens := ⟨⟨_, split.symm⟩, by rw [surface], subset⟩
      obtain ⟨middle, ran, reads, scope⟩ := top_of_derives top ready
        (by omega : tokens.length ≤ fuel)
      have upcoming : middle.upcoming = later ++ rest := reads.upcoming_eq split
      have names : ∀ name, name ∈ middle.scope.names ↔
          name ∈ state.scope.names ∨ name ∈ expr.defined := by
        intro name
        rw [scope, Scope.mem_names_insertAll]
      have wider : known ++ expr.defined ⊆ middle.scope.names := by
        intro name member
        exact (names name).mpr ((List.mem_append.mp member).imp_left (subset ·))
      have laterUpcoming : (middle.noted expr).upcoming = later ++ rest := upcoming
      have fitsLater : (middle.noted expr).upcoming.length ≤ fuel := by
        simp only [ParseState.noted, upcoming]
        omega
      have laterSurface : (middle.noted expr).depth = 0 := reads.depth.trans surface
      obtain ⟨bottom, bottomUpcoming, bottomSurface, bottomNames, ranLater⟩ :=
        ih (expr :: found) laterUpcoming fitsLater laterSurface wider
      refine ⟨bottom, bottomUpcoming, bottomSurface, fun name => ?_, ?_⟩
      · rw [bottomNames, ParseState.noted, names, or_assoc, definedNames, definedNames,
          List.flatMap_cons, List.mem_append]
      · have left : state.upcoming ≠ [] := by
          rw [split]
          exact List.append_ne_nil_of_left_ne_nil (List.length_pos_iff.mp (by omega)) _
        rw [List.length_cons, ← Nat.add_assoc, tops_of_top_ok left ran, ranLater]
        simp

theorem DerivesProgram.length_le {known : List String}
    (derives : DerivesProgram limit known program tokens) : program.length ≤ tokens.length := by
  induction derives with
  | nil => simp
  | cons top _ ih =>
      have positive := top.length_ge
      simp only [List.length_cons, List.length_append]
      omega

theorem scope_ofTokens (tokens : List Token) : (ParseState.ofTokens tokens).scope.names = [] := rfl

theorem parse_eq_ok_iff : parse tokens = .ok program ↔ ∃ after,
    runParse (some nestingLimit) tokens = .ok program after := by
  unfold parse parseWithin
  cases runParse (some nestingLimit) tokens <;> simp

theorem parse_eq_error_iff {failure : ParseFailure} : parse tokens = .error failure ↔ ∃ after,
    runParse (some nestingLimit) tokens = .error failure after := by
  unfold parse parseWithin
  cases runParse (some nestingLimit) tokens <;> simp

theorem exists_run_behind (parsed : parse tokens = .ok program) (second : List Token) :
    ∃ middle count, middle.upcoming = second ∧ middle.depth = 0 ∧ second.length ≤ count ∧
      (∀ name, name ∈ middle.scope.names ↔ name ∈ definedNames program) ∧
      runParse (some nestingLimit) (tokens ++ second) =
        tops (some nestingLimit) (tokens ++ second).length count program.reverse middle := by
  have derives := parseWithin_eq_ok_iff_derives.mp parsed
  have length := derives.length_le
  have split : (ParseState.ofTokens (tokens ++ second)).upcoming = tokens ++ second := rfl
  obtain ⟨middle, upcoming, surface, names, ran⟩ :=
    tops_behind ((tokens ++ second).length - program.length) [] derives split (Nat.le_refl _) rfl
      (List.nil_subset _)
  rw [List.append_nil, Nat.sub_add_cancel (by rw [List.length_append]; omega)] at ran
  refine ⟨middle, _, upcoming, surface, ?_, fun name => ?_, ran⟩
  · rw [List.length_append]
    omega
  · rw [names, scope_ofTokens, or_iff_right List.not_mem_nil]

theorem parse_halts {failure : ParseFailure} (failed : parse tokens = .error failure) :
    ∃ token front scope after, runParse (some nestingLimit) tokens = .error failure after ∧
      Halts { ParseState.ofTokens tokens with scope := scope } (token :: front) failure after := by
  obtain ⟨after, ran⟩ := parse_eq_error_iff.mp failed
  obtain ⟨token, front, scope, _, halts⟩ := tops_halts rfl ran
  exact ⟨token, front, scope, after, ran, halts⟩

end Runs

/-- After a program, tokens are read as on their own, with the definitions of the program known:
the same program is added or the same failure reported, except for names that are known by now. -/
theorem parse_append {first : List Token} {program : List (Expr Token)}
    (parsed : parse first = .ok program) (second : List Token) :
    (∀ later, parse second = .ok later → parse (first ++ second) = .ok (program ++ later)) ∧
    (∀ failure, parse second = .error failure →
      (∀ name ∈ definedNames program, failure.fault ≠ .unknownName name) →
        parse (first ++ second) = .error failure) ∧
    (∀ failure name, parse second = .error failure → failure.fault = .unknownName name →
      name ∈ definedNames program → ∀ other, parse (first ++ second) = .error other →
        (∃ unknown, other.fault = .unknownName unknown) → other.culprit ≠ failure.culprit) ∧
    ∀ whole, parse (first ++ second) = .ok whole → ∃ later, whole = program ++ later ∧
      ∀ expr ∈ later, (Value.expr expr).Every fun inner => inner.origin ∈ second := by
  have derives := parseWithin_eq_ok_iff_derives.mp parsed
  obtain ⟨middle, count, upcoming, surface, counted, names, ran⟩ :=
    exists_run_behind parsed second
  refine ⟨?_, ?_, ?_, ?_⟩
  · intro later parsedLater
    have derivesLater := parseWithin_eq_ok_iff_derives.mp parsedLater
    exact parseWithin_eq_ok_iff_derives.mpr (derives.append derivesLater)
  · intro failure failed known
    obtain ⟨after, ranSecond⟩ := parse_eq_error_iff.mp failed
    let change : Change := ⟨[], [], definedNames program⟩
    have applies : change.Applies (.ofTokens second) middle := by
      refine ⟨⟨second, (List.append_nil second).symm, ?_⟩, surface, fun name => ?_⟩
      · rw [upcoming, List.append_nil]
      · rw [names, scope_ofTokens, or_iff_right List.not_mem_nil]
    have twinFits : middle.upcoming.length ≤ (first ++ second).length := by
      rw [upcoming, List.length_append]
      exact Nat.le_add_left _ _
    rw [parse_eq_error_iff, ran]
    exact applies.tops_error_same rfl (Nat.le_refl _) twinFits (upcoming ▸ counted) ranSecond
      (Nat.zero_le _) (Change.not_excuses known (.inl rfl))
  · intro failure name failed unknown defined other otherFailed ⟨otherName, otherUnknown⟩ same
    obtain ⟨_, _, _, _, _, halts⟩ := parse_halts failed
    obtain ⟨after, ranOther⟩ := parse_eq_error_iff.mp otherFailed
    rw [ran] at ranOther
    obtain ⟨_, _, scope, wider, otherHalts⟩ := Parse.tops_halts surface ranOther
    obtain ⟨_, token, culprit, rfl⟩ := halts.unknown name unknown
    obtain ⟨absent, otherToken, otherCulprit, rfl⟩ := otherHalts.unknown otherName otherUnknown
    rw [same] at otherCulprit
    obtain rfl := Option.mem_unique otherCulprit culprit
    exact absent (wider ((names _).mpr defined))
  · intro whole parsedWhole
    obtain ⟨after, ranWhole⟩ := parse_eq_ok_iff.mp parsedWhole
    rw [ran] at ranWhole
    obtain ⟨later, rfl, derivesLater⟩ :=
      Parse.tops_sound ranWhole (upcoming ▸ counted) surface (List.Subset.refl _)
    rw [upcoming] at derivesLater
    exact ⟨later, by rw [List.reverse_reverse], derivesLater.origins⟩

/-- A part that is read, one that breaks off, and one whose first name is unknown only on its
own, behind the definition of that name. -/
theorem parse_append_sample :
    let token (kind : TokenKind) (value : String) : Token := ⟨value, kind, ⟨1, 1⟩, ⟨0, 0⟩⟩
    let define := token .keyword "def"
    let route := token .keyword "route"
    let url := token .keyword "Url"
    let path := token .string "p"
    let known := token .identifier "A"
    let unknown := token .identifier "B"
    let first := [define, known, url, path]
    let read := [route, path, url, path]
    let broken := [route, path, url]
    let naming := [route, path, known, route, path, unknown]
    let found : Expr Token := .definition "A" (.url "p" url) define
    let later : Expr Token := .route "p" (.url "p" url) route
    parse (first ++ read) = .ok [found, later] ∧
      parse (first ++ broken) = .error ⟨.endOfInput, some url⟩ ∧
      parse naming = .error ⟨.unknownName "A", some known⟩ ∧
      parse (first ++ naming) = .error ⟨.unknownName "B", some unknown⟩ ∧ unknown ≠ known ∧
      (Value.expr later).Every fun inner => inner.origin ∈ read := by
  intro token define route url path known unknown first read broken naming found later
  have parsed : parse first = .ok [found] := by decide +kernel
  have parsedLater : parse read = .ok [later] := by decide +kernel
  have failed : parse broken = .error ⟨.endOfInput, some url⟩ := by decide +kernel
  have alone : parse naming = .error ⟨.unknownName "A", some known⟩ := by decide +kernel
  have behind : parse (first ++ naming) = .error ⟨.unknownName "B", some unknown⟩ := by
    decide +kernel
  have joined := (parse_append parsed read).1 _ parsedLater
  obtain ⟨added, same, origins⟩ := (parse_append parsed read).2.2.2 _ joined
  obtain rfl : added = [later] := (List.append_cancel_left same).symm
  refine ⟨joined, (parse_append parsed broken).2.1 _ failed fun _ _ => nofun, alone, behind, ?_,
    origins later (List.mem_singleton_self _)⟩
  have elsewhere := (parse_append parsed naming).2.2.1 _ "A" alone rfl (by decide) _ behind
    ⟨"B", rfl⟩
  exact fun same => elsewhere (congrArg some same)

end AeSchema
