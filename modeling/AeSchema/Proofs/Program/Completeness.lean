import AeSchema.Proofs.Program.Soundness

/-! The parser accepts what is derived from the grammar. -/

namespace AeSchema

namespace Parse

variable {limit : Option Nat} {state : ParseState}

/-- The state at which tokens of a grammatical value or of pairs can be read. -/
structure Ready (known : List String) (level : Nat) (state : ParseState) (tokens : List Token) :
    Prop where
  upcoming : tokens <+: state.upcoming
  level : state.depth + 1 = level
  known : known ⊆ state.scope.names

section Ready

variable {known : List String} {level : Nat} {middle : ParseState} {token : Token}
  {tokens first second : List Token}

theorem Ready.later (ready : Ready known level state (first ++ second))
    (reads : Reads state first middle) : Ready known level middle second := by
  constructor
  · have upcoming := ready.upcoming
    rw [reads.upcoming, List.prefix_append_right_inj] at upcoming
    exact upcoming
  · rw [reads.depth, ready.level]
  · rw [reads.scope]
    exact ready.known

theorem Ready.front (ready : Ready known level state (first ++ second)) :
    Ready known level state first :=
  ⟨(List.prefix_append first second).trans ready.upcoming, ready.level, ready.known⟩

theorem Ready.tail (ready : Ready known level state (token :: tokens))
    (reads : Reads state [token] middle) : Ready known level middle tokens := by
  rw [← List.singleton_append] at ready
  exact ready.later reads

theorem Ready.deeper (ready : Ready known level state tokens) :
    Ready known (level + 1) { state with depth := state.depth + 1 } tokens :=
  ⟨ready.upcoming, by simp [ready.level], ready.known⟩

theorem Ready.head (ready : Ready known level state (token :: tokens)) :
    ∃ rest, state.upcoming = token :: rest := by
  obtain ⟨rest, split⟩ := ready.upcoming
  exact ⟨tokens ++ rest, split.symm⟩

theorem yields_nested {value : Value Token} {fuel : Nat}
    (ready : Ready known level state (token :: tokens)) (enough : (token :: tokens).length ≤ fuel)
    (within : ∀ bound ∈ limit, level ≤ bound)
    (rest : ∀ fuel middle, tokens.length ≤ fuel → Ready known (level + 1) middle tokens →
      Yields (form (nested limit fuel) fuel token) middle tokens value) :
    Yields (nested limit fuel) state (token :: tokens) value := by
  cases fuel with
  | zero => simp at enough
  | succ fuel =>
      simp only [List.length_cons, Nat.add_le_add_iff_right] at enough
      obtain ⟨_, upcoming⟩ := ready.head
      refine (yields_next upcoming).bind fun middle reads => ?_
      have readyRest := ready.tail reads
      refine (yields_checkDepth token ?_).bind fun bottom checked => ?_
      · rw [readyRest.level]
        exact within
      · exact yields_deeper (rest fuel _ enough (readyRest.later checked).deeper)

theorem yields_pair {inner : Parse (Value Token)} {opening key colon : Token}
    {value : Value Token} (format : Format Token)
    (ready : Ready known level state (key :: colon :: tokens)) (keyKind : key.kind = .string)
    (colonKind : colon.kind = .colon)
    (yieldsValue : ∀ middle, Ready known level middle tokens → Yields inner middle tokens value) :
    Yields (pair inner opening format) state (key :: colon :: tokens)
      (format.insert key.value value) := by
  obtain ⟨_, upcoming⟩ := ready.head
  refine (yields_string upcoming keyKind).bind fun first readsKey => ?_
  obtain ⟨_, upcoming⟩ := (ready.tail readsKey).head
  refine (yields_expect upcoming colonKind).bind fun second readsColon => ?_
  have readyValue := (ready.tail readsKey).tail readsColon
  rw [← List.append_nil tokens]
  refine (yieldsValue second readyValue).bind fun third _ => ?_
  exact (yields_noteRepeated opening format key.value third).bind_pure _

theorem keyword_of_keyword? {keyword : Keyword} (known : token.keyword? = some keyword) :
    token.kind = .keyword := by
  unfold Token.keyword? at known
  split at known
  next kind => exact kind
  next => cases known

end Ready

def Accepts (limit : Option Nat) (known : List String) (level : Nat) (tokens : List Token) :
    Phrase → Prop
  | .value value => ∀ fuel state, Ready known level state tokens → tokens.length ≤ fuel →
      Yields (nested limit fuel) state tokens value
  | .pairs entries => ∀ fuel count state opening closing format,
      Ready known level state (tokens ++ [closing]) → closing.kind = .curlyClose →
      tokens.length ≤ fuel → tokens.length ≤ count →
      Yields (pairs (nested limit fuel) opening count format) state (tokens ++ [closing])
        (format.insertAll entries)

theorem accepts_of_derives {known : List String} {level : Nat} {phrase : Phrase}
    {tokens : List Token} (derives : Derives limit known level phrase tokens) :
    Accepts limit known level tokens phrase := by
  induction derives with
  | @string level token within kind =>
      intro fuel state ready enough
      refine yields_nested ready enough within fun fuel middle _ _ => ?_
      rw [form, kind]
      exact yields_pure _ middle
  | @name level token within kind member =>
      intro fuel state ready enough
      refine yields_nested ready enough within fun fuel middle _ readyRest => ?_
      rw [form, kind]
      exact (yields_reference (readyRest.known member)).bind_pure _
  | @format level opening closing entries tokens within kind _ close ih =>
      intro fuel state ready enough
      refine yields_nested ready enough within fun fuel middle enough readyRest => ?_
      rw [List.length_append] at enough
      rw [form, kind]
      have yields := ih fuel fuel middle opening closing .empty readyRest close
        (by omega) (by omega)
      exact yields.bind_pure fun entries => Value.expr (.format entries opening)
  | @url level token literal within keyword kind =>
      intro fuel state ready enough
      refine yields_nested ready enough within fun fuel middle _ readyRest => ?_
      obtain ⟨_, upcoming⟩ := readyRest.head
      rw [form, keyword_of_keyword? keyword]
      simp only [keywordForm, keyword]
      exact (yields_string upcoming kind).bind_pure _
  | @arrayOf level token element tokens within keyword _ ih =>
      intro fuel state ready enough
      refine yields_nested ready enough within fun fuel middle enough readyRest => ?_
      rw [form, keyword_of_keyword? keyword]
      simp only [keywordForm, keyword]
      exact (ih fuel middle readyRest enough).bind_pure fun element =>
        Value.expr (.arrayOf element token)
  | @pair level key colon value tokens keyKind colonKind _ ih =>
      intro fuel count state opening closing format ready close enough counted
      cases count with
      | zero => simp at counted
      | succ count =>
          have readyPair : Ready known level state (key :: colon :: tokens) := ready.front
          simp only [List.length_cons] at enough
          rw [pairs]
          refine (yields_pair format readyPair keyKind colonKind fun middle readyValue =>
            ih fuel middle readyValue (by omega)).bind fun middle reads => ?_
          obtain ⟨_, upcoming⟩ := (ready.later reads).head
          rw [← List.append_nil [closing]]
          refine (yields_next upcoming).bind fun last _ => ?_
          rw [close]
          exact yields_pure _ last
  | @more level key colon value tokens comma entries rest keyKind colonKind _ commaKind _
      ihValue ihRest =>
      intro fuel count state opening closing format ready close enough counted
      cases count with
      | zero => simp at counted
      | succ count =>
          simp only [List.length_cons, List.length_append] at enough counted
          -- What `pair` reads, the comma, and what is left for the next round.
          have split : key :: colon :: (tokens ++ comma :: rest) ++ [closing] =
              (key :: colon :: tokens) ++ ([comma] ++ (rest ++ [closing])) := by simp
          rw [split] at ready ⊢
          rw [pairs]
          refine (yields_pair format ready.front keyKind colonKind fun middle readyValue =>
            ihValue fuel middle readyValue (by omega)).bind fun middle reads => ?_
          have readyComma := ready.later reads
          obtain ⟨_, upcoming⟩ := readyComma.head
          refine (yields_next upcoming).bind fun last readsComma => ?_
          rw [commaKind, Format.insertAll_cons]
          exact ihRest fuel count last opening closing _ (readyComma.later readsComma) close
            (by omega) (by omega)

section Top

variable {known : List String} {fuel : Nat} {expr : Expr Token} {tokens rest : List Token}

theorem yields_bound (binder : Binder) (ready : Ready known 1 state tokens)
    (enough : tokens.length ≤ fuel)
    (derives : Derives limit known 1 (.value (.expr expr)) tokens) :
    Yields (bound limit fuel binder) state tokens expr := by
  rw [← List.append_nil tokens]
  refine (accepts_of_derives derives fuel state ready enough).bind fun middle _ => ?_
  exact yields_pure expr middle

theorem yields_status {token : Token} {code : Nat} (first : state.upcoming = token :: rest)
    (identifier : token.kind = .identifier) (isStatus : IsStatus token.value code) :
    Yields status state [token] code := by
  refine (yields_next first).bind fun middle _ => ?_
  rw [status?_eq_some_iff.mpr ⟨identifier, isStatus⟩]
  exact yields_pure code middle

theorem Yields.readsTop {action : Parse (Expr Token)} (yields : Yields action state tokens expr)
    (nothing : expr.defined = []) :
    ∃ after, action state = .ok expr after ∧ ReadsTop state tokens expr after := by
  obtain ⟨after, ran, reads⟩ := yields
  exact ⟨after, ran, readsTop_of_reads reads nothing⟩

theorem top_of_derives (derives : DerivesTop limit known expr tokens)
    (ready : Ready known 1 state tokens) (enough : tokens.length ≤ fuel) :
    ∃ after, top limit fuel state = .ok expr after ∧ ReadsTop state tokens expr after := by
  cases derives with
  | @definition token name value tokens keyword identifier derives =>
      have shorter : tokens.length ≤ fuel := by
        simp only [List.length_cons] at enough
        omega
      obtain ⟨_, upcoming⟩ := ready.head
      obtain ⟨first, ranNext, readsToken⟩ := yields_next upcoming
      have readyName := ready.tail readsToken
      obtain ⟨_, upcoming⟩ := readyName.head
      obtain ⟨second, ranName, readsName⟩ := yields_expect upcoming identifier
      obtain ⟨third, ranValue, readsValue⟩ :=
        yields_bound .definition (readyName.tail readsName) shorter derives
      have reads := (readsToken.cons readsName).trans readsValue
      refine ⟨{ third with scope := third.scope.insert name.value },
        bind_eq_ok_iff.mpr ⟨token, first, ranNext, ?_⟩,
        ⟨reads.upcoming, reads.consumed, rfl, reads.depth⟩, ?_⟩
      · rw [keyword]
        exact bind_eq_ok_iff.mpr ⟨name, second, ranName, bind_eq_ok_iff.mpr
          ⟨value, third, ranValue, rfl⟩⟩
      · show third.scope.insert name.value = state.scope.insert name.value
        rw [reads.scope]
  | @route token path value tokens keyword string derives =>
      have shorter : tokens.length ≤ fuel := by
        simp only [List.length_cons] at enough
        omega
      refine Yields.readsTop ?_ rfl
      obtain ⟨_, upcoming⟩ := ready.head
      refine (yields_next upcoming).bind fun first readsToken => ?_
      rw [keyword]
      have readyPath := ready.tail readsToken
      obtain ⟨_, upcoming⟩ := readyPath.head
      refine (yields_string upcoming string).bind fun second readsPath => ?_
      exact (yields_bound .route (readyPath.tail readsPath) shorter derives).bind_pure _
  | @response token path code status value tokens keyword string identifier isStatus derives =>
      have shorter : tokens.length ≤ fuel := by
        simp only [List.length_cons] at enough
        omega
      refine Yields.readsTop ?_ rfl
      obtain ⟨_, upcoming⟩ := ready.head
      refine (yields_next upcoming).bind fun first readsToken => ?_
      rw [keyword]
      have readyPath := ready.tail readsToken
      obtain ⟨_, upcoming⟩ := readyPath.head
      refine (yields_string upcoming string).bind fun second readsPath => ?_
      have readyCode := readyPath.tail readsPath
      obtain ⟨_, upcoming⟩ := readyCode.head
      refine (yields_status upcoming identifier isStatus).bind fun third readsCode => ?_
      exact (yields_bound .response (readyCode.tail readsCode) shorter derives).bind_pure _

theorem finish_ok (found : List (Expr Token)) (state : ParseState) :
    ∃ after, finish found state = .ok found.reverse after := ⟨_, rfl⟩

theorem tops_of_derives {count : Nat} {found program : List (Expr Token)}
    (derives : DerivesProgram limit known program state.upcoming)
    (fueled : state.upcoming.length ≤ fuel) (counted : state.upcoming.length ≤ count)
    (surface : state.depth = 0) (subset : known ⊆ state.scope.names) :
    ∃ after, tops limit fuel count found state = .ok (found.reverse ++ program) after := by
  generalize upcoming : state.upcoming = tokens at derives fueled counted
  induction derives generalizing state count found with
  | nil =>
      rw [List.append_nil]
      cases count with
      | zero => exact finish_ok found state
      | succ count =>
          rw [tops_succ, if_pos (List.isEmpty_iff.mpr upcoming)]
          exact finish_ok found state
  | @cons known expr tokens program rest derives _ ih =>
      have length := derives.length_ge
      simp only [List.length_append] at fueled counted
      cases count with
      | zero => omega
      | succ count =>
          have ready : Ready known 1 state tokens :=
            ⟨by simp [upcoming], by rw [surface], subset⟩
          obtain ⟨middle, ranTop, reads, scope⟩ := top_of_derives derives ready
            (by omega : tokens.length ≤ fuel)
          have wider : known ++ expr.defined ⊆ middle.scope.names := by
            intro name member
            rw [scope, Scope.mem_names_insertAll]
            exact (List.mem_append.mp member).imp_left (subset ·)
          obtain ⟨noted, ranNote, readsNote⟩ :=
            yields_note (.parsed expr.kind expr.origin.location) middle
          obtain ⟨after, ranLater⟩ := @ih noted count (expr :: found)
            (readsNote.depth.trans (reads.depth.trans surface)) (readsNote.scope ▸ wider)
            (readsNote.upcoming.symm.trans (reads.upcoming_eq upcoming)) (by omega) (by omega)
          have more : state.upcoming.isEmpty = false := by
            rw [upcoming, List.isEmpty_eq_false_iff]
            exact List.append_ne_nil_of_left_ne_nil (List.length_pos_iff.mp (by omega)) rest
          refine ⟨after, ?_⟩
          rw [tops_succ, more, if_neg Bool.false_ne_true]
          refine bind_eq_ok_iff.mpr ⟨expr, middle, ranTop, bind_eq_ok_iff.mpr
            ⟨(), noted, ranNote, ?_⟩⟩
          rw [ranLater, List.reverse_cons, List.append_assoc, List.singleton_append]

end Top

end Parse

section Grammatical

variable {limit : Option Nat} {tokens : List Token}

theorem parseWithin_eq_ok_iff_derives {program : List (Expr Token)} :
    parseWithin limit tokens = .ok program ↔ DerivesProgram limit [] program tokens := by
  unfold parseWithin runParse
  constructor
  · intro parsed
    cases ran : Parse.tops limit tokens.length tokens.length [] (.ofTokens tokens) with
    | error failure after => simp [ran] at parsed
    | ok result after =>
        simp only [ran, Except.ok.injEq] at parsed
        obtain ⟨later, rfl, derives⟩ :=
          Parse.tops_sound ran (Nat.le_refl _) rfl (List.Subset.refl _)
        rw [← parsed]
        exact derives
  · intro derives
    obtain ⟨after, ran⟩ := @Parse.tops_of_derives limit (.ofTokens tokens) [] tokens.length
      tokens.length [] program derives (Nat.le_refl _) (Nat.le_refl _) rfl (List.nil_subset _)
    rw [ran]
    rfl

/-- The parser accepts exactly the programs of the grammar whose values nest no deeper than the
limit and name only what is defined before them; no other tree can be derived. -/
theorem parse_eq_ok_iff_derives (tokens : List Token) :
    (∀ program, parse tokens = .ok program ↔
      DerivesProgram (some nestingLimit) [] program tokens) ∧
    ∀ program other, DerivesProgram (some nestingLimit) [] program tokens →
      DerivesProgram (some nestingLimit) [] other tokens → program = other := by
  constructor
  · intro program
    exact parseWithin_eq_ok_iff_derives
  · intro program other derives same
    have parsed := parseWithin_eq_ok_iff_derives.mpr derives
    rw [parseWithin_eq_ok_iff_derives.mpr same, Except.ok.injEq] at parsed
    exact parsed.symm

/-- Tokens that no text has all at once: every one of them claims the same place. -/
theorem parse_eq_ok_iff_derives_sample :
    let token (kind : TokenKind) (value : String) : Token := ⟨value, kind, ⟨1, 1⟩, ⟨0, 0⟩⟩
    let route := token .keyword "route"
    let url := token .keyword "Url"
    let tokens := [route, token .string "p", url, token .string "u"]
    let program : List (Expr Token) := [.route "p" (.url "u" url) route]
    parse tokens = .ok program ∧
      ∀ other, DerivesProgram (some nestingLimit) [] other tokens → other = program := by
  intro token route url tokens program
  have within : ∀ bound ∈ some nestingLimit, 1 ≤ bound := by simp [nestingLimit]
  have path : (token .string "p").kind = .string := rfl
  have literal : (token .string "u").kind = .string := rfl
  have derives : DerivesProgram (some nestingLimit) [] program (tokens ++ []) :=
    .cons (.route (by decide) path (.url within (by decide) literal)) .nil
  rw [List.append_nil] at derives
  obtain ⟨accepts, unique⟩ := parse_eq_ok_iff_derives tokens
  exact ⟨(accepts program).mpr derives, fun other same => unique other program same derives⟩

end Grammatical

end AeSchema
