import AeSchema.Proofs.Program.Grammar

/-! Tokens that break off inside a program, and what is missing there. Unless the limit is reached,
there is always a way to go on that ends well. -/

namespace AeSchema

inductive Part where
  | value
  | pairs
  deriving DecidableEq, Repr

/-- Tokens of a value, or of the pairs of an object, that break off. They stand in an array or
object at level `outer`, or in none if this is zero; the innermost one that is still open where the
tokens end is at level `inner`. -/
inductive Unfinished (limit : Option Nat) (known : List String) :
    Nat → Part → List Token → Nat → Prop
  | noValue {outer} : Unfinished limit known outer .value [] outer
  | url {outer token} : (∀ bound ∈ limit, outer + 1 ≤ bound) → token.keyword? = some .url →
      Unfinished limit known outer .value [token] outer
  | arrayOf {outer inner token tokens} : (∀ bound ∈ limit, outer + 1 ≤ bound) →
      token.keyword? = some .arrayOf → Unfinished limit known (outer + 1) .value tokens inner →
      Unfinished limit known outer .value (token :: tokens) inner
  | format {outer inner opening tokens} : (∀ bound ∈ limit, outer + 1 ≤ bound) →
      opening.kind = .curlyOpen → Unfinished limit known (outer + 1) .pairs tokens inner →
      Unfinished limit known outer .value (opening :: tokens) inner
  | noPair {outer} : Unfinished limit known outer .pairs [] outer
  | key {outer key} : key.kind = .string → Unfinished limit known outer .pairs [key] outer
  | pairValue {outer inner key colon tokens} : key.kind = .string → colon.kind = .colon →
      Unfinished limit known outer .value tokens inner →
      Unfinished limit known outer .pairs (key :: colon :: tokens) inner
  | noSeparator {outer key colon value tokens} : key.kind = .string → colon.kind = .colon →
      Derives limit known (outer + 1) (.value value) tokens →
      Unfinished limit known outer .pairs (key :: colon :: tokens) outer
  | more {outer inner key colon value tokens comma rest} : key.kind = .string →
      colon.kind = .colon → Derives limit known (outer + 1) (.value value) tokens →
      comma.kind = .comma → Unfinished limit known outer .pairs rest inner →
      Unfinished limit known outer .pairs (key :: colon :: (tokens ++ comma :: rest)) inner

inductive UnfinishedTop (limit : Option Nat) (known : List String) : List Token → Nat → Prop
  | keyword {token keyword} : token.keyword? = some keyword →
      keyword ∈ [.define, .route, .response] → UnfinishedTop limit known [token] 0
  | definition {token name tokens inner} : token.keyword? = some .define →
      name.kind = .identifier → Unfinished limit known 0 .value tokens inner →
      UnfinishedTop limit known (token :: name :: tokens) inner
  | route {token path tokens inner} : token.keyword? = some .route → path.kind = .string →
      Unfinished limit known 0 .value tokens inner →
      UnfinishedTop limit known (token :: path :: tokens) inner
  | noStatus {token path} : token.keyword? = some .response → path.kind = .string →
      UnfinishedTop limit known [token, path] 0
  | response {token path code status tokens inner} : token.keyword? = some .response →
      path.kind = .string → code.kind = .identifier → IsStatus code.value status →
      Unfinished limit known 0 .value tokens inner →
      UnfinishedTop limit known (token :: path :: code :: tokens) inner

inductive UnfinishedProgram (limit : Option Nat) : List String → List Token → Nat → Prop
  | last {known tokens inner} : UnfinishedTop limit known tokens inner →
      UnfinishedProgram limit known tokens inner
  | cons {known expr tokens rest inner} : DerivesTop limit known expr tokens →
      UnfinishedProgram limit (known ++ expr.defined) rest inner →
      UnfinishedProgram limit known (tokens ++ rest) inner

section Mono

variable {limit : Option Nat} {known wider : List String} {tokens : List Token} {inner : Nat}

theorem Unfinished.mono {outer : Nat} {part : Part} (subset : known ⊆ wider)
    (unfinished : Unfinished limit known outer part tokens inner) :
    Unfinished limit wider outer part tokens inner := by
  induction unfinished with
  | noValue => exact .noValue
  | url within keyword => exact .url within keyword
  | arrayOf within keyword _ ih => exact .arrayOf within keyword ih
  | format within opens _ ih => exact .format within opens ih
  | noPair => exact .noPair
  | key string => exact .key string
  | pairValue string colon _ ih => exact .pairValue string colon ih
  | noSeparator string colon value => exact .noSeparator string colon (value.mono subset)
  | more string colon value comma _ ih =>
      exact .more string colon (value.mono subset) comma ih

theorem UnfinishedTop.mono (subset : known ⊆ wider)
    (unfinished : UnfinishedTop limit known tokens inner) :
    UnfinishedTop limit wider tokens inner := by
  cases unfinished with
  | keyword keyword starts => exact .keyword keyword starts
  | definition keyword identifier value =>
      exact .definition keyword identifier (value.mono subset)
  | route keyword string value => exact .route keyword string (value.mono subset)
  | noStatus keyword string => exact .noStatus keyword string
  | response keyword string identifier status value =>
      exact .response keyword string identifier status (value.mono subset)

end Mono

section Levels

variable {known : List String} {bound outer inner : Nat} {part : Part} {tokens : List Token}

theorem Unfinished.level_le (unfinished : Unfinished (some bound) known outer part tokens inner)
    (within : outer ≤ bound) : inner ≤ bound := by
  induction unfinished with
  | arrayOf room _ _ ih | format room _ _ ih => exact ih (room bound rfl)
  | pairValue _ _ _ ih | more _ _ _ _ _ ih => exact ih within
  | _ => exact within

theorem UnfinishedTop.level_le (unfinished : UnfinishedTop (some bound) known tokens inner) :
    inner ≤ bound := by
  cases unfinished with
  | keyword | noStatus => exact Nat.zero_le bound
  | definition _ _ value | route _ _ value | response _ _ _ _ value =>
      exact value.level_le (Nat.zero_le bound)

theorem UnfinishedProgram.level_le
    (unfinished : UnfinishedProgram (some bound) known tokens inner) : inner ≤ bound := by
  induction unfinished with
  | last top => exact top.level_le
  | cons _ _ ih => exact ih

end Levels

section Completion

def Token.bare (kind : TokenKind) (value : String) : Token :=
  ⟨value, kind, ⟨1, 1⟩, ⟨0, 0⟩⟩

def Completed (limit : Option Nat) (known : List String) (level : Nat) (tokens : List Token) :
    Part → Prop
  | .value => ∃ expr, Derives limit known level (.value (.expr expr)) tokens
  | .pairs => ∃ entries, Derives limit known level (.pairs entries) tokens

variable {known : List String} {bound outer inner : Nat} {part : Part} {tokens : List Token}

def urlTokens : List Token :=
  [.bare .keyword Keyword.url.text, .bare .string ""]

theorem completed_url (within : outer + 1 ≤ bound) :
    Completed (some bound) known (outer + 1) urlTokens .value :=
  ⟨_, .url (by simpa using within) rfl rfl⟩

theorem Completed.pair {key colon : Token} (string : key.kind = .string)
    (separator : colon.kind = .colon)
    (completed : Completed (some bound) known (outer + 1) tokens .value) :
    Completed (some bound) known (outer + 1) (key :: colon :: tokens) .pairs := by
  obtain ⟨expr, derives⟩ := completed
  exact ⟨_, .pair string separator derives⟩

theorem Unfinished.complete
    (unfinished : Unfinished (some bound) known outer part tokens inner) (room : inner < bound) :
    ∃ more, Completed (some bound) known (outer + 1) (tokens ++ more) part := by
  induction unfinished with
  | noValue => exact ⟨urlTokens, completed_url room⟩
  | url within keyword => exact ⟨[.bare .string ""], _, .url within keyword rfl⟩
  | arrayOf within keyword _ ih =>
      obtain ⟨more, _, derives⟩ := ih room
      exact ⟨more, _, .arrayOf within keyword derives⟩
  | format within opens _ ih =>
      obtain ⟨more, _, derives⟩ := ih room
      refine ⟨more ++ [.bare .curlyClose "\x7d"], ?_⟩
      rw [List.cons_append, ← List.append_assoc]
      exact ⟨_, .format within opens derives rfl⟩
  | noPair =>
      exact ⟨.bare .string "" :: .bare .colon ":" :: urlTokens, (completed_url room).pair rfl rfl⟩
  | key string => exact ⟨.bare .colon ":" :: urlTokens, (completed_url room).pair string rfl⟩
  | pairValue string colon _ ih =>
      obtain ⟨more, completed⟩ := ih room
      exact ⟨more, completed.pair string colon⟩
  | noSeparator string colon value =>
      refine ⟨[], ?_⟩
      rw [List.append_nil]
      exact ⟨_, .pair string colon value⟩
  | more string colon value comma _ ih =>
      obtain ⟨more, _, derives⟩ := ih room
      refine ⟨more, ?_⟩
      rw [List.cons_append, List.cons_append, List.append_assoc, List.cons_append]
      exact ⟨_, .more string colon value comma derives⟩

theorem isStatus_ok : IsStatus "200" 200 :=
  ⟨2, 0, 0, by decide, by decide, by decide, by decide, by decide, by decide⟩

theorem UnfinishedTop.complete (unfinished : UnfinishedTop (some bound) known tokens inner)
    (room : inner < bound) : ∃ more expr, DerivesTop (some bound) known expr (tokens ++ more) := by
  obtain ⟨value, url⟩ : Completed (some bound) known 1 urlTokens .value :=
    completed_url (Nat.zero_lt_of_lt room)
  cases unfinished with
  | @keyword token keyword found starts =>
      simp only [List.mem_cons, List.not_mem_nil, or_false] at starts
      obtain rfl | rfl | rfl := starts
      · exact ⟨.bare .identifier "" :: urlTokens, _, .definition found rfl url⟩
      · exact ⟨.bare .string "" :: urlTokens, _, .route found rfl url⟩
      · exact ⟨.bare .string "" :: .bare .identifier "200" :: urlTokens, _,
          .response found rfl rfl isStatus_ok url⟩
  | definition keyword identifier value =>
      obtain ⟨more, _, derives⟩ := value.complete room
      exact ⟨more, _, .definition keyword identifier derives⟩
  | route keyword string value =>
      obtain ⟨more, _, derives⟩ := value.complete room
      exact ⟨more, _, .route keyword string derives⟩
  | noStatus keyword string =>
      exact ⟨.bare .identifier "200" :: urlTokens, _, .response keyword string rfl isStatus_ok url⟩
  | response keyword string identifier status value =>
      obtain ⟨more, _, derives⟩ := value.complete room
      exact ⟨more, _, .response keyword string identifier status derives⟩

theorem UnfinishedProgram.complete
    (unfinished : UnfinishedProgram (some bound) known tokens inner) (room : inner < bound) :
    ∃ more program, DerivesProgram (some bound) known program (tokens ++ more) := by
  induction unfinished with
  | last top =>
      obtain ⟨more, _, derives⟩ := top.complete room
      refine ⟨more, ?_⟩
      rw [← List.append_nil (_ ++ more)]
      exact ⟨_, .cons derives .nil⟩
  | cons top _ ih =>
      obtain ⟨more, _, derives⟩ := ih room
      refine ⟨more, ?_⟩
      rw [List.append_assoc]
      exact ⟨_, .cons top derives⟩

end Completion

end AeSchema
