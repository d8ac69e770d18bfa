import AeSchema.Proofs.Expr.Entries
import AeSchema.Proofs.Program.Status

/-! The grammar of programs, with the tree that each derivation stands for.

    program := top*
    top     := def IDENTIFIER value | route STRING value | response STRING IDENTIFIER value
    value   := STRING | IDENTIFIER | { pair (, pair)* } | Url STRING | ArrayOf value
    pair    := STRING : value -/

namespace AeSchema

def Expr.defined {Origin : Type} : Expr Origin → List String
  | .definition name .. => [name]
  | _ => []

def Scope.insertAll (scope : Scope) (names : List String) : Scope :=
  names.foldl Scope.insert scope

inductive Phrase where
  | value (value : Value Token)
  | pairs (entries : List (String × Value Token))

/-- The tokens of a value at a level, or of the pairs whose values stand there. Only `known` names
may be used, and no value lies deeper than `limit`. -/
inductive Derives (limit : Option Nat) (known : List String) :
    Nat → Phrase → List Token → Prop
  | string {level token} : (∀ bound ∈ limit, level ≤ bound) → token.kind = .string →
      Derives limit known level (.value (.text token.value)) [token]
  | name {level token} : (∀ bound ∈ limit, level ≤ bound) → token.kind = .identifier →
      token.value ∈ known →
      Derives limit known level (.value (.expr (.reference token.value token))) [token]
  | format {level opening closing entries tokens} : (∀ bound ∈ limit, level ≤ bound) →
      opening.kind = .curlyOpen → Derives limit known (level + 1) (.pairs entries) tokens →
      closing.kind = .curlyClose →
      Derives limit known level (.value (.expr (.format (.ofList entries) opening)))
        (opening :: (tokens ++ [closing]))
  | url {level token literal} : (∀ bound ∈ limit, level ≤ bound) →
      token.keyword? = some .url → literal.kind = .string →
      Derives limit known level (.value (.expr (.url literal.value token))) [token, literal]
  | arrayOf {level token element tokens} : (∀ bound ∈ limit, level ≤ bound) →
      token.keyword? = some .arrayOf → Derives limit known (level + 1) (.value element) tokens →
      Derives limit known level (.value (.expr (.arrayOf element token))) (token :: tokens)
  | pair {level key colon value tokens} : key.kind = .string → colon.kind = .colon →
      Derives limit known level (.value value) tokens →
      Derives limit known level (.pairs [(key.value, value)]) (key :: colon :: tokens)
  | more {level key colon value tokens comma entries rest} : key.kind = .string →
      colon.kind = .colon → Derives limit known level (.value value) tokens →
      comma.kind = .comma → Derives limit known level (.pairs entries) rest →
      Derives limit known level (.pairs ((key.value, value) :: entries))
        (key :: colon :: (tokens ++ comma :: rest))

/-- The value of a top-level expression stands at level one and is no bare string. -/
inductive DerivesTop (limit : Option Nat) (known : List String) :
    Expr Token → List Token → Prop
  | definition {token name value tokens} : token.keyword? = some .define →
      name.kind = .identifier → Derives limit known 1 (.value (.expr value)) tokens →
      DerivesTop limit known (.definition name.value value token) (token :: name :: tokens)
  | route {token path value tokens} : token.keyword? = some .route →
      path.kind = .string → Derives limit known 1 (.value (.expr value)) tokens →
      DerivesTop limit known (.route path.value value token) (token :: path :: tokens)
  | response {token path code status value tokens} : token.keyword? = some .response →
      path.kind = .string → code.kind = .identifier → IsStatus code.value status →
      Derives limit known 1 (.value (.expr value)) tokens →
      DerivesTop limit known (.response path.value status value token)
        (token :: path :: code :: tokens)

/-- A name is known only behind its whole definition. -/
inductive DerivesProgram (limit : Option Nat) :
    List String → List (Expr Token) → List Token → Prop
  | nil {known} : DerivesProgram limit known [] []
  | cons {known expr tokens program rest} : DerivesTop limit known expr tokens →
      DerivesProgram limit (known ++ expr.defined) program rest →
      DerivesProgram limit known (expr :: program) (tokens ++ rest)

theorem Scope.mem_names_insert {scope : Scope} {added name : String} :
    name ∈ (scope.insert added).names ↔ name ∈ scope.names ∨ name = added := by
  rw [names_insert]
  split
  next present =>
    rw [contains_iff] at present
    constructor
    · exact .inl
    · rintro (before | rfl)
      · exact before
      · exact present
  next => simp

theorem Scope.mem_names_insertAll {scope : Scope} {names : List String} {name : String} :
    name ∈ (scope.insertAll names).names ↔ name ∈ scope.names ∨ name ∈ names := by
  induction names generalizing scope with
  | nil => simp [insertAll]
  | cons first names ih =>
      rw [insertAll, List.foldl_cons, ← insertAll, ih, mem_names_insert, List.mem_cons, or_assoc]

section

variable {limit : Option Nat} {known wider : List String} {tokens : List Token}

theorem Derives.mono {level : Nat} {phrase : Phrase} (subset : known ⊆ wider)
    (derives : Derives limit known level phrase tokens) :
    Derives limit wider level phrase tokens := by
  induction derives with
  | string within string => exact .string within string
  | name within identifier member => exact .name within identifier (subset member)
  | format within opens _ closes ih => exact .format within opens ih closes
  | url within keyword string => exact .url within keyword string
  | arrayOf within keyword _ ih => exact .arrayOf within keyword ih
  | pair string colon _ ih => exact .pair string colon ih
  | more string colon _ comma _ ihValue ihRest => exact .more string colon ihValue comma ihRest

theorem DerivesTop.mono {expr : Expr Token} (subset : known ⊆ wider)
    (derives : DerivesTop limit known expr tokens) : DerivesTop limit wider expr tokens := by
  cases derives with
  | definition keyword identifier value => exact .definition keyword identifier (value.mono subset)
  | route keyword string value => exact .route keyword string (value.mono subset)
  | response keyword string identifier status value =>
      exact .response keyword string identifier status (value.mono subset)

theorem Derives.length_pos {level : Nat} {phrase : Phrase}
    (derives : Derives limit known level phrase tokens) : 0 < tokens.length := by
  cases derives <;> simp

theorem DerivesTop.length_ge {expr : Expr Token} (derives : DerivesTop limit known expr tokens) :
    3 ≤ tokens.length := by
  cases derives with
  | definition _ _ value | route _ _ value | response _ _ _ _ value =>
      have positive := value.length_pos
      simp only [List.length_cons]
      omega

end

end AeSchema
