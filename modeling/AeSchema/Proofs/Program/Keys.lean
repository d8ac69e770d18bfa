import AeSchema.Proofs.Program.Completeness

/-! The keys of an object, read off the tokens behind its opening brace. -/

namespace AeSchema

/-- The strings in front of a colon, up to the brace that closes the object. Inside it, `depth`
other objects are open. -/
def objectKeys (depth : Nat) : List Token → List String
  | [] => []
  | token :: rest =>
      match token.kind with
      | .curlyOpen => objectKeys (depth + 1) rest
      | .curlyClose =>
          match depth with
          | 0 => []
          | depth + 1 => objectKeys depth rest
      | .string =>
          if depth = 0 ∧ rest.head?.map Token.kind = some .colon then
            token.value :: objectKeys depth rest
          else objectKeys depth rest
      | _ => objectKeys depth rest

def KeysDistinct : List Token → Prop
  | [] => True
  | token :: rest => (token.kind = .curlyOpen → (objectKeys 0 rest).Nodup) ∧ KeysDistinct rest

instance decidableKeysDistinct : (tokens : List Token) → Decidable (KeysDistinct tokens)
  | [] => .isTrue trivial
  | _ :: rest =>
      haveI := decidableKeysDistinct rest
      inferInstanceAs (Decidable ((_ → _) ∧ _))

theorem KeysDistinct.behind {front back : List Token} (distinct : KeysDistinct (front ++ back)) :
    KeysDistinct back := by
  induction front with
  | nil => exact distinct
  | cons token front ih => exact ih distinct.2

section Scan

variable {depth : Nat} {token : Token} {rest : List Token}

theorem objectKeys_opening (opens : token.kind = .curlyOpen) :
    objectKeys depth (token :: rest) = objectKeys (depth + 1) rest := by
  simp only [objectKeys, opens]

theorem objectKeys_closing_zero (closes : token.kind = .curlyClose) :
    objectKeys 0 (token :: rest) = [] := by
  simp only [objectKeys, closes]

theorem objectKeys_closing_succ (closes : token.kind = .curlyClose) :
    objectKeys (depth + 1) (token :: rest) = objectKeys depth rest := by
  simp only [objectKeys, closes]

theorem objectKeys_skip (noBrace : token.kind ≠ .curlyOpen ∧ token.kind ≠ .curlyClose)
    (noKey : token.kind = .string → ∀ next ∈ rest.head?, next.kind ≠ .colon) :
    objectKeys depth (token :: rest) = objectKeys depth rest := by
  cases kind : token.kind
  all_goals simp only [kind, objectKeys]
  case curlyOpen => exact absurd kind noBrace.1
  case curlyClose => exact absurd kind noBrace.2
  case string =>
    rw [if_neg]
    rintro ⟨_, colon⟩
    obtain ⟨next, first, same⟩ := Option.map_eq_some_iff.mp colon
    exact noKey kind next first same

theorem objectKeys_key {key colon : Token} (string : key.kind = .string)
    (isColon : colon.kind = .colon) :
    objectKeys depth (key :: colon :: rest) =
      (if depth = 0 then [key.value] else []) ++ objectKeys depth rest := by
  simp only [objectKeys, string, isColon, List.head?_cons, Option.map_some, and_true]
  split <;> rfl

end Scan

def Phrase.keys : Phrase → List String
  | .value _ => []
  | .pairs entries => entries.map (·.1)

theorem Derives.objectKeys_append {limit : Option Nat} {known : List String} {level : Nat}
    {phrase : Phrase} {tokens rest : List Token}
    (derives : Derives limit known level phrase tokens)
    (noColon : ∀ next ∈ rest.head?, next.kind ≠ .colon) (depth : Nat) :
    objectKeys depth (tokens ++ rest) =
      (if depth = 0 then phrase.keys else []) ++ objectKeys depth rest := by
  induction derives generalizing rest depth with
  | string _ string =>
      rw [List.singleton_append, objectKeys_skip (by simp [string]) fun _ => noColon]
      simp [Phrase.keys]
  | name _ identifier =>
      rw [List.singleton_append, objectKeys_skip (by simp [identifier]) (by simp [identifier])]
      simp [Phrase.keys]
  | @format level opening closing entries tokens _ opens _ closes ih =>
      have closed : ∀ next ∈ (closing :: rest).head?, next.kind ≠ .colon := by simp [closes]
      rw [List.cons_append, List.append_assoc, List.singleton_append, objectKeys_opening opens,
        ih closed, objectKeys_closing_succ closes]
      simp [Phrase.keys]
  | url _ keyword string =>
      have word := Parse.keyword_of_keyword? keyword
      rw [List.cons_append, objectKeys_skip (by simp [word]) (by simp [word]),
        List.singleton_append, objectKeys_skip (by simp [string]) fun _ => noColon]
      simp [Phrase.keys]
  | arrayOf _ keyword _ ih =>
      have word := Parse.keyword_of_keyword? keyword
      rw [List.cons_append, objectKeys_skip (by simp [word]) (by simp [word]), ih noColon]
      simp [Phrase.keys]
  | @pair level key colon value tokens keyKind colonKind _ ih =>
      rw [List.cons_append, List.cons_append, objectKeys_key keyKind colonKind, ih noColon]
      simp [Phrase.keys]
  | @more level key colon value tokens comma entries later keyKind colonKind _ commaKind _ ihValue
      ihRest =>
      have separated : ∀ next ∈ (comma :: (later ++ rest)).head?, next.kind ≠ .colon := by
        simp [commaKind]
      simp only [List.cons_append, List.append_assoc]
      rw [objectKeys_key keyKind colonKind, ihValue separated,
        objectKeys_skip (by simp [commaKind]) (by simp [commaKind]), ihRest noColon]
      split <;> simp [Phrase.keys]

theorem KeysDistinct.nodup {limit : Option Nat} {known : List String} {level : Nat}
    {entries : List (String × Value Token)} {opening closing : Token} {tokens rest : List Token}
    (distinct : KeysDistinct (opening :: (tokens ++ closing :: rest)))
    (opens : opening.kind = .curlyOpen)
    (derives : Derives limit known level (.pairs entries) tokens)
    (closes : closing.kind = .curlyClose) : (entries.map (·.1)).Nodup := by
  have keys : (objectKeys 0 (tokens ++ closing :: rest)).Nodup := distinct.1 opens
  have noColon : ∀ next ∈ (closing :: rest).head?, next.kind ≠ .colon := by simp [closes]
  rw [derives.objectKeys_append noColon, objectKeys_closing_zero closes, List.append_nil] at keys
  exact keys

end AeSchema
