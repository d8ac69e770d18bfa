import AeSchema.Diagnostic.Basic
import AeSchema.Proofs.Program.Concatenation
import AeSchema.Proofs.Program.RunsOut
import Mathlib.Data.Nat.Find

/-! Where failures are reported: at the first token that cannot stand where it does, whatever
follows; or at the last token, if more could have made a program. -/

namespace AeSchema

structure Diagnostic.PointsAt (diagnostic : Diagnostic) (token : Token) : Prop where
  location : diagnostic.location? = some token.location
  span : diagnostic.span? = some token.span
  text : diagnostic.text? = some token.value

variable {tokens : List Token} {failure : ParseFailure}

theorem Diagnostic.pointsAt_culprit {token : Token} (culprit : failure.culprit = some token) :
    (ofParseFailure failure).PointsAt token := by
  obtain ⟨fault, _⟩ := failure
  obtain rfl : _ = some token := culprit
  cases fault <;> exact ⟨rfl, rfl, rfl⟩

theorem parse_error_reads (failed : parse tokens = .error failure) :
    ∃ read token after, runParse (some nestingLimit) tokens = .error failure after ∧
      tokens = read ++ after.upcoming ∧ read.getLast? = some token ∧
      failure.culprit = some token := by
  obtain ⟨first, front, scope, after, ran, halts⟩ := parse_halts failed
  have consumed : after.consumed = (first :: front).reverse := by
    rw [halts.reads.consumed]
    exact List.append_nil _
  obtain ⟨token, last⟩ : ∃ token, (first :: front).getLast? = some token :=
    Option.isSome_iff_exists.mp (by simp)
  refine ⟨first :: front, token, after, ran, halts.reads.upcoming, last, ?_⟩
  rw [halts.culprit, consumed, List.head?_reverse, last]

theorem parse_error_stays (failed : parse tokens = .error failure)
    (present : failure.fault ≠ .endOfInput) :
    ∃ read token, read <+: tokens ∧ read.getLast? = some token ∧ failure.culprit = some token ∧
      ∀ more, parse (read ++ more) = .error failure := by
  obtain ⟨read, token, after, ran, split, last, culprit⟩ := parse_error_reads failed
  refine ⟨read, token, ⟨_, split.symm⟩, last, culprit, fun more => ?_⟩
  let change : Change := ⟨after.upcoming, more, []⟩
  have applies : change.Applies (.ofTokens tokens) (.ofTokens (read ++ more)) :=
    ⟨⟨read, split, rfl⟩, rfl, by simp [change, scope_ofTokens]⟩
  rw [parse_eq_error_iff]
  exact applies.tops_error_same rfl (Nat.le_refl _) (Nat.le_refl _) (Nat.le_refl _) ran
    (Nat.le_refl _) (Change.not_excuses (List.forall_mem_nil _) (.inr present))

theorem parse_error_first (failed : parse tokens = .error failure)
    (present : failure.fault ≠ .endOfInput) :
    ∃ index token, tokens[index]? = some token ∧ failure.culprit = some token ∧
      (∀ count ≤ index, ∀ other, parse (tokens.take count) = .error other →
        other.fault = .endOfInput) ∧
      ∀ more, parse (tokens.take (index + 1) ++ more) = .error failure := by
  classical
  let Fails (count : Nat) : Prop :=
    ∃ other, parse (tokens.take count) = .error other ∧ other.fault ≠ .endOfInput
  have fails : ∃ count, Fails count :=
    ⟨tokens.length, failure, by rwa [List.take_length], present⟩
  obtain ⟨other, otherFailed, otherPresent⟩ := Nat.find_spec fails
  obtain ⟨read, token, initial, last, culprit, stays⟩ := parse_error_stays otherFailed otherPresent
  have front : read = tokens.take read.length :=
    List.prefix_iff_eq_take.mp (initial.trans (List.take_prefix _ _))
  -- What is read fails on its own, so it is the shortest front that does.
  have shortest : ∀ count < read.length, ¬Fails count := by
    intro count less
    refine Nat.find_min fails (less.trans_le ?_)
    exact initial.length_le.trans (List.length_take_le _ _)
  obtain rfl : other = failure := by
    have whole := stays (tokens.drop read.length)
    rw [List.prefix_iff_eq_append.mp (front ▸ List.take_prefix _ _), failed] at whole
    exact (Except.error.inj whole).symm
  obtain ⟨index, length⟩ : ∃ index, read.length = index + 1 :=
    Nat.exists_eq_add_one.mpr (List.length_pos_iff.mpr (by rintro rfl; cases last))
  rw [length] at front shortest
  refine ⟨index, token, ?_, culprit, fun count bound other ran => ?_, ?_⟩
  · rw [← last, List.getLast?_eq_getElem?, length, front, Nat.add_sub_cancel,
      List.getElem?_take_of_lt (Nat.lt_succ_self index)]
  · by_contra fault
    exact shortest count (Nat.lt_succ_of_le bound) ⟨other, ran, fault⟩
  · rw [← front]
    exact stays

theorem parse_error_unfinished (failed : parse tokens = .error failure)
    (missing : failure.fault = .endOfInput) :
    ∃ token inner, tokens.getLast? = some token ∧ failure.culprit = some token ∧
      UnfinishedProgram (some nestingLimit) [] tokens inner := by
  obtain ⟨read, token, after, ran, split, last, culprit⟩ := parse_error_reads failed
  have surface : (ParseState.ofTokens tokens).depth = 0 := rfl
  obtain ⟨empty, inner, unfinished⟩ := Parse.runsOut_tops surface (Nat.le_refl _)
    (List.Subset.refl _) failure after ran missing
  rw [empty, List.append_nil] at split
  exact ⟨token, inner, split ▸ last, culprit, unfinished⟩

/-- A failure that is not for want of tokens is blamed on the first token that rules out every
program, and does not depend on what follows it. A failure for want of tokens is blamed on the last
one; more tokens can make a program, unless an array or object at the limit is still open. -/
theorem parse_error_earliest (failed : parse tokens = .error failure) :
    (∃ location, (Diagnostic.ofParseFailure failure).location? = some location) ∧
    (failure.fault ≠ .endOfInput → ∃ index token, tokens[index]? = some token ∧
      (Diagnostic.ofParseFailure failure).PointsAt token ∧
      (∀ count ≤ index, ∀ other, parse (tokens.take count) = .error other →
        other.fault = .endOfInput) ∧
      ∀ more, parse (tokens.take (index + 1) ++ more) = .error failure) ∧
    (failure.fault = .endOfInput → ∃ token, tokens.getLast? = some token ∧
      (Diagnostic.ofParseFailure failure).PointsAt token ∧
      ((∃ more program, parse (tokens ++ more) = .ok program) ∨
        UnfinishedProgram (some nestingLimit) [] tokens nestingLimit)) := by
  refine ⟨?_, fun present => ?_, fun missing => ?_⟩
  · obtain ⟨_, token, _, _, _, _, culprit⟩ := parse_error_reads failed
    exact ⟨token.location, (Diagnostic.pointsAt_culprit culprit).location⟩
  · obtain ⟨index, token, found, culprit, earlier, stays⟩ := parse_error_first failed present
    exact ⟨index, token, found, Diagnostic.pointsAt_culprit culprit, earlier, stays⟩
  · obtain ⟨token, inner, last, culprit, unfinished⟩ := parse_error_unfinished failed missing
    refine ⟨token, last, Diagnostic.pointsAt_culprit culprit, ?_⟩
    rcases Nat.lt_or_eq_of_le unfinished.level_le with room | rfl
    · obtain ⟨more, program, derives⟩ := unfinished.complete room
      exact .inl ⟨more, program, parseWithin_eq_ok_iff_derives.mpr derives⟩
    · exact .inr unfinished

theorem parse_error_earliest_sample :
    let token (kind : TokenKind) (value : String) (column : Nat) : Token :=
      ⟨value, kind, ⟨1, column⟩, ⟨column - 1, column - 1 + value.length⟩⟩
    let begun := [token .keyword "route" 1, token .string "p" 7]
    let closing := token .curlyClose "\x7d" 11
    let wrong := begun ++ [closing, token .keyword "Url" 13]
    let url := token .keyword "Url" 11
    let broken := begun ++ [url]
    let failure : ParseFailure := ⟨.noValue .curlyClose, some closing⟩
    let missing : ParseFailure := ⟨.endOfInput, some url⟩
    parse wrong = .error failure ∧
      (∃ index token, wrong[index]? = some token ∧
        (Diagnostic.ofParseFailure failure).PointsAt token ∧
        (∀ count ≤ index, ∀ other, parse (wrong.take count) = .error other →
          other.fault = .endOfInput) ∧
        ∀ more, parse (wrong.take (index + 1) ++ more) = .error failure) ∧
      parse broken = .error missing ∧
      (∃ token, broken.getLast? = some token ∧
        (Diagnostic.ofParseFailure missing).PointsAt token ∧
        ((∃ more program, parse (broken ++ more) = .ok program) ∨
          UnfinishedProgram (some nestingLimit) [] broken nestingLimit)) := by
  intro token begun closing wrong url broken failure missing
  have failed : parse wrong = .error failure := by decide +kernel
  have brokenOff : parse broken = .error missing := by decide +kernel
  exact ⟨failed, (parse_error_earliest failed).2.1 nofun, brokenOff,
    (parse_error_earliest brokenOff).2.2 rfl⟩

end AeSchema
