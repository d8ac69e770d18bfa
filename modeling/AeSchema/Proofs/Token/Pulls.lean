import AeSchema.Proofs.Token.Defects

/-! Tokens taken one at a time: as many calls as one likes give the tokens of the text in order,
then the failure, if there is one, and nothing from there on. -/

namespace AeSchema

open Source Text

namespace Scanned

variable {point : Point} {text : List Char} {tokens : List Token} {failure : Option ScanFailure}

theorem length_le (scanned : Scanned point text tokens failure) :
    tokens.length + failure.toList.length ≤ text.length := by
  induction scanned with
  | done => simp
  | unclosed | badEscape =>
      simp only [List.length_append, List.length_cons, List.length_nil, Option.toList_some]
      omega
  | token _ lexeme _ _ ih =>
      have positive := List.length_pos_iff.mpr lexeme.nonempty
      simp only [List.length_append, List.length_cons]
      omega

theorem stop_le (scanned : Scanned point text tokens failure) {token : Token}
    (member : token ∈ tokens) : token.span.stop ≤ point.offset + byteSize text := by
  obtain ⟨front, spelled, rest, rfl, placed, _⟩ := scanned.exists_of_mem member
  rw [placed]
  simp only [Point.token, Point.span, Point.after_offset, byteSize_append]
  omega

end Scanned

namespace Scanner

variable {scanner after : Scanner} {result : Option (Except ScanFailure Token)}

theorem steps_succ (step : scanner.next? = (result, after)) (count : Nat) :
    scanner.steps (count + 1) = result :: after.steps count := by
  rw [steps, step]

theorem steps_of_done (done : scanner.done = true) (count : Nat) :
    scanner.steps count = List.replicate count none := by
  induction count with
  | zero => rfl
  | succ count ih =>
      have step : scanner.next? = (none, scanner) := by rw [next?, if_pos done]
      rw [steps_succ step, ih, List.replicate_succ]

theorem map_range_cons {α : Type} (item : α) (items : List α) (count : Nat) :
    (List.range (count + 1)).map (fun call => (item :: items)[call]?) =
      some item :: (List.range count).map fun call => items[call]? := by
  rw [List.range_succ_eq_map, List.map_cons, List.map_map]
  rfl

theorem map_range_nil {α : Type} (count : Nat) :
    (List.range count).map (fun call => ([] : List α)[call]?) = List.replicate count none := by
  simp

theorem steps_of_failed {failure : ScanFailure}
    (step : scanner.next? = (some (.error failure), after)) (done : after.done = true)
    (count : Nat) :
    scanner.steps count =
      (List.range count).map fun call => [(.error failure : Except ScanFailure Token)][call]? := by
  cases count with
  | zero => rfl
  | succ count => rw [steps_succ step, steps_of_done done, map_range_cons, map_range_nil]

theorem steps_scanned {point : Point} {text : List Char} {tokens : List Token}
    {failure : Option ScanFailure} (scanned : Scanned point text tokens failure)
    (faces : scanner.Faces (point.chars text)) (count : Nat) :
    scanner.steps count =
      (List.range count).map fun call =>
        (tokens.map Except.ok ++ failure.toList.map Except.error)[call]? := by
  induction scanned generalizing scanner count with
  | done blank =>
      cases count with
      | zero => rfl
      | succ count =>
          rw [steps_succ (next?_blank faces blank), steps_of_done rfl]
          exact (map_range_nil (count + 1)).symm
  | token blank lexeme stops _ ih =>
      cases count with
      | zero => rfl
      | succ count =>
          obtain ⟨after, step, later⟩ := next?_lexeme faces blank lexeme stops
          rw [steps_succ step, ih later, List.map_cons, List.cons_append, map_range_cons]
  | unclosed blank spells ends =>
      exact steps_of_failed (next?_unclosed faces blank spells ends) rfl count
  | badEscape blank spells unknown =>
      exact steps_of_failed (next?_badEscape faces blank spells unknown) rfl count

/-- A call gives a token of the text, in order, as long as there are tokens; if the text has none,
the calls give those in front of the literal that breaks off, then its failure. All later calls give
nothing, though characters may be left. A call that gives something has read characters. -/
theorem steps_tokenize (text : String) :
    (∀ tokens, tokenize text = .ok tokens → tokens.length ≤ text.length ∧
      ∀ count, (ofText text).steps count =
        (List.range count).map fun call => (tokens.map Except.ok)[call]?) ∧
    (∀ failure, tokenize text = .error failure → ∃ tokens front body rest,
      BreaksOff text.toList front body rest failure ∧
      tokenize (String.ofList front) = .ok tokens ∧
      (∀ token ∈ tokens, token.span.stop ≤ byteSize front) ∧ tokens.length < text.length ∧
      ∀ count, (ofText text).steps count =
        (List.range count).map fun call => (tokens.map Except.ok ++ [.error failure])[call]?) ∧
    ∀ scanner result after, next? scanner = (some result, after) →
      ∃ read, read ≠ [] ∧ scanner.unread = read ++ after.unread := by
  refine ⟨?_, ?_, fun scanner result after step => next?_reads step⟩
  · intro tokens done
    have scanned := tokenize_eq_ok_iff_scanned.mp done
    have fits := scanned.length_le
    rw [String.length_toList] at fits
    refine ⟨by simpa using fits, fun count => ?_⟩
    simpa using steps_scanned scanned (faces_ofText text) count
  · intro failure failed
    obtain ⟨tokens, scanned⟩ := tokenize_eq_error_iff_scanned.mp failed
    obtain ⟨front, body, rest, breaks, opens⟩ := scanned.exists_breaksOff
    have fits := scanned.length_le
    rw [String.length_toList] at fits
    refine ⟨tokens, front, body, rest, breaks, opens, ?_, fits, ?_⟩
    · intro token member
      have before := tokenize_eq_ok_iff_scanned.mp opens
      rw [String.toList_ofList] at before
      simpa using before.stop_le member
    · exact steps_scanned scanned (faces_ofText text)

/-- Two calls for two tokens and two that give nothing; and behind a colon, which is pending after
the first call, a literal that breaks off: then the calls give nothing, though three characters are
left. -/
theorem steps_tokenize_sample :
    let word : Token := ⟨"a", .identifier, ⟨1, 1⟩, ⟨0, 1⟩⟩
    let colon : Token := ⟨":", .colon, ⟨1, 2⟩, ⟨1, 2⟩⟩
    let failure : ScanFailure := ⟨.badEscape 'x', ⟨'x', ⟨1, 5⟩, 4⟩⟩
    let broken := ofText "a:\"\\x\" b"
    let failed := broken.next?.2.next?.2.next?.2
    tokenize "a:" = .ok [word, colon] ∧
      (ofText "a:").steps 4 = [some (.ok word), some (.ok colon), none, none] ∧
      tokenize "a:\"\\x\" b" = .error failure ∧
      (∃ tokens front, tokenize (String.ofList front) = .ok tokens ∧
        broken.steps 5 =
          (List.range 5).map fun call => (tokens.map Except.ok ++ [.error failure])[call]?) ∧
      broken.steps 5 = [some (.ok word), some (.ok colon), some (.error failure), none, none] ∧
      broken.next?.2.pending?.map (·.char) = some ':' ∧
      failed.unread.map (·.char) = ['"', ' ', 'b'] ∧
      ∃ read, read ≠ [] ∧ broken.unread = read ++ broken.next?.2.unread := by
  intro word colon failure broken failed
  have done : tokenize "a:" = .ok [word, colon] := by decide +kernel
  have fails : tokenize "a:\"\\x\" b" = .error failure := by decide +kernel
  have first : broken.next? = (some (.ok word), broken.next?.2) :=
    Prod.ext (by decide +kernel) rfl
  obtain ⟨tokens, front, _, _, _, opens, _, _, steps⟩ := (steps_tokenize _).2.1 failure fails
  refine ⟨done, ((steps_tokenize "a:").1 _ done).2 4, fails, ⟨tokens, front, opens, steps 5⟩,
    ?_, ?_, ?_, (steps_tokenize "a:").2.2 _ _ _ first⟩
  all_goals decide +kernel

end Scanner

end AeSchema
