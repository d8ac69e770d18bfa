import AeSchema.Proofs.Source.Behind
import AeSchema.Proofs.Token.Spans

/-! Texts put together: the tokens of the whole are those of its parts, unless a word at the end of
the first part goes on in the second one. -/

namespace AeSchema

open Source Text

/-- The first text ends in the middle of a word that the second one continues. -/
def Glued (first : List Char) (tokens : List Token) (second : List Char) : Prop :=
  (∃ token ∈ tokens.getLast?, token.kind.OfWord ∧ token.span.stop = byteSize first) ∧
    ∃ c ∈ second.head?, ¬Boundary c

theorem TokenKind.Stops.append {kind : TokenKind} {rest second : List Char}
    (stops : kind.Stops rest) (last : rest = [] → kind.Stops second) :
    kind.Stops (rest ++ second) := by
  cases rest with
  | nil => exact last rfl
  | cons next rest => exact stops

namespace Scanned

variable {point : Point} {first second : List Char} {tokens others : List Token}
  {failure : Option ScanFailure}

theorem behind_blank {gap : List Char} (blank : Blank gap)
    (scanned : Scanned (point.after gap) second tokens failure) :
    Scanned point (gap ++ second) tokens failure := by
  have wider {more : List Char} (others : Blank more) : Blank (gap ++ more) :=
    List.forall_mem_append.mpr ⟨blank, others⟩
  generalize start : point.after gap = middle at scanned
  cases scanned with
  | done more => exact .done (wider more)
  | token more lexeme stops rest =>
      subst start
      rw [← Point.after_append point gap] at rest ⊢
      rw [← List.append_assoc]
      exact .token (wider more) lexeme stops rest
  | unclosed more spells ends =>
      subst start
      rw [← List.append_assoc, ← Point.after_append]
      exact .unclosed (wider more) spells ends
  | badEscape more spells unknown =>
      subst start
      rw [← List.append_assoc, ← Point.after_append, ← List.append_assoc]
      exact .badEscape (wider more) spells unknown

theorem eq_nil_of_text_nil (scanned : Scanned point [] tokens failure) :
    tokens = [] ∧ failure = none := by
  generalize nothing : ([] : List Char) = text at scanned
  cases scanned with
  | done => exact ⟨rfl, rfl⟩
  | token _ lexeme =>
      have nonempty := lexeme.nonempty
      simp_all
  | unclosed | badEscape => simp at nothing

theorem append (scanned : Scanned point first tokens none)
    (later : Scanned (point.after first) second others failure)
    (apart : ∀ token ∈ tokens.getLast?, token.span.stop = (point.after first).offset →
      token.kind.Stops second) :
    Scanned point (first ++ second) (tokens ++ others) failure := by
  generalize complete : none = fault at scanned
  induction scanned with
  | unclosed | badEscape => cases complete
  | done blank => exact later.behind_blank blank
  | @token point gap kind value spelled rest tokens fault blank lexeme stops scanned ih =>
      rw [Point.after_append, Point.after_append] at later apart
      rw [List.append_assoc, List.append_assoc, List.cons_append]
      refine .token blank lexeme (stops.append ?_) (ih later ?_ complete)
      · -- Nothing is left of the first text, so this token is the one at its end.
        rintro rfl
        obtain ⟨rfl, _⟩ := scanned.eq_nil_of_text_nil
        exact apart _ rfl rfl
      · intro token member
        apply apart token
        rw [List.getLast?_cons, member]
        rfl

theorem append_badEscape {fault : ScanFailure} {c : Char}
    (scanned : Scanned point first tokens (some fault)) (escape : fault.fault = .badEscape c)
    (second : List Char) : Scanned point (first ++ second) tokens (some fault) := by
  generalize broken : some fault = failure at scanned
  induction scanned with
  | done => cases broken
  | unclosed =>
      cases broken
      cases escape
  | badEscape blank spells unknown =>
      simp only [List.append_assoc, List.cons_append]
      exact .badEscape blank spells unknown
  | @token point gap kind value spelled rest tokens failure blank lexeme stops scanned ih =>
      rw [List.append_assoc, List.append_assoc]
      refine .token blank lexeme (stops.append ?_) (ih broken)
      rintro rfl
      have complete := scanned.eq_nil_of_text_nil.2
      rw [complete] at broken
      cases broken

theorem behind (scanned : Scanned point second tokens failure)
    (positive : 0 < point.location.line) (first : List Char) :
    Scanned (point.behind first) second (tokens.map (·.behind first))
      (failure.map (·.behind first)) := by
  induction scanned with
  | done blank => exact .done blank
  | @token point gap kind value spelled rest tokens failure blank lexeme stops _ ih =>
      have positiveGap : 0 < (point.after gap).location.line :=
        Location.after_line_pos positive gap
      have later := ih (Location.after_line_pos positiveGap spelled)
      rw [List.map_cons, ← Point.token_behind]
      rw [← Point.after_behind positiveGap, ← Point.after_behind positive] at later
      rw [← Point.after_behind positive]
      exact .token blank lexeme stops later
  | unclosed blank spells ends =>
      rw [Option.map_some, ScanFailure.behind, ← Point.char_behind, ← Point.after_behind positive]
      exact .unclosed blank spells ends
  | badEscape blank spells unknown =>
      rw [Option.map_some, ScanFailure.behind, ← Point.char_behind, ← Point.after_behind positive]
      exact .badEscape blank spells unknown

end Scanned

theorem tokenize_eq_error_iff_scanned {text : String} {failure : ScanFailure} :
    tokenize text = .error failure ↔
      ∃ tokens, Scanned .start text.toList tokens (some failure) := by
  simp only [← scan_eq_iff, tokenize]
  rcases scan text with ⟨found, _ | fault⟩ <;> simp

/-- Tokens and the fault of a text are those of its second part moved behind the first one, after
the tokens of the first one. An escape that is none is reported whatever follows. -/
theorem tokenize_append :
    (∀ (first second : String) (tokens : List Token), tokenize first = .ok tokens →
      ¬Glued first.toList tokens second.toList →
      (∀ others, tokenize second = .ok others →
        tokenize (first ++ second) = .ok (tokens ++ others.map (·.behind first.toList))) ∧
      ∀ failure, tokenize second = .error failure →
        tokenize (first ++ second) = .error (failure.behind first.toList)) ∧
    ∀ (first : String) (failure : ScanFailure) (c : Char), tokenize first = .error failure →
      failure.fault = .badEscape c → ∀ second, tokenize (first ++ second) = .error failure := by
  constructor
  · intro first second tokens done unglued
    have scanned := tokenize_eq_ok_iff_scanned.mp done
    have apart : ∀ token ∈ tokens.getLast?,
        token.span.stop = (Point.start.after first.toList).offset →
          token.kind.Stops second.toList := by
      intro token last ends word c member
      by_contra inside
      exact unglued ⟨⟨token, last, word, by simpa using ends⟩, c, member, inside⟩
    have joined {others failure} (later : Scanned .start second.toList others failure) :
        Scanned .start (first ++ second).toList (tokens ++ others.map (·.behind first.toList))
          (failure.map (·.behind first.toList)) := by
      have moved := later.behind Nat.one_pos first.toList
      rw [Point.start_behind] at moved
      rw [String.toList_append]
      exact scanned.append moved apart
    constructor
    · intro others doneLater
      exact tokenize_eq_ok_iff_scanned.mpr (joined (tokenize_eq_ok_iff_scanned.mp doneLater))
    · intro failure failed
      obtain ⟨others, later⟩ := tokenize_eq_error_iff_scanned.mp failed
      exact tokenize_eq_error_iff_scanned.mpr ⟨_, joined later⟩
  · intro first failure c failed escape second
    obtain ⟨tokens, scanned⟩ := tokenize_eq_error_iff_scanned.mp failed
    rw [tokenize_eq_error_iff_scanned, String.toList_append]
    exact ⟨tokens, scanned.append_badEscape escape second.toList⟩

/-- A word that ends at a brace of the next text, whose own lines and bytes move; and a defect in
the second line of a text, alone and behind another one. -/
theorem tokenize_append_sample :
    let moved : List Token :=
      [⟨"\x7b", .curlyOpen, ⟨2, 2⟩, ⟨4, 5⟩⟩, ⟨"k", .identifier, ⟨3, 1⟩, ⟨6, 7⟩⟩]
    let failure : ScanFailure := ⟨.badEscape 'q', ⟨'q', ⟨2, 3⟩, 4⟩⟩
    tokenize ("é\nx" ++ "\x7b\nk") = .ok (⟨"é", .identifier, ⟨1, 1⟩, ⟨0, 2⟩⟩ ::
        ⟨"x", .identifier, ⟨2, 1⟩, ⟨3, 4⟩⟩ :: moved) ∧
      tokenize ("é\nx" ++ " \n\"\\q") = .error ⟨.badEscape 'q', ⟨'q', ⟨3, 3⟩, 8⟩⟩ ∧
      tokenize (" \n\"\\q" ++ "\"") = .error failure := by
  intro moved failure
  have first : tokenize "é\nx" =
      .ok [⟨"é", .identifier, ⟨1, 1⟩, ⟨0, 2⟩⟩, ⟨"x", .identifier, ⟨2, 1⟩, ⟨3, 4⟩⟩] := by
    decide +kernel
  have second : tokenize "\x7b\nk" =
      .ok [⟨"\x7b", .curlyOpen, ⟨1, 1⟩, ⟨0, 1⟩⟩, ⟨"k", .identifier, ⟨2, 1⟩, ⟨2, 3⟩⟩] := by
    decide +kernel
  have broken : tokenize " \n\"\\q" = .error failure := by decide +kernel
  have unglued {later : String} {c : Char} (begins : later.toList.head? = some c)
      (boundary : Boundary c) (tokens) : ¬Glued "é\nx".toList tokens later.toList := by
    rintro ⟨_, _, member, inside⟩
    rw [begins, Option.mem_some_iff] at member
    exact inside (member ▸ boundary)
  refine ⟨?_, ?_, tokenize_append.2 _ failure 'q' broken rfl _⟩
  · exact (tokenize_append.1 _ _ _ first (unglued rfl (by decide) _)).1 _ second
  · exact (tokenize_append.1 _ _ _ first (unglued rfl (by decide) _)).2 _ broken

end AeSchema
