import AeSchema.Proofs.Source.Behind
import AeSchema.Proofs.Token.Spans

/-! Lines and columns of tokens. They are counted in the text in front of the token, so they grow
from token to token. -/

namespace AeSchema

open Source

namespace Source

def Location.Before (first second : Location) : Prop :=
  first.line < second.line ∨ first.line = second.line ∧ first.col < second.col

namespace Location

theorem Before.trans {first second third : Location} (early : first.Before second)
    (late : second.Before third) : first.Before third := by
  unfold Before at *
  omega

theorem Before.ne {first second : Location} (before : first.Before second) : first ≠ second := by
  rintro rfl
  unfold Before at before
  omega

theorem before_next (place : Location) (c : Char) : place.Before (place.next c) := by
  unfold Before next
  by_cases feed : c = '\n'
  · rw [if_pos feed]
    exact .inl (Nat.lt_succ_self place.line)
  · rw [if_neg feed]
    exact .inr ⟨rfl, Nat.lt_succ_self place.col⟩

theorem before_after (place : Location) {text : List Char} (nonempty : text ≠ []) :
    place.Before (place.after text) := by
  induction text generalizing place with
  | nil => exact absurd rfl nonempty
  | cons c rest ih =>
      have first := place.before_next c
      by_cases last : rest = []
      · subst last
        exact first
      · exact first.trans (ih (place.next c) last)

end Location

theorem exists_append_of_byteSize_lt {first second back rest : List Char}
    (same : first ++ back = second ++ rest) (less : byteSize first < byteSize second) :
    ∃ more, more ≠ [] ∧ second = first ++ more := by
  rcases List.append_eq_append_iff.mp same with ⟨more, longer, _⟩ | ⟨more, shorter, _⟩
  · refine ⟨more, ?_, longer⟩
    rintro rfl
    rw [longer, List.append_nil] at less
    omega
  · rw [shorter, byteSize_append] at less
    omega

end Source

namespace Scanned

variable {text : List Char} {tokens : List Token} {failure : Option ScanFailure}

theorem location_of_mem (scanned : Scanned .start text tokens failure) {token : Token}
    (member : token ∈ tokens) :
    ∃ front back, text = front ++ back ∧ byteSize front = token.span.start ∧
      token.location = Location.start.after front := by
  obtain ⟨front, spelled, rest, split, placed, _⟩ := scanned.exists_of_mem member
  refine ⟨front, spelled ++ rest, split, ?_, ?_⟩
  · rw [placed]
    simp [Point.token, Point.span]
  · rw [placed]
    rfl

theorem pairwise_locations (scanned : Scanned .start text tokens failure) :
    tokens.Pairwise fun first second => first.location.Before second.location := by
  refine scanned.pairwise_spans.imp_of_mem ?_
  intro first second member later ordered
  obtain ⟨front, back, split, start, place⟩ := scanned.location_of_mem member
  obtain ⟨other, rest, otherSplit, otherStart, otherPlace⟩ := scanned.location_of_mem later
  have nonempty := (scanned.span_of_mem member).2
  have less : byteSize front < byteSize other := by omega
  obtain ⟨more, some, rfl⟩ := exists_append_of_byteSize_lt (split.symm.trans otherSplit) less
  rw [place, otherPlace, Location.after_append]
  exact Location.before_after _ some

end Scanned

/-- Line and column of a token count the line feeds in front of its first byte and the characters
behind the last of them. No two tokens share a place, and later ones stand at later places. -/
theorem tokenize_locations {text : String} {tokens : List Token}
    (done : tokenize text = .ok tokens) :
    (∀ token ∈ tokens, ∃ front back, text.toList = front ++ back ∧
      byteSize front = token.span.start ∧
      token.location = ⟨1 + front.count '\n', 1 + (lastLine front).length⟩) ∧
    (tokens.Pairwise fun first second => first.location.Before second.location) ∧
    (tokens.map (·.location)).Nodup := by
  have scanned := tokenize_eq_ok_iff_scanned.mp done
  refine ⟨?_, scanned.pairwise_locations, ?_⟩
  · intro token member
    obtain ⟨front, back, split, start, place⟩ := scanned.location_of_mem member
    rw [Location.start_after] at place
    exact ⟨front, back, split, start, place⟩
  · rw [List.nodup_iff_pairwise_ne, List.pairwise_map]
    exact scanned.pairwise_locations.imp Location.Before.ne

theorem tokenize_locations_sample :
    let tokens : List Token :=
      [⟨"é", .identifier, ⟨1, 2⟩, ⟨1, 3⟩⟩, ⟨"ü\n", .string, ⟨1, 4⟩, ⟨4, 9⟩⟩,
        ⟨"\x7b", .curlyOpen, ⟨2, 2⟩, ⟨9, 10⟩⟩, ⟨"k", .identifier, ⟨3, 1⟩, ⟨11, 12⟩⟩]
    let text := " é \"ü\n\"\x7b\nk"
    tokenize text = .ok tokens ∧
      (∀ token ∈ tokens, ∃ front back, text.toList = front ++ back ∧
        byteSize front = token.span.start ∧
        token.location = ⟨1 + front.count '\n', 1 + (lastLine front).length⟩) ∧
      (tokens.Pairwise fun first second => first.location.Before second.location) ∧
      (tokens.map (·.location)).Nodup := by
  intro tokens text
  have done : tokenize text = .ok tokens := by decide +kernel
  exact ⟨done, tokenize_locations done⟩

end AeSchema
