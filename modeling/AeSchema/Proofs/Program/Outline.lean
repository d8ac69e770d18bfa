import AeSchema.Proofs.Expr.Outline
import AeSchema.Proofs.Program.RoundTrip

/-! The outlines of programs that were read: a line for each part, and different lines for different
programs. -/

namespace AeSchema

open Text

variable {Origin : Type} {known : List String} {program : List (Expr Origin)}

section Names

variable {depth : Nat} {line : OutlineLine} {name : String}

mutual

theorem Expr.Nests.mem_of_outline {expr : Expr Origin} (nests : expr.Nests known) {depth : Nat}
    (member : line ∈ expr.outline depth) (named : name ∈ line.item.name?) : name ∈ known := by
  match expr with
  | .reference other _ =>
      obtain rfl := List.mem_singleton.mp member
      obtain rfl := Option.mem_some_iff.mp named
      exact nests
  | .format entries _ =>
      rcases List.mem_cons.mp member with rfl | inside
      · cases named
      · exact entries.mem_of_outline nests.2.2 inside named
  | .arrayOf element _ =>
      rcases List.mem_cons.mp member with rfl | inside
      · cases named
      · exact element.mem_of_outline nests inside named
  | .url literal _ =>
      obtain rfl := List.mem_singleton.mp member
      cases named

theorem Value.mem_of_outline (value : Value Origin) (nests : value.Nests known) {depth : Nat}
    (member : line ∈ value.outline depth) (named : name ∈ line.item.name?) : name ∈ known := by
  match value with
  | .expr inner => exact nests.mem_of_outline member named
  | .text content =>
      obtain rfl := List.mem_singleton.mp member
      cases named

theorem Format.mem_of_outline (format : Format Origin) (nests : format.Nests known) {depth : Nat}
    (member : line ∈ format.outline depth) (named : name ∈ line.item.name?) : name ∈ known := by
  match format with
  | .empty => cases member
  | .entry key value rest =>
      rw [Format.outline, List.mem_cons, List.mem_append] at member
      rcases member with rfl | inside | later
      · cases named
      · exact value.mem_of_outline nests.1 inside named
      · exact rest.mem_of_outline nests.2 later named

end

end Names

theorem Expr.Stands.isName_of_outline {expr : Expr Origin} (stands : expr.Stands known)
    (names : ∀ name ∈ known, IsName name) {line : OutlineLine} (member : line ∈ expr.outline 0) :
    ∀ name ∈ line.item.name?, IsName name := by
  intro name named
  match expr with
  | .definition own value _ =>
      rcases List.mem_cons.mp member with rfl | inside
      · obtain rfl := Option.mem_some_iff.mp named
        exact stands.1
      · exact names name (stands.2.nests.mem_of_outline inside named)
  | .route path value _ =>
      rcases List.mem_cons.mp member with rfl | inside
      · cases named
      · exact names name (stands.nests.mem_of_outline inside named)
  | .response path status value _ =>
      rcases List.mem_cons.mp member with rfl | inside
      · cases named
      · exact names name (stands.2.2.nests.mem_of_outline inside named)

theorem IsName.lineFeed_not_mem {name : String} (isName : IsName name) : '\n' ∉ name.toList := by
  intro member
  exact isName.1.unbroken '\n' member (.inl (by decide))

theorem WellFormed.unbroken (wellFormed : WellFormed known program)
    (names : ∀ name ∈ known, IsName name) : Unbroken (programOutline program) := by
  induction program generalizing known with
  | nil => simp [programOutline, Unbroken]
  | cons expr program ih =>
      obtain ⟨stands, later⟩ := wellFormed
      intro line member name named
      rcases List.mem_append.mp member with here | behind
      · exact (stands.isName_of_outline names here name named).lineFeed_not_mem
      · refine ih later ?_ line behind name named
        rw [List.forall_mem_append]
        exact ⟨names, fun name member => stands.isName_of_mem_defined member⟩

theorem unbroken_of_parseSource {source : SourceText} {program : List (Expr Token)}
    (parsed : parseSource source = .ok program) : Unbroken (programOutline program) :=
  (wellFormed_of_parseSource parsed).unbroken (by simp)

/-- A program that was read is shown with a line for each of its parts, and no program that differs
from it in more than its origins is shown by the same text. -/
theorem prettyAll_faithful :
    (∀ (source : SourceText) (program : List (Expr Token)), parseSource source = .ok program →
      Outlines (prettyAll program) (programParts program) ∧
        (programParts program).map Prod.snd = (programVisits program).flatMap Visit.parts) ∧
    ∀ (source other : SourceText) (first second : List (Expr Token)),
      parseSource source = .ok first → parseSource other = .ok second →
      prettyAll first = prettyAll second → first.map Expr.erase = second.map Expr.erase := by
  constructor
  · intro source program parsed
    exact ⟨outlines_prettyAll (unbroken_of_parseSource parsed), map_programParts program⟩
  · intro source other first second parsed parsedOther same
    exact prettyAll_inj (unbroken_of_parseSource parsed) (unbroken_of_parseSource parsedOther) same

/-- A bare string with spaces in front, two keys deep, then an array in a route; written on one line
and on several. -/
theorem prettyAll_faithful_sample :
    let source : SourceText :=
      ⟨"one", "def a \x7b \"k\" : \x7b \"x\" : \"  y\" \x7d \x7d route \"p\" ArrayOf a"⟩
    let other : SourceText :=
      ⟨"two", "def a\n\x7b\"k\":\x7b\"x\":\"  y\"\x7d\x7d\nroute \"p\"\n\tArrayOf a\n"⟩
    let text := "DEF a\n  FORMAT\n    \"k\":\n      FORMAT\n        \"x\":\n          \"  y\"\n" ++
      "ROUTE \"p\"\n  ARRAY_OF\n    LOAD_DEF a\n"
    ∃ first second, parseSource source = .ok first ∧ parseSource other = .ok second ∧
      prettyAll first = text ∧ Outlines text (programParts first) ∧
      first.map Expr.erase = second.map Expr.erase := by
  intro source other text
  have shown (source : SourceText)
      (listing : (parseSource source).toOption.map prettyAll = some text) :
      ∃ program, parseSource source = .ok program ∧ prettyAll program = text := by
    cases parsed : parseSource source with
    | error => simp [parsed, Except.toOption] at listing
    | ok program => exact ⟨program, rfl, by simpa [parsed, Except.toOption] using listing⟩
  obtain ⟨first, parsed, sameText⟩ := shown source (by decide +kernel)
  obtain ⟨second, parsedOther, otherText⟩ := shown other (by decide +kernel)
  have outlines := (prettyAll_faithful.1 source first parsed).1
  rw [sameText] at outlines
  have same := prettyAll_faithful.2 source other first second parsed parsedOther
    (sameText.trans otherText.symm)
  exact ⟨first, second, parsed, parsedOther, sameText, outlines, same⟩

end AeSchema
