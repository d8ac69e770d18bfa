import AeSchema.Command.Run
import AeSchema.Proofs.Text.Json
import AeSchema.Proofs.Text.Lines
import AeSchema.Proofs.Token.Spans

/-! Listings of tokens: a line for each token, from which all of it but its bytes can be read
off. -/

namespace AeSchema

open Source Text

structure ListingEntry where
  location : Location
  kind : TokenKind
  value : String
  deriving DecidableEq

def Token.entry (token : Token) : ListingEntry :=
  ⟨token.location, token.kind, token.value⟩

theorem TokenKind.label_injective : Function.Injective label := by
  intro first second same
  cases first <;> cases second <;> first | rfl | exact absurd same (by decide)

theorem TokenKind.space_not_mem_label (kind : TokenKind) : ' ' ∉ kind.label.toList := by
  cases kind <;> decide

namespace Token

variable {first second token : Token}

theorem toList_listing (token : Token) :
    token.listing.toList = Nat.toDigits 10 token.location.line ++
      ':' :: (Nat.toDigits 10 token.location.col ++
        ' ' :: (token.kind.label.toList ++ ' ' :: token.display.toList)) := by
  simp [listing, Location.display]

theorem value_eq_of_display_eq (kinds : first.kind = second.kind)
    (same : first.display = second.display) : first.value = second.value := by
  unfold display at same
  rw [kinds] at same
  split at same
  · exact quoted_injective same
  · exact same

theorem entry_eq_of_listing_eq (same : first.listing = second.listing) :
    first.entry = second.entry := by
  have chars := congrArg String.toList same
  rw [toList_listing, toList_listing] at chars
  -- Colon and spaces cannot be part of what they end.
  obtain ⟨lines, afterLine⟩ :=
    Json.digits_append_inj (Json.ends_cons rfl _) (Json.ends_cons rfl _) chars
  obtain ⟨columns, afterColumn⟩ := Json.digits_append_inj (Json.ends_cons rfl _)
    (Json.ends_cons rfl _) (List.cons.inj afterLine).2
  obtain ⟨labels, displays⟩ := splits_unique_at first.kind.space_not_mem_label
    second.kind.space_not_mem_label (List.cons.inj afterColumn).2
  have places : first.location = second.location :=
    (Location.mk.injEq _ _ _ _).mpr ⟨lines, columns⟩
  have kinds := TokenKind.label_injective (String.toList_injective labels)
  have values := value_eq_of_display_eq kinds (String.toList_injective displays)
  rw [entry, places, kinds, values, entry]

theorem listing_eq_iff : first.listing = second.listing ↔ first.entry = second.entry := by
  constructor
  · exact entry_eq_of_listing_eq
  · intro same
    obtain ⟨places, kinds, values⟩ := ListingEntry.mk.inj same
    rw [listing, listing, display, display, places, kinds, values]

theorem map_listing_eq_iff {tokens others : List Token} :
    tokens.map (·.listing.toList) = others.map (·.listing.toList) ↔
      tokens.map entry = others.map entry := by
  induction tokens generalizing others with
  | nil => simp only [List.map_nil, List.nil_eq, List.map_eq_nil_iff]
  | cons token tokens ih =>
      cases others with
      | nil => simp only [List.map_cons, List.map_nil, reduceCtorEq]
      | cons other others =>
          simp only [List.map_cons, List.cons.injEq, String.toList_inj, listing_eq_iff, ih]

theorem display_cases (admits : token.kind.Admits token.value) :
    token.display = quoted token.value ∨
      token.display.toList ≠ [] ∧ ∀ c ∈ token.display.toList, isBlank c = false := by
  obtain ⟨value, kind, place, span⟩ := token
  cases kind with
  | string => exact .inl rfl
  | keyword | identifier => exact .inr ⟨admits.1.nonempty, admits.1.visible⟩
  | curlyOpen | curlyClose | colon | comma =>
      change value.toList = [_] at admits
      refine .inr ⟨by simp [display, admits], ?_⟩
      intro c member
      simp only [display, admits, List.mem_singleton] at member
      subst member
      decide

theorem lineFeed_not_mem_listing (admits : token.kind.Admits token.value) :
    '\n' ∉ token.listing.toList := by
  have digits : ∀ number, '\n' ∉ Nat.toDigits 10 number := Json.not_mem_digits rfl
  have label : '\n' ∉ token.kind.label.toList := by
    cases token.kind <;> decide
  have display : '\n' ∉ token.display.toList := by
    rcases display_cases admits with quoted | ⟨_, visible⟩
    · rw [quoted]
      exact lineFeed_not_mem_quoted token.value
    · intro member
      exact absurd (visible '\n' member) (by decide)
  simp [toList_listing, digits, label, display]

theorem getLast?_listing (admits : token.kind.Admits token.value) :
    token.listing.toList.getLast? ≠ some '\r' := by
  have ends : token.display.toList ≠ [] ∧ token.display.toList.getLast? ≠ some '\r' := by
    rcases display_cases admits with shown | ⟨nonempty, visible⟩
    · rw [shown, quoted, quotedBy, String.toList_ofList, ← List.cons_append, List.getLast?_concat]
      simp
    · refine ⟨nonempty, ?_⟩
      intro last
      exact absurd (visible '\r' (List.mem_of_getLast? last)) (by decide)
  rw [listing, String.toList_append, List.getLast?_append_of_ne_nil _ ends.1]
  exact ends.2

end Token

namespace Command

theorem toList_listing (tokens : List Token) :
    (listing tokens).toList = (tokens.map (·.listing.toList)).flatMap (· ++ ['\n']) := by
  simp [listing, String.toList_join, List.flatMap_map]

theorem lines_listing {text : String} {tokens : List Token} (done : tokenize text = .ok tokens) :
    lines (listing tokens).toList = tokens.map (·.listing.toList) := by
  have admits : ∀ token ∈ tokens, token.kind.Admits token.value := by
    intro token member
    obtain ⟨_, _, _, _, _, lexeme, _⟩ :=
      (tokenize_eq_ok_iff_scanned.mp done).exists_of_mem member
    exact lexeme.admits
  rw [toList_listing]
  apply lines_flatMap
  · intro line member
    obtain ⟨token, listed, rfl⟩ := List.mem_map.mp member
    exact token.lineFeed_not_mem_listing (admits token listed)
  · intro line member
    obtain ⟨token, listed, rfl⟩ := List.mem_map.mp member
    exact token.getLast?_listing (admits token listed)

/-- A listing has one line for each token, and all of the token can be read off its line: its place,
its kind and its value. Two texts have the same listing just when their tokens differ in nothing
else, and a line of one reads as a line of the other just when the two tokens do. -/
theorem listing_unambiguous {text : String} {tokens : List Token}
    (done : tokenize text = .ok tokens) :
    lines (listing tokens).toList = tokens.map (·.listing.toList) ∧
    ∀ other others, tokenize other = .ok others →
      (listing tokens = listing others ↔ tokens.map Token.entry = others.map Token.entry) ∧
      ∀ token ∈ tokens, ∀ twin ∈ others,
        token.listing = twin.listing ↔ token.entry = twin.entry := by
  refine ⟨lines_listing done, ?_⟩
  intro other others alsoDone
  refine ⟨?_, fun token _ twin _ => Token.listing_eq_iff⟩
  rw [← Token.map_listing_eq_iff]
  constructor
  · intro same
    rw [← lines_listing done, ← lines_listing alsoDone, same]
  · intro same
    apply String.toList_injective
    rw [toList_listing, toList_listing, same]

theorem listing_unambiguous_sample :
    let tokens : List Token :=
      [⟨"a\"", .identifier, ⟨1, 1⟩, ⟨0, 2⟩⟩, ⟨"\n\"", .string, ⟨1, 4⟩, ⟨3, 9⟩⟩]
    let others : List Token :=
      [⟨"a\"", .identifier, ⟨1, 1⟩, ⟨0, 2⟩⟩, ⟨"\n\"", .string, ⟨1, 4⟩, ⟨3, 8⟩⟩]
    tokenize "a\" \"\\n\\\"\"" = .ok tokens ∧ tokenize "a\"\t\"\n\\\"\" " = .ok others ∧
      listing tokens = "1:1 IDENTIFIER a\"\n1:4 STRING \"\\n\\\"\"\n" ∧
      lines (listing tokens).toList = tokens.map (·.listing.toList) ∧
      tokens.map Token.entry = others.map Token.entry ∧ listing tokens = listing others := by
  intro tokens others
  have done : tokenize "a\" \"\\n\\\"\"" = .ok tokens := by decide +kernel
  have alsoDone : tokenize "a\"\t\"\n\\\"\" " = .ok others := by decide +kernel
  obtain ⟨shown, apart⟩ := listing_unambiguous done
  exact ⟨done, alsoDone, by decide +kernel, shown, rfl, (apart _ _ alsoDone).1.mpr rfl⟩

end Command

end AeSchema
