import AeSchema.Program.Read
import AeSchema.Proofs.Program.Completeness
import AeSchema.Proofs.Program.Print
import AeSchema.Proofs.Token.Spans

/-! Reading the text of a program gives the program back. -/

namespace AeSchema

variable {Origin : Type} {known : List String} {bound level : Nat} {token : Token}
  {tokens : List Token}

theorem Token.keyword?_of_lexeme {keyword : Keyword} (spelling : token.lexeme = .keyword keyword) :
    token.keyword? = some keyword := by
  have kind : token.kind = .keyword := congrArg Lexeme.kind spelling
  have value : token.value = keyword.text := congrArg Lexeme.value spelling
  rw [keyword?, kind, value]
  exact Keyword.ofText?_text keyword

theorem Token.string_of_lexeme {content : String} (spelling : token.lexeme = .string content) :
    token.kind = .string ∧ token.value = content :=
  ⟨congrArg Lexeme.kind spelling, congrArg Lexeme.value spelling⟩

theorem Token.identifier_of_lexeme {name : String} (spelling : token.lexeme = .identifier name) :
    token.kind = .identifier ∧ token.value = name :=
  ⟨congrArg Lexeme.kind spelling, congrArg Lexeme.value spelling⟩

mutual

theorem Expr.derives (expr : Expr Origin) {tokens : List Token} {level : Nat}
    (nests : expr.Nests known) (low : level + expr.height ≤ bound + 1)
    (spelling : tokens.map Token.lexeme = expr.lexemes) :
    ∃ read : Expr Token, read.erase = expr.erase ∧
      Derives (some bound) known level (.value (.expr read)) tokens := by
  match expr with
  | .reference name _ =>
      obtain ⟨token, rfl, spellsName⟩ := List.map_eq_singleton_iff.mp spelling
      obtain ⟨kind, rfl⟩ := Token.identifier_of_lexeme spellsName
      rw [Expr.height] at low
      exact ⟨_, rfl, .name (by simpa using low) kind nests⟩
  | .url literal _ =>
      obtain ⟨token, _, rfl, spellsUrl, rest⟩ := List.map_eq_cons_iff.mp spelling
      obtain ⟨content, rfl, spellsLiteral⟩ := List.map_eq_singleton_iff.mp rest
      obtain ⟨kind, rfl⟩ := Token.string_of_lexeme spellsLiteral
      rw [Expr.height] at low
      exact ⟨_, rfl, .url (by simpa using low) (Token.keyword?_of_lexeme spellsUrl) kind⟩
  | .arrayOf element _ =>
      obtain ⟨token, tokens, rfl, spellsArray, rest⟩ := List.map_eq_cons_iff.mp spelling
      rw [Expr.height] at low
      have lower : (level + 1) + element.height ≤ bound + 1 := by omega
      obtain ⟨read, same, derives⟩ := element.derives nests lower rest
      refine ⟨.arrayOf read token, congrArg (Expr.arrayOf · ()) same,
        .arrayOf ?_ (Token.keyword?_of_lexeme spellsArray) derives⟩
      rintro _ ⟨rfl⟩
      omega
  | .format entries _ =>
      obtain ⟨nonempty, distinct, nests⟩ := nests
      obtain ⟨opening, _, rfl, spellsOpening, rest⟩ := List.map_eq_cons_iff.mp spelling
      obtain ⟨tokens, _, rfl, inside, last⟩ := List.map_eq_append_iff.mp rest
      obtain ⟨closing, rfl, spellsClosing⟩ := List.map_eq_singleton_iff.mp last
      rw [Expr.height] at low
      have lower : (level + 1) + entries.height ≤ bound + 1 := by omega
      obtain ⟨read, same, derives⟩ := entries.derives nonempty nests lower inside
      -- No key comes twice, so the insertions rebuild the object entry by entry.
      have keys : read.keys = entries.keys := by
        rw [← read.keys_erase, same, entries.keys_erase]
      have restored : Format.ofList read.toList = read := Format.ofList_toList (keys ▸ distinct)
      refine ⟨.format (.ofList read.toList) opening, ?_, .format ?_
        (congrArg Lexeme.kind spellsOpening) derives (congrArg Lexeme.kind spellsClosing)⟩
      · rw [restored]
        exact congrArg (Expr.format · ()) same
      · rintro _ ⟨rfl⟩
        omega

theorem Value.derives (value : Value Origin) {tokens : List Token} {level : Nat}
    (nests : value.Nests known) (low : level + value.height ≤ bound + 1)
    (spelling : tokens.map Token.lexeme = value.lexemes) :
    ∃ read : Value Token, read.erase = value.erase ∧
      Derives (some bound) known level (.value read) tokens := by
  match value with
  | .expr inner =>
      obtain ⟨read, same, derives⟩ := inner.derives nests low spelling
      exact ⟨.expr read, congrArg Value.expr same, derives⟩
  | .text content =>
      obtain ⟨token, rfl, spellsText⟩ := List.map_eq_singleton_iff.mp spelling
      obtain ⟨kind, rfl⟩ := Token.string_of_lexeme spellsText
      rw [Value.height] at low
      exact ⟨_, rfl, .string (by simpa using low) kind⟩

theorem Format.derives (format : Format Origin) {tokens : List Token} {level : Nat}
    (nonempty : format ≠ .empty)
    (nests : format.Nests known) (low : level + format.height ≤ bound + 1)
    (spelling : tokens.map Token.lexeme = format.lexemes) :
    ∃ read : Format Token, read.erase = format.erase ∧
      Derives (some bound) known level (.pairs read.toList) tokens := by
  match format with
  | .entry key value rest =>
      obtain ⟨first, _, rfl, spellsKey, afterKey⟩ := List.map_eq_cons_iff.mp spelling
      obtain ⟨colon, _, rfl, spellsColon, afterColon⟩ := List.map_eq_cons_iff.mp afterKey
      obtain ⟨tokens, others, rfl, ofValue, ofRest⟩ := List.map_eq_append_iff.mp afterColon
      obtain ⟨keyKind, rfl⟩ := Token.string_of_lexeme spellsKey
      have colonKind : colon.kind = .colon := congrArg Lexeme.kind spellsColon
      rw [Format.height] at low
      have lowValue : level + value.height ≤ bound + 1 := by omega
      obtain ⟨read, same, derivesValue⟩ := value.derives nests.1 lowValue ofValue
      by_cases last : rest = .empty
      · subst last
        obtain rfl := List.map_eq_nil_iff.mp ofRest
        rw [List.append_nil]
        exact ⟨.entry first.value read .empty, congrArg (Format.entry first.value · .empty) same,
          .pair keyKind colonKind derivesValue⟩
      · rw [if_neg (mt Format.isEmpty_iff.mp last)] at ofRest
        obtain ⟨comma, later, rfl, spellsComma, ofLater⟩ := List.map_eq_cons_iff.mp ofRest
        have lowRest : level + rest.height ≤ bound + 1 := by omega
        obtain ⟨more, sameRest, derivesRest⟩ := rest.derives last nests.2 lowRest ofLater
        exact ⟨.entry first.value read more, congrArg₂ (Format.entry first.value) same sameRest,
          .more keyKind colonKind derivesValue (congrArg Lexeme.kind spellsComma) derivesRest⟩

end

theorem Expr.Bindable.derives {expr : Expr Origin} (bindable : expr.Bindable known)
    (spelling : tokens.map Token.lexeme = expr.lexemes) :
    ∃ read : Expr Token, read.erase = expr.erase ∧
      Derives (some nestingLimit) known 1 (.value (.expr read)) tokens := by
  have low := bindable.shallow
  exact expr.derives bindable.nests (by omega) spelling

theorem Expr.derivesTop {expr : Expr Origin} (stands : expr.Stands known)
    (spelling : tokens.map Token.lexeme = expr.lexemes) :
    ∃ read : Expr Token, read.erase = expr.erase ∧
      DerivesTop (some nestingLimit) known read tokens := by
  match expr with
  | .definition name value _ =>
      obtain ⟨token, _, rfl, spellsDefine, afterToken⟩ := List.map_eq_cons_iff.mp spelling
      obtain ⟨word, tokens, rfl, spellsName, rest⟩ := List.map_eq_cons_iff.mp afterToken
      obtain ⟨kind, rfl⟩ := Token.identifier_of_lexeme spellsName
      obtain ⟨read, same, derives⟩ := stands.2.derives rest
      exact ⟨.definition word.value read token, congrArg (Expr.definition word.value · ()) same,
        .definition (Token.keyword?_of_lexeme spellsDefine) kind derives⟩
  | .route path value _ =>
      obtain ⟨token, _, rfl, spellsRoute, afterToken⟩ := List.map_eq_cons_iff.mp spelling
      obtain ⟨literal, tokens, rfl, spellsPath, rest⟩ := List.map_eq_cons_iff.mp afterToken
      obtain ⟨kind, rfl⟩ := Token.string_of_lexeme spellsPath
      obtain ⟨read, same, derives⟩ := stands.derives rest
      exact ⟨.route literal.value read token, congrArg (Expr.route literal.value · ()) same,
        .route (Token.keyword?_of_lexeme spellsRoute) kind derives⟩
  | .response path status value _ =>
      obtain ⟨lower, upper, bindable⟩ := stands
      obtain ⟨token, _, rfl, spellsResponse, afterToken⟩ := List.map_eq_cons_iff.mp spelling
      obtain ⟨literal, _, rfl, spellsPath, afterPath⟩ := List.map_eq_cons_iff.mp afterToken
      obtain ⟨word, tokens, rfl, spellsStatus, rest⟩ := List.map_eq_cons_iff.mp afterPath
      obtain ⟨kind, rfl⟩ := Token.string_of_lexeme spellsPath
      obtain ⟨wordKind, digits⟩ := Token.identifier_of_lexeme spellsStatus
      obtain ⟨read, same, derives⟩ := bindable.derives rest
      exact ⟨.response literal.value status read token,
        congrArg (Expr.response literal.value status · ()) same,
        .response (Token.keyword?_of_lexeme spellsResponse) kind wordKind
          (isStatus_iff.mpr ⟨lower, upper, digits⟩) derives⟩

theorem WellFormed.derivesProgram {program : List (Expr Origin)}
    (wellFormed : WellFormed known program)
    (spelling : tokens.map Token.lexeme = (program.map Expr.lexemes).flatten) :
    ∃ read : List (Expr Token), read.map Expr.erase = program.map Expr.erase ∧
      DerivesProgram (some nestingLimit) known read tokens := by
  induction program generalizing known tokens with
  | nil =>
      obtain rfl := List.map_eq_nil_iff.mp spelling
      exact ⟨[], rfl, .nil⟩
  | cons expr program ih =>
      obtain ⟨stands, later⟩ := wellFormed
      rw [List.map_cons, List.flatten_cons] at spelling
      obtain ⟨first, others, rfl, ofExpr, ofLater⟩ := List.map_eq_append_iff.mp spelling
      obtain ⟨read, same, derives⟩ := Expr.derivesTop stands ofExpr
      obtain ⟨program, samePrograms, derivesLater⟩ := ih later ofLater
      have defined : read.defined = expr.defined := by
        rw [← read.defined_erase, same, expr.defined_erase]
      exact ⟨read :: program, by simp [same, samePrograms], .cons derives (defined ▸ derivesLater)⟩

theorem parseSource_eq_ok_iff {source : SourceText} {program : List (Expr Token)} :
    parseSource source = .ok program ↔
      ∃ tokens, tokenize source.text = .ok tokens ∧ parse tokens = .ok program := by
  unfold parseSource parseText
  cases tokenize source.text with
  | error failure => simp
  | ok tokens => cases parsed : parse tokens <;> simp [parsed]

theorem parseSource_programText {program : List (Expr Origin)} (wellFormed : WellFormed [] program)
    (name : String) :
    ∃ read, parseSource ⟨name, programText program⟩ = .ok read ∧
      read.map Expr.erase = program.map Expr.erase := by
  obtain ⟨tokens, tokenized, spelling⟩ := tokenize_programText wellFormed
  obtain ⟨read, same, derives⟩ := wellFormed.derivesProgram spelling
  have parsed : parse tokens = .ok read := parseWithin_eq_ok_iff_derives.mpr derives
  exact ⟨read, parseSource_eq_ok_iff.mpr ⟨tokens, tokenized, parsed⟩, same⟩

theorem namesSound_of_tokenize {text : String} (tokenized : tokenize text = .ok tokens) :
    NamesSound tokens := by
  intro token member identifier
  obtain ⟨_, _, _, _, _, lexeme, _⟩ :=
    (tokenize_eq_ok_iff_scanned.mp tokenized).exists_of_mem member
  have admits := lexeme.admits
  rw [identifier] at admits
  exact admits

theorem wellFormed_of_parseSource {source : SourceText} {program : List (Expr Token)}
    (parsed : parseSource source = .ok program) : WellFormed [] program := by
  obtain ⟨tokens, tokenized, parsed⟩ := parseSource_eq_ok_iff.mp parsed
  exact (parseWithin_eq_ok_iff_derives.mp parsed).wellFormed (namesSound_of_tokenize tokenized)

/-- The text of a well-formed program reads back as the program, whatever the source is called.
What is read from any text is well-formed, so that its own text reads back in turn. -/
theorem parseSource_roundTrip :
    (∀ (program : List (Expr Origin)) (name : String), WellFormed [] program →
      ∃ read, parseSource ⟨name, programText program⟩ = .ok read ∧
        read.map Expr.erase = program.map Expr.erase) ∧
    ∀ (source : SourceText) (program : List (Expr Token)), parseSource source = .ok program →
      WellFormed [] program ∧
        ∀ name, ∃ again, parseSource ⟨name, programText program⟩ = .ok again ∧
          again.map Expr.erase = program.map Expr.erase := by
  constructor
  · intro program name wellFormed
    exact parseSource_programText wellFormed name
  · intro source program parsed
    have wellFormed := wellFormed_of_parseSource parsed
    exact ⟨wellFormed, parseSource_programText wellFormed⟩

theorem parseSource_roundTrip_sample :
    let program : List (Expr Unit) :=
      [.definition "é\"" (.format (.entry "\\\n" (.text "\"")
          (.entry "k" (.expr (.arrayOf (.text "") ())) .empty)) ()) (),
        .response "p" 404 (.reference "é\"" ()) ()]
    WellFormed [] program ∧
      programText program =
        "def é\" \x7b \"\\\\\n\" : \"\\\"\" , \"k\" : ArrayOf \"\" \x7d\nresponse \"p\" 404 é\"" ∧
      ∃ read, parseSource ⟨"sample", programText program⟩ = .ok read ∧
        read.map Expr.erase = program.map Expr.erase := by
  intro program
  have wellFormed : WellFormed [] program := by
    refine ⟨⟨⟨by decide, by decide⟩, ⟨?_, by decide⟩⟩, ⟨by decide, by decide, ⟨?_, by decide⟩⟩,
      trivial⟩
    · simp [Expr.Nests, Format.Nests, Value.Nests]
    · simp [Expr.Nests, Expr.defined]
  exact ⟨wellFormed, by decide +kernel, parseSource_roundTrip.1 program "sample" wellFormed⟩

end AeSchema
