import AeSchema.Proofs.Expr.Nodes
import AeSchema.Proofs.Program.Keys
import AeSchema.Proofs.Token.Spans

/-! The tokens that expressions keep: each expression has one of its own, which it starts with in
the text, and they come in the order of the tree. -/

namespace AeSchema

open Source Text

def Expr.spelling {Origin : Type} : Expr Origin → String
  | .definition .. => "def"
  | .route .. => "route"
  | .response .. => "response"
  | .reference name _ => name
  | .format .. => "\x7b"
  | .arrayOf .. => "ArrayOf"
  | .url .. => "Url"

namespace Expr

def StartsRight : Expr Token → Prop
  | .definition _ _ origin => origin.keyword? = some .define
  | .route _ _ origin => origin.keyword? = some .route
  | .response _ _ _ origin => origin.keyword? = some .response
  | .reference name origin => origin.kind = .identifier ∧ origin.value = name
  | .format _ origin => origin.kind = .curlyOpen
  | .arrayOf _ origin => origin.keyword? = some .arrayOf
  | .url _ origin => origin.keyword? = some .url

def Leads (expr : Expr Token) : Prop :=
  ∀ child, expr.Holds (.expr child) → expr.origin.span.start < child.origin.span.start

end Expr

theorem IsLexeme.spelled_keyword {token : Token} {keyword : Keyword} {spelled : List Char}
    (lexeme : IsLexeme token.kind token.value spelled)
    (known : token.keyword? = some keyword) : spelled = keyword.text.toList := by
  have kind := Parse.keyword_of_keyword? known
  have writes := lexeme.writes
  simp only [Token.keyword?, kind, Keyword.ofText?_eq_some_iff] at known
  rw [kind, known] at writes
  exact writes

theorem Expr.StartsRight.spelled {expr : Expr Token} {spelled : List Char}
    (starts : expr.StartsRight) (lexeme : IsLexeme expr.origin.kind expr.origin.value spelled) :
    spelled = expr.spelling.toList := by
  cases expr with
  | definition | route | response | arrayOf | url => exact lexeme.spelled_keyword starts
  | reference name origin =>
      obtain ⟨kind, rfl⟩ := starts
      have writes := lexeme.writes
      rw [Expr.origin, kind] at writes
      exact writes
  | format entries origin =>
      have kind : origin.kind = .curlyOpen := starts
      have admits := lexeme.admits
      have writes := lexeme.writes
      rw [Expr.origin, kind] at admits writes
      calc
        spelled = origin.value.toList := writes
        _ = ['{'] := admits
        _ = "\x7b".toList := by decide

def Phrase.nodes : Phrase → List (Expr Token)
  | .value inner => inner.nodes
  | .pairs entries => entries.flatMap (·.2.nodes)

section Grammar

variable {limit : Option Nat} {known : List String} {level : Nat} {phrase : Phrase}
  {tokens rest : List Token} {expr : Expr Token} {program : List (Expr Token)}

theorem map_subperm {α β : Type} (f : α → β) {first second : List α}
    (subperm : first.Subperm second) : (first.map f).Subperm (second.map f) := by
  obtain ⟨middle, perm, sublist⟩ := subperm
  exact ⟨middle.map f, perm.map f, sublist.map f⟩

theorem Derives.subperm_origins (derives : Derives limit known level phrase tokens) :
    (phrase.nodes.map Expr.origin).Subperm tokens := by
  induction derives with
  | string => exact List.nil_subperm
  | name => exact .refl _
  | url => exact (List.sublist_append_left [_] [_]).subperm
  | @format level opening closing entries tokens _ _ _ _ ih =>
      -- A value that is replaced takes its tokens with it.
      have kept : ((Format.ofList entries).nodes.map Expr.origin).Subperm tokens :=
        (map_subperm Expr.origin Format.subperm_nodes_ofList).trans ih
      have inside : tokens.Subperm (tokens ++ [closing]) :=
        (List.sublist_append_left tokens [closing]).subperm
      exact (List.subperm_cons opening).mpr (kept.trans inside)
  | @arrayOf level token element tokens _ _ _ ih => exact (List.subperm_cons token).mpr ih
  | @pair level key colon value tokens _ _ _ ih =>
      rw [Phrase.nodes, List.flatMap_singleton]
      exact (ih.cons_right colon).cons_right key
  | @more level key colon value tokens comma entries rest _ _ _ _ _ ihValue ihRest =>
      rw [Phrase.nodes, List.flatMap_cons, List.map_append]
      exact ((ihValue.append (ihRest.cons_right comma)).cons_right colon).cons_right key

theorem Derives.origin_mem (derives : Derives limit known level phrase tokens) {node : Expr Token}
    (member : node ∈ phrase.nodes) : node.origin ∈ tokens :=
  derives.subperm_origins.subset (List.mem_map_of_mem member)

theorem Derives.startsRight (derives : Derives limit known level phrase tokens) :
    ∀ node ∈ phrase.nodes, node.StartsRight := by
  induction derives with
  | string => exact List.forall_mem_nil _
  | name _ identifier => exact List.forall_mem_singleton.mpr ⟨identifier, rfl⟩
  | url _ keyword => exact List.forall_mem_singleton.mpr keyword
  | format _ opens _ _ ih =>
      exact List.forall_mem_cons.mpr
        ⟨opens, fun node member => ih node (Format.subperm_nodes_ofList.subset member)⟩
  | arrayOf _ keyword _ ih => exact List.forall_mem_cons.mpr ⟨keyword, ih⟩
  | pair _ _ _ ih =>
      rw [Phrase.nodes, List.flatMap_singleton]
      exact ih
  | more _ _ _ _ _ ihValue ihRest =>
      rw [Phrase.nodes, List.flatMap_cons, List.forall_mem_append]
      exact ⟨ihValue, ihRest⟩

theorem Expr.leads_nodes {behind : List Token}
    (ordered : (expr.origin :: behind).Pairwise fun first second =>
      first.span.start < second.span.start)
    (kept : ∀ node ∈ expr.nodes.tail, node.origin ∈ behind)
    (later : ∀ node ∈ expr.nodes.tail, node.Leads) : ∀ node ∈ expr.nodes, node.Leads := by
  have own : expr.Leads := by
    intro child holds
    have inside := kept child (holds.nodes_subset child.self_mem_nodes)
    exact List.rel_of_pairwise_cons ordered inside
  rw [expr.nodes_eq_cons]
  exact List.forall_mem_cons.mpr ⟨own, later⟩

theorem Derives.leads (derives : Derives limit known level phrase tokens)
    (ordered : tokens.Pairwise fun first second => first.span.start < second.span.start) :
    ∀ node ∈ phrase.nodes, node.Leads := by
  induction derives with
  | string => exact List.forall_mem_nil _
  | name | url =>
      refine List.forall_mem_singleton.mpr ?_
      rintro child ⟨⟩
  | @format level opening closing entries tokens _ _ derives _ ih =>
      have inside {node} (member : node ∈ (Format.ofList entries).nodes) :
          node ∈ (Phrase.pairs entries).nodes := Format.subperm_nodes_ofList.subset member
      refine Expr.leads_nodes ordered (fun node member => ?_) fun node member => ?_
      · exact List.mem_append_left [closing] (derives.origin_mem (inside member))
      · exact ih (List.pairwise_append.mp ordered.tail).1 node (inside member)
  | arrayOf _ _ derives ih =>
      exact Expr.leads_nodes ordered (fun _ member => derives.origin_mem member) (ih ordered.tail)
  | pair _ _ _ ih =>
      rw [Phrase.nodes, List.flatMap_singleton]
      exact ih ordered.tail.tail
  | more _ _ _ _ _ ihValue ihRest =>
      have parts := List.pairwise_append.mp ordered.tail.tail
      rw [Phrase.nodes, List.flatMap_cons, List.forall_mem_append]
      exact ⟨ihValue parts.1, ihRest parts.2.1.tail⟩

theorem Derives.sublist_origins (derives : Derives limit known level phrase tokens)
    (distinct : KeysDistinct (tokens ++ rest)) :
    (phrase.nodes.map Expr.origin).Sublist tokens := by
  induction derives generalizing rest with
  | string => exact List.nil_sublist _
  | name => exact .refl _
  | url => exact List.sublist_append_left [_] [_]
  | @format level opening closing entries tokens _ opens derives closes ih =>
      rw [List.cons_append, List.append_assoc, List.singleton_append] at distinct
      have unrepeated := distinct.nodup opens derives closes
      have inside := (ih distinct.2).trans (List.sublist_append_left tokens [closing])
      show (opening :: (Format.ofList entries).nodes.map Expr.origin).Sublist _
      rw [Format.nodes_ofList unrepeated]
      exact inside.cons_cons opening
  | @arrayOf level token element tokens _ _ _ ih => exact (ih distinct.2).cons_cons token
  | @pair level key colon value tokens _ _ _ ih =>
      rw [Phrase.nodes, List.flatMap_singleton]
      exact ((ih distinct.2.2).cons colon).cons key
  | @more level key colon value tokens comma entries later _ _ _ _ _ ihValue ihRest =>
      have behind : KeysDistinct (tokens ++ (comma :: (later ++ rest))) := by
        simpa using distinct.2.2
      rw [Phrase.nodes, List.flatMap_cons, List.map_append]
      have both := (ihValue behind).append ((ihRest behind.behind.2).cons comma)
      exact (both.cons colon).cons key

theorem DerivesTop.exists_value (derives : DerivesTop limit known expr tokens) :
    ∃ value front behind, tokens = expr.origin :: (front ++ behind) ∧
      expr.nodes.tail = value.nodes ∧ expr.StartsRight ∧
      Derives limit known 1 (.value (.expr value)) behind := by
  cases derives with
  | @definition token name value tokens keyword _ derives
  | @route token path value tokens keyword _ derives =>
      exact ⟨value, [_], tokens, rfl, rfl, keyword, derives⟩
  | @response token path code status value tokens keyword _ _ _ derives =>
      exact ⟨value, [path, code], tokens, rfl, rfl, keyword, derives⟩

theorem DerivesTop.subperm_origins (derives : DerivesTop limit known expr tokens) :
    (expr.nodes.map Expr.origin).Subperm tokens := by
  obtain ⟨value, front, behind, rfl, inner, _, derives⟩ := derives.exists_value
  rw [expr.nodes_eq_cons, inner, List.map_cons, List.subperm_cons]
  exact derives.subperm_origins.trans (List.sublist_append_right front behind).subperm

theorem DerivesTop.startsRight (derives : DerivesTop limit known expr tokens) :
    ∀ node ∈ expr.nodes, node.StartsRight := by
  obtain ⟨value, _, _, _, inner, starts, derives⟩ := derives.exists_value
  rw [expr.nodes_eq_cons, inner]
  exact List.forall_mem_cons.mpr ⟨starts, derives.startsRight⟩

theorem DerivesTop.leads (derives : DerivesTop limit known expr tokens)
    (ordered : tokens.Pairwise fun first second => first.span.start < second.span.start) :
    ∀ node ∈ expr.nodes, node.Leads := by
  obtain ⟨value, front, behind, rfl, inner, _, derives⟩ := derives.exists_value
  refine Expr.leads_nodes ordered (fun node member => ?_) ?_
  · rw [inner] at member
    exact List.mem_append_right front (derives.origin_mem member)
  · rw [inner]
    exact derives.leads (List.pairwise_append.mp ordered.tail).2.1

theorem DerivesTop.sublist_origins (derives : DerivesTop limit known expr tokens)
    (distinct : KeysDistinct (tokens ++ rest)) :
    (expr.nodes.map Expr.origin).Sublist tokens := by
  obtain ⟨value, front, behind, rfl, inner, _, derives⟩ := derives.exists_value
  rw [List.cons_append, List.append_assoc] at distinct
  rw [expr.nodes_eq_cons, inner, List.map_cons, List.cons_sublist_cons]
  exact (derives.sublist_origins distinct.2.behind).trans (List.sublist_append_right front behind)

theorem DerivesProgram.subperm_origins (derives : DerivesProgram limit known program tokens) :
    ((programNodes program).map Expr.origin).Subperm tokens := by
  induction derives with
  | nil => exact .refl _
  | cons top _ ih =>
      rw [programNodes, List.flatMap_cons, List.map_append]
      exact top.subperm_origins.append ih

theorem DerivesProgram.startsRight (derives : DerivesProgram limit known program tokens) :
    ∀ node ∈ programNodes program, node.StartsRight := by
  induction derives with
  | nil => exact List.forall_mem_nil _
  | cons top _ ih =>
      rw [programNodes, List.flatMap_cons, List.forall_mem_append]
      exact ⟨top.startsRight, ih⟩

theorem DerivesProgram.leads (derives : DerivesProgram limit known program tokens)
    (ordered : tokens.Pairwise fun first second => first.span.start < second.span.start) :
    ∀ node ∈ programNodes program, node.Leads := by
  induction derives with
  | nil => exact List.forall_mem_nil _
  | cons top _ ih =>
      have parts := List.pairwise_append.mp ordered
      rw [programNodes, List.flatMap_cons, List.forall_mem_append]
      exact ⟨top.leads parts.1, ih parts.2.1⟩

theorem DerivesProgram.sublist_origins (derives : DerivesProgram limit known program tokens)
    (distinct : KeysDistinct tokens) :
    ((programNodes program).map Expr.origin).Sublist tokens := by
  induction derives with
  | nil => exact .refl _
  | cons top _ ih =>
      rw [programNodes, List.flatMap_cons, List.map_append]
      exact (top.sublist_origins distinct).append (ih distinct.behind)

theorem DerivesProgram.sublist_topLevel (derives : DerivesProgram limit known program tokens) :
    (program.map Expr.origin).Sublist tokens := by
  induction derives with
  | nil => exact .refl _
  | cons top _ ih =>
      obtain ⟨_, front, behind, rfl, _⟩ := top.exists_value
      rw [List.map_cons, List.cons_append, List.cons_sublist_cons]
      exact ih.trans (List.sublist_append_right _ _)

end Grammar

/-- The tree hangs on the text: every expression on the bytes that it starts with, and no two on
the same ones. -/
structure Anchored (text : List Char) (tokens : List Token) (program : List (Expr Token)) :
    Prop where
  spelled : ∀ node ∈ programNodes program, node.origin ∈ tokens ∧
    ∃ rest, StandsAt text node.origin.span node.spelling.toList rest
  distinct : ((programNodes program).map fun node => node.origin.span).Nodup
  child : ∀ node ∈ programNodes program, ∀ child, node.Holds (.expr child) →
    node.origin.span.start < child.origin.span.start
  topLevel : program.Pairwise fun first second =>
    first.origin.span.start < second.origin.span.start
  preorder : KeysDistinct tokens → (programNodes program).Pairwise fun first second =>
    first.origin.span.start < second.origin.span.start

theorem Tiles.starts_increase {text : List Char} {tokens : List Token}
    (tiles : Tiles text tokens) :
    tokens.Pairwise fun first second => first.span.start < second.span.start := by
  refine tiles.ordered.imp_of_mem fun member _ behind => ?_
  have nonempty := tiles.nonempty _ member
  omega

theorem Tiles.nodup_spans {text : List Char} {tokens : List Token} (tiles : Tiles text tokens) :
    (tokens.map (·.span)).Nodup := by
  rw [List.nodup_iff_pairwise_ne, List.pairwise_map]
  exact tiles.starts_increase.imp fun less same => Nat.ne_of_lt less (congrArg Span.start same)

/-- A value that its key loses to a later one leaves no expression behind, and the later one moves
up to its place: so the order of the tree is that of the text only where no key is repeated. -/
theorem parse_anchored {text : String} {tokens : List Token} {program : List (Expr Token)}
    (done : tokenize text = .ok tokens) (parsed : parse tokens = .ok program) :
    Anchored text.toList tokens program := by
  have tiles := tokenize_tiles done
  have ordered := tiles.starts_increase
  have derives := parseWithin_eq_ok_iff_derives.mp parsed
  have subperm := derives.subperm_origins
  constructor
  · intro node member
    have kept : node.origin ∈ tokens := subperm.subset (List.mem_map_of_mem member)
    obtain ⟨spelled, rest, stands, lexeme, _⟩ := tiles.lexeme node.origin kept
    rw [(derives.startsRight node member).spelled lexeme] at stands
    exact ⟨kept, rest, stands⟩
  · obtain ⟨origins, perm, sublist⟩ := subperm
    have spans := (sublist.map Token.span).nodup tiles.nodup_spans
    rw [(perm.map Token.span).nodup_iff, List.map_map] at spans
    exact spans
  · exact derives.leads ordered
  · have origins := ordered.sublist derives.sublist_topLevel
    rwa [List.pairwise_map] at origins
  · intro distinct
    have origins := ordered.sublist (derives.sublist_origins distinct)
    rwa [List.pairwise_map] at origins

/-- A key that stands in two objects, and one that is repeated in the same object: there the last
value comes first in the tree. -/
theorem parse_anchored_sample :
    let token (kind : TokenKind) (value : String) (start stop : Nat) : Token :=
      ⟨value, kind, ⟨1, start + 1⟩, ⟨start, stop⟩⟩
    let define := token .keyword "def" 0 3
    let name := token .identifier "A" 4 5
    let opening := token .curlyOpen "\x7b" 6 7
    let url := token .keyword "Url" 11 14
    let object := [opening, token .string "k" 7 10, token .colon ":" 10 11, url,
      token .string "" 15 17]
    let route := token .keyword "route" 19 24
    let later := token .curlyOpen "\x7b" 28 29
    let reference := token .identifier "A" 33 34
    let distinct := [define, name] ++ object ++ [token .curlyClose "\x7d" 17 18, route,
      token .string "" 25 27, later, token .string "k" 29 32, token .colon ":" 32 33, reference,
      token .curlyClose "\x7d" 34 35]
    let array := token .keyword "ArrayOf" 22 29
    let last := token .keyword "Url" 37 40
    let repeating := [define, name] ++ object ++ [token .comma "," 17 18, token .string "l" 18 21,
      token .colon ":" 21 22, array, token .string "" 30 32, token .comma "," 32 33,
      token .string "k" 33 36, token .colon ":" 36 37, last, token .string "" 41 43,
      token .curlyClose "\x7d" 43 44]
    let text := "def A \x7b\"k\":Url \"\"\x7d route \"\" \x7b\"k\":A\x7d"
    let other := "def A \x7b\"k\":Url \"\",\"l\":ArrayOf \"\",\"k\":Url \"\"\x7d"
    let program : List (Expr Token) :=
      [.definition "A" (.format (.entry "k" (.expr (.url "" url)) .empty) opening) define,
        .route "" (.format (.entry "k" (.expr (.reference "A" reference)) .empty) later) route]
    let reordered : List (Expr Token) :=
      [.definition "A" (.format (.entry "k" (.expr (.url "" last))
        (.entry "l" (.expr (.arrayOf (.text "") array)) .empty)) opening) define]
    tokenize text = .ok distinct ∧ parse distinct = .ok program ∧ KeysDistinct distinct ∧
      Anchored text.toList distinct program ∧
      ((programNodes program).Pairwise fun first second =>
        first.origin.span.start < second.origin.span.start) ∧
      tokenize other = .ok repeating ∧ parse repeating = .ok reordered ∧
      ¬KeysDistinct repeating ∧ Anchored other.toList repeating reordered := by
  intro token define name opening url object route later reference distinct array last repeating
    text other program reordered
  have done : tokenize text = .ok distinct := by decide +kernel
  have parsed : parse distinct = .ok program := by decide +kernel
  have keys : KeysDistinct distinct := by decide +kernel
  have anchored := parse_anchored done parsed
  have otherDone : tokenize other = .ok repeating := by decide +kernel
  have otherParsed : parse repeating = .ok reordered := by decide +kernel
  exact ⟨done, parsed, keys, anchored, anchored.preorder keys, otherDone, otherParsed,
    by decide +kernel, parse_anchored otherDone otherParsed⟩

end AeSchema
