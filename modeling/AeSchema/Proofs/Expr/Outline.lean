import AeSchema.Expr.Visit
import AeSchema.Text.Split
import AeSchema.Proofs.Expr.Erase
import AeSchema.Proofs.Text.Json
import AeSchema.Proofs.Text.Lines

/-! Outlines can be read back: each line shows one part of a tree, and the depths of the lines tell
which parts lie inside which. -/

namespace AeSchema

open Text

variable {Origin Other : Type}

/-- What has a line of its own: an expression or a bare string, or the key of an entry. -/
inductive OutlinePart (Origin : Type) where
  | value (value : Value Origin)
  | key (name : String)

mutual

/-- The parts with their levels; a key stands one level below its format and its value two. -/
def Expr.parts (level : Nat) (expr : Expr Origin) : List (Nat × OutlinePart Origin) :=
  (level, .value (.expr expr)) ::
    match expr with
    | .definition _ value _ | .route _ value _ | .response _ _ value _ => value.parts (level + 1)
    | .format entries _ => entries.parts (level + 1)
    | .arrayOf element _ => element.parts (level + 1)
    | .reference .. | .url .. => []

def Value.parts (level : Nat) : Value Origin → List (Nat × OutlinePart Origin)
  | .expr inner => inner.parts level
  | .text content => [(level, .value (.text content))]

def Format.parts (level : Nat) : Format Origin → List (Nat × OutlinePart Origin)
  | .empty => []
  | .entry key value rest => (level, .key key) :: (value.parts (level + 1) ++ rest.parts level)

end

def programParts (program : List (Expr Origin)) : List (Nat × OutlinePart Origin) :=
  program.flatMap (Expr.parts 0)

def Expr.item : Expr Origin → OutlineItem
  | .definition name _ _ => .definition name
  | .route path _ _ => .route path
  | .response path status _ _ => .response path status
  | .reference name _ => .reference name
  | .format _ _ => .format
  | .arrayOf _ _ => .arrayOf
  | .url literal _ => .url literal

def OutlinePart.item : OutlinePart Origin → OutlineItem
  | value (.expr expr) => expr.item
  | value (.text content) => .text content
  | key name => .key name

def lineOf (part : Nat × OutlinePart Origin) : OutlineLine :=
  ⟨part.1, part.2.item⟩

def Visit.parts (visit : Visit Origin) : List (OutlinePart Origin) :=
  (visit.key?.map OutlinePart.key).toList ++ [.value visit.value]

mutual

theorem Expr.outline_eq_parts (expr : Expr Origin) (level : Nat) :
    expr.outline level = (expr.parts level).map lineOf := by
  match expr with
  | .definition _ value _ | .route _ value _ | .response _ _ value _ =>
      rw [Expr.outline, Expr.parts, List.map_cons, value.outline_eq_parts]
      rfl
  | .format entries _ =>
      rw [Expr.outline, Expr.parts, List.map_cons, entries.outline_eq_parts]
      rfl
  | .arrayOf element _ =>
      rw [Expr.outline, Expr.parts, List.map_cons, element.outline_eq_parts]
      rfl
  | .reference .. | .url .. => rfl

theorem Value.outline_eq_parts (value : Value Origin) (level : Nat) :
    value.outline level = (value.parts level).map lineOf := by
  match value with
  | .expr inner => exact inner.outline_eq_parts level
  | .text _ => rfl

theorem Format.outline_eq_parts (format : Format Origin) (level : Nat) :
    format.outline level = (format.parts level).map lineOf := by
  match format with
  | .empty => rfl
  | .entry _ value rest =>
      rw [Format.outline, Format.parts, List.map_cons, List.map_append, value.outline_eq_parts,
        rest.outline_eq_parts]
      rfl

end

mutual

theorem Expr.map_parts (expr : Expr Origin) (level depth : Nat) (key? : Option String) :
    (key?.map OutlinePart.key).toList ++ (expr.parts level).map Prod.snd =
      (expr.visits depth key?).flatMap Visit.parts := by
  match expr with
  | .definition _ value _ | .route _ value _ | .response _ _ value _ =>
      simp [Expr.parts, Expr.visits, Visit.parts, ← value.map_parts (level + 1) (depth + 1) none]
  | .format entries _ =>
      simp [Expr.parts, Expr.visits, Visit.parts, entries.map_parts (level + 1) (depth + 1)]
  | .arrayOf element _ =>
      simp [Expr.parts, Expr.visits, Visit.parts, ← element.map_parts (level + 1) (depth + 1) none]
  | .reference .. | .url .. => simp [Expr.parts, Expr.visits, Visit.parts]

theorem Value.map_parts (value : Value Origin) (level depth : Nat) (key? : Option String) :
    (key?.map OutlinePart.key).toList ++ (value.parts level).map Prod.snd =
      (value.visits depth key?).flatMap Visit.parts := by
  match value with
  | .expr inner => exact inner.map_parts level depth key?
  | .text _ => simp [Value.parts, Value.visits, Visit.parts]

theorem Format.map_parts (format : Format Origin) (level depth : Nat) :
    (format.parts level).map Prod.snd = (format.visits depth).flatMap Visit.parts := by
  match format with
  | .empty => rfl
  | .entry key value rest =>
      rw [Format.parts, Format.visits, List.map_cons, List.map_append, List.flatMap_append,
        ← value.map_parts (level + 1) depth (some key), rest.map_parts level depth]
      rfl

end

namespace OutlineItem

theorem display_key_ne_text (name content : String) :
    (key name).display ≠ (text content).display := by
  intro same
  have chars : (quoted name).toList ++ [':'] = (quoted content).toList ++ [] := by
    simpa [display] using congrArg String.toList same
  exact absurd (quoted_append_inj chars).2 (List.cons_ne_nil _ _)

theorem display_injective : Function.Injective display := by
  intro first second same
  have chars := congrArg String.toList same
  cases first <;> cases second
  case definition.definition name other =>
    exact congrArg definition (by simpa [display] using same)
  case route.route path other =>
    exact congrArg route (quoted_injective (by simpa [display] using same))
  case response.response path status other number =>
    simp only [display, String.toList_append, List.append_assoc, List.append_cancel_left_eq]
      at chars
    obtain ⟨rfl, numbers⟩ := quoted_append_inj chars
    rw [List.append_cancel_left_eq, Nat.toList_repr, Nat.toList_repr] at numbers
    rw [Json.toDigits_ten_inj numbers]
  case reference.reference name other =>
    exact congrArg reference (by simpa [display] using same)
  case key.key name other =>
    exact congrArg key (quoted_injective (by simpa [display] using same))
  case key.text name content => exact absurd same (display_key_ne_text name content)
  case text.key content name => exact absurd same.symm (display_key_ne_text name content)
  case url.url literal other =>
    exact congrArg url (quoted_injective (by simpa [display] using same))
  case text.text content other => exact congrArg text (quoted_injective same)
  all_goals first | rfl | simp [display, quoted, quotedBy] at chars

theorem exists_head?_display (item : OutlineItem) :
    ∃ c, item.display.toList.head? = some c ∧ c ≠ ' ' := by
  cases item <;> exact ⟨_, by simp [display, quoted, quotedBy]; rfl, by decide⟩

def name? : OutlineItem → Option String
  | definition name | reference name => some name
  | _ => none

theorem lineFeed_not_mem_display {item : OutlineItem}
    (names : ∀ name ∈ item.name?, '\n' ∉ name.toList) : '\n' ∉ item.display.toList := by
  have digits : ∀ number, '\n' ∉ Nat.toDigits 10 number := Json.not_mem_digits rfl
  cases item with
  | definition name | reference name =>
      have plain : '\n' ∉ name.toList := names name rfl
      simp [display, plain]
  | route | response | format | key | arrayOf | url | text =>
      simp [display, lineFeed_not_mem_quoted, digits]

end OutlineItem

namespace OutlineLine

def chars (line : OutlineLine) : List Char :=
  List.replicate (2 * line.depth) ' ' ++ line.item.display.toList

theorem toList_display (line : OutlineLine) : line.display.toList = line.chars ++ ['\n'] := by
  simp [display, chars]

theorem chars_injective : Function.Injective chars := by
  rintro ⟨depth, item⟩ ⟨other, content⟩ same
  have spaces (count : Nat) : ∀ c ∈ List.replicate count ' ', (c == ' ') = true := by
    simp
  have headings (item : OutlineItem) : ∀ c ∈ item.display.toList.head?, (c == ' ') = false := by
    intro c member
    obtain ⟨first, head, other⟩ := item.exists_head?_display
    rw [head, Option.mem_some_iff] at member
    subst member
    simpa using other
  obtain ⟨indents, items⟩ := splits_unique (spaces _) (spaces _) (headings _) (headings _) same
  have depths : 2 * depth = 2 * other := by simpa using congrArg List.length indents
  obtain rfl : depth = other := by omega
  obtain rfl : item = content := OutlineItem.display_injective (String.toList_injective items)
  rfl

theorem lineFeed_not_mem_chars {line : OutlineLine}
    (names : ∀ name ∈ line.item.name?, '\n' ∉ name.toList) : '\n' ∉ line.chars := by
  simp [chars, OutlineItem.lineFeed_not_mem_display names]

end OutlineLine

def programOutline (program : List (Expr Origin)) : List OutlineLine :=
  program.flatMap (Expr.outline 0)

theorem toList_prettyAll (program : List (Expr Origin)) :
    (prettyAll program).toList =
      (programOutline program).flatMap fun line => line.chars ++ ['\n'] := by
  rw [prettyAll, String.toList_join, List.flatMap_map, programOutline, List.flatMap_assoc]
  congr
  funext expr
  rw [Expr.pretty, String.toList_join, List.flatMap_map]
  congr
  funext line
  exact line.toList_display

def Unbroken (lines : List OutlineLine) : Prop :=
  ∀ line ∈ lines, ∀ name ∈ line.item.name?, '\n' ∉ name.toList

theorem splitAtEach_prettyAll {program : List (Expr Origin)}
    (unbroken : Unbroken (programOutline program)) :
    splitAtEach '\n' (prettyAll program).toList =
      (programOutline program).map OutlineLine.chars ++ [[]] := by
  rw [toList_prettyAll]
  apply splitAtEach_flatMap
  intro line member
  exact OutlineLine.lineFeed_not_mem_chars (unbroken line member)

/-- The text has a line for each part in turn, two spaces further in at each level. -/
structure Outlines (text : String) (parts : List (Nat × OutlinePart Origin)) : Prop where
  lines : splitAtEach '\n' text.toList =
    parts.map (fun part => List.replicate (2 * part.1) ' ' ++ part.2.item.display.toList) ++ [[]]
  headings : ∀ part ∈ parts, ∃ c, part.2.item.display.toList.head? = some c ∧ c ≠ ' '

theorem programOutline_eq_parts (program : List (Expr Origin)) :
    programOutline program = (programParts program).map lineOf := by
  rw [programOutline, programParts, List.map_flatMap]
  congr
  funext expr
  exact expr.outline_eq_parts 0

theorem map_programParts (program : List (Expr Origin)) :
    (programParts program).map Prod.snd = (programVisits program).flatMap Visit.parts := by
  rw [programParts, programVisits, List.map_flatMap, List.flatMap_assoc]
  congr
  funext expr
  exact expr.map_parts 0 0 none

theorem outlines_prettyAll {program : List (Expr Origin)}
    (unbroken : Unbroken (programOutline program)) :
    Outlines (prettyAll program) (programParts program) where
  lines := by
    rw [splitAtEach_prettyAll unbroken, programOutline_eq_parts, List.map_map]
    rfl
  headings part _ := part.2.item.exists_head?_display

section Reading

def Below (depth : Nat) (lines : List OutlineLine) : Prop :=
  ∀ line ∈ lines.head?, line.depth < depth

theorem Below.mono {depth bound : Nat} {lines : List OutlineLine} (below : Below depth lines)
    (le : depth ≤ bound) : Below bound lines := by
  intro line member
  have := below line member
  omega

theorem Expr.head?_outline (expr : Expr Origin) (depth : Nat) (rest : List OutlineLine) :
    (expr.outline depth ++ rest).head? = some ⟨depth, expr.item⟩ := by
  cases expr <;> rfl

theorem Expr.kind_eq_of_item_eq {first : Expr Origin} {second : Expr Other}
    (same : first.item = second.item) : first.kind = second.kind := by
  cases first <;> cases second <;> first | rfl | cases same

theorem Expr.kind_eq_of_outline_eq {first : Expr Origin} {second : Expr Other} {depth : Nat}
    {rest more : List OutlineLine}
    (same : first.outline depth ++ rest = second.outline depth ++ more) :
    first.kind = second.kind := by
  have heads := congrArg List.head? same
  rw [first.head?_outline, second.head?_outline, Option.some.injEq, OutlineLine.mk.injEq] at heads
  exact kind_eq_of_item_eq heads.2

theorem Expr.outline_append_ne_text (expr : Expr Origin) (content : String) (depth : Nat)
    (rest more : List OutlineLine) :
    expr.outline depth ++ rest ≠ ⟨depth, .text content⟩ :: more := by
  intro same
  have heads := congrArg List.head? same
  rw [expr.head?_outline, List.head?_cons, Option.some.injEq, OutlineLine.mk.injEq] at heads
  cases expr <;> cases heads.2

theorem Format.below_outline (format : Format Origin) {depth : Nat} {rest : List OutlineLine}
    (below : Below depth rest) : Below (depth + 1) (format.outline depth ++ rest) := by
  match format with
  | .empty => exact below.mono (by omega)
  | .entry key value rest => simp [Format.outline, Below]

mutual

theorem Expr.outline_append_inj (first : Expr Origin) (second : Expr Other) {depth : Nat}
    {rest more : List OutlineLine} (below : Below (depth + 1) rest)
    (alsoBelow : Below (depth + 1) more)
    (same : first.outline depth ++ rest = second.outline depth ++ more) :
    first.erase = second.erase ∧ rest = more := by
  have further := below.mono (Nat.le_succ (depth + 1))
  have alsoFurther := alsoBelow.mono (Nat.le_succ (depth + 1))
  match first, second, Expr.kind_eq_of_outline_eq same with
  | .definition name value _, .definition other target _, _ =>
      obtain ⟨rfl, lines⟩ : name = other ∧
          value.outline (depth + 1) ++ rest = target.outline (depth + 1) ++ more := by
        simpa [Expr.outline] using same
      obtain ⟨values, rfl⟩ := value.outline_append_inj target further alsoFurther lines
      simp [values]
  | .route path value _, .route other target _, _ =>
      obtain ⟨rfl, lines⟩ : path = other ∧
          value.outline (depth + 1) ++ rest = target.outline (depth + 1) ++ more := by
        simpa [Expr.outline] using same
      obtain ⟨values, rfl⟩ := value.outline_append_inj target further alsoFurther lines
      simp [values]
  | .response path status value _, .response other number target _, _ =>
      obtain ⟨⟨rfl, rfl⟩, lines⟩ : (path = other ∧ status = number) ∧
          value.outline (depth + 1) ++ rest = target.outline (depth + 1) ++ more := by
        simpa [Expr.outline] using same
      obtain ⟨values, rfl⟩ := value.outline_append_inj target further alsoFurther lines
      simp [values]
  | .reference name _, .reference other _, _ =>
      obtain ⟨rfl, rfl⟩ : name = other ∧ rest = more := by simpa [Expr.outline] using same
      simp
  | .format entries _, .format others _, _ =>
      have lines : entries.outline (depth + 1) ++ rest = others.outline (depth + 1) ++ more := by
        simpa [Expr.outline] using same
      obtain ⟨formats, rfl⟩ := entries.outline_append_inj others below alsoBelow lines
      simp [formats]
  | .arrayOf element _, .arrayOf other _, _ =>
      have lines : element.outline (depth + 1) ++ rest = other.outline (depth + 1) ++ more := by
        simpa [Expr.outline] using same
      obtain ⟨elements, rfl⟩ := element.outline_append_inj other further alsoFurther lines
      simp [elements]
  | .url literal _, .url other _, _ =>
      obtain ⟨rfl, rfl⟩ : literal = other ∧ rest = more := by simpa [Expr.outline] using same
      simp

theorem Value.outline_append_inj (first : Value Origin) (second : Value Other) {depth : Nat}
    {rest more : List OutlineLine} (below : Below (depth + 1) rest)
    (alsoBelow : Below (depth + 1) more)
    (same : first.outline depth ++ rest = second.outline depth ++ more) :
    first.erase = second.erase ∧ rest = more := by
  match first, second with
  | .expr inner, .expr other =>
      obtain ⟨inners, rfl⟩ := inner.outline_append_inj other below alsoBelow same
      simp [inners]
  | .expr inner, .text content => exact absurd same (inner.outline_append_ne_text content _ _ _)
  | .text content, .expr inner =>
      exact absurd same.symm (inner.outline_append_ne_text content _ _ _)
  | .text content, .text other =>
      obtain ⟨rfl, rfl⟩ : content = other ∧ rest = more := by
        simpa [Value.outline] using same
      simp

/-- Where a format ends is seen from the depth of the line behind it. -/
theorem Format.outline_append_inj (first : Format Origin) (second : Format Other) {depth : Nat}
    {rest more : List OutlineLine} (below : Below depth rest) (alsoBelow : Below depth more)
    (same : first.outline depth ++ rest = second.outline depth ++ more) :
    first.erase = second.erase ∧ rest = more := by
  match first, second with
  | .empty, .empty => exact ⟨rfl, same⟩
  | .empty, .entry key _ _ =>
      have deep := below ⟨depth, .key key⟩ (by rw [show rest = _ from same]; rfl)
      simp at deep
  | .entry key _ _, .empty =>
      have deep := alsoBelow ⟨depth, .key key⟩ (by rw [show more = _ from same.symm]; rfl)
      simp at deep
  | .entry key value entries, .entry other target others =>
      obtain ⟨rfl, lines⟩ : key = other ∧
          value.outline (depth + 1) ++ (entries.outline depth ++ rest) =
            target.outline (depth + 1) ++ (others.outline depth ++ more) := by
        simpa [Format.outline] using same
      obtain ⟨values, later⟩ := value.outline_append_inj target
        ((entries.below_outline below).mono (Nat.le_succ (depth + 1)))
        ((others.below_outline alsoBelow).mono (Nat.le_succ (depth + 1))) lines
      obtain ⟨formats, rfl⟩ := entries.outline_append_inj others below alsoBelow later
      simp [values, formats]

end

theorem below_programOutline (program : List (Expr Origin)) : Below 1 (programOutline program) := by
  cases program with
  | nil => simp [programOutline, Below]
  | cons expr program =>
      intro line member
      rw [programOutline, List.flatMap_cons, expr.head?_outline, Option.mem_some_iff] at member
      subst member
      exact Nat.zero_lt_one

theorem programOutline_inj {first : List (Expr Origin)} {second : List (Expr Other)}
    (same : programOutline first = programOutline second) :
    first.map Expr.erase = second.map Expr.erase := by
  induction first generalizing second with
  | nil =>
      cases second with
      | nil => rfl
      | cons other second =>
          have heads := congrArg List.head? same
          rw [programOutline, programOutline, List.flatMap_cons, other.head?_outline] at heads
          cases heads
  | cons expr first ih =>
      cases second with
      | nil =>
          have heads := congrArg List.head? same
          rw [programOutline, programOutline, List.flatMap_cons, expr.head?_outline] at heads
          cases heads
      | cons other second =>
          obtain ⟨trees, later⟩ := expr.outline_append_inj other (below_programOutline first)
            (below_programOutline second) same
          rw [List.map_cons, List.map_cons, trees, ih later]

theorem prettyAll_inj {first : List (Expr Origin)} {second : List (Expr Other)}
    (unbroken : Unbroken (programOutline first)) (alsoUnbroken : Unbroken (programOutline second))
    (same : prettyAll first = prettyAll second) :
    first.map Expr.erase = second.map Expr.erase := by
  have lines := splitAtEach_prettyAll unbroken
  rw [same, splitAtEach_prettyAll alsoUnbroken, List.append_cancel_right_eq] at lines
  rw [List.map_inj_right fun _ _ chars => OutlineLine.chars_injective chars] at lines
  exact programOutline_inj lines.symm

end Reading

end AeSchema
