import AeSchema.Command.Request
import AeSchema.Proofs.Files.Sources

/-! How a command line asks for a verb on a file: flags may stand in front of the verb, and behind
it on either side of the file, each at most once in front of the verb and once behind it. -/

namespace AeSchema.Command

open Files

def Flag.word : Flag → Word
  | plain => utf8 "--plain"
  | verbose => utf8 "-v"
  | json => utf8 "--json"
  | version => utf8 "--version"
  | help => utf8 "--help"

def Verb.onFile (json : Bool) (file : Path) : Verb → Action
  | tokens => .tokens file json
  | ast => .ast file json
  | check => .check file

def commandLine (outer : List Flag) (verb : Verb) (before : List Flag) (file : Word)
    (after : List Flag) : List Word :=
  outer.map Flag.word ++ utf8 verb.name :: (before.map Flag.word ++ file :: after.map Flag.word)

structure Verb.Takes (verb : Verb) (outer inner : List Flag) : Prop where
  outerNodup : outer.Nodup
  innerNodup : inner.Nodup
  outerAllowed : ∀ flag ∈ outer, flag = .plain ∨ flag = .verbose
  innerAllowed : ∀ flag ∈ inner, flag ∈ verb.allowed ∧ flag ≠ .help

theorem ofWord_of_head? {word : Word} (start : word.head? ≠ some hyphen) :
    Argument.ofWord word = .value word := by
  unfold Argument.ofWord
  split
  next => rfl
  next => rfl
  next first second rest =>
    have other : first ≠ hyphen := by simpa using start
    rw [if_pos other]

theorem Flag.ofWord_word (flag : Flag) : Argument.ofWord flag.word = .flags [some flag] := by
  cases flag <;> decide +kernel

theorem Verb.ofWord_name (verb : Verb) :
    Argument.ofWord (utf8 verb.name) = .value (utf8 verb.name) ∧
      Verb.ofWord? (utf8 verb.name) = some verb := by
  cases verb <;> decide +kernel

section Flags

variable {allowed set flags : List Flag} {rest : List Word}

theorem setFlags_singleton {flag : Flag} (listed : flag ∈ allowed)
    (noQuestion : flag ≠ .version ∧ flag ≠ .help) (fresh : flag ∉ set) :
    setFlags allowed set [some flag] = .ok (flag :: set) := by
  simp [setFlags, listed, noQuestion, fresh]

theorem fresh_cons {flag : Flag} (nodup : (flag :: flags).Nodup)
    (fresh : ∀ other ∈ flag :: flags, other ∉ set) : ∀ other ∈ flags, other ∉ flag :: set := by
  rw [List.nodup_cons] at nodup
  intro other member
  rw [List.mem_cons, not_or]
  exact ⟨fun same => nodup.1 (same ▸ member), fresh other (List.mem_cons_of_mem flag member)⟩

theorem parseOuter_words (allowed : ∀ flag ∈ flags, flag = .plain ∨ flag = .verbose)
    (nodup : flags.Nodup) (fresh : ∀ flag ∈ flags, flag ∉ set) :
    parseOuter set (flags.map Flag.word ++ rest) = parseOuter (flags.reverse ++ set) rest := by
  induction flags generalizing set with
  | nil => rfl
  | cons flag flags ih =>
      have more := fresh_cons nodup fresh
      rw [List.forall_mem_cons] at allowed fresh
      have found : setFlags [.plain, .verbose, .version, .help] set [some flag] =
          .ok (flag :: set) := by
        rcases allowed.1 with rfl | rfl
        · exact setFlags_singleton (by decide) (by decide) fresh.1
        · exact setFlags_singleton (by decide) (by decide) fresh.1
      rw [List.map_cons, List.cons_append, parseOuter, Flag.ofWord_word]
      simp only [found]
      rw [ih allowed.2 nodup.of_cons more]
      simp

theorem parseArguments_words {verb : Verb} {outer : List Flag} {value? : Option Word}
    (allowed : ∀ flag ∈ flags, flag ∈ verb.allowed ∧ flag ≠ .help) (nodup : flags.Nodup)
    (fresh : ∀ flag ∈ flags, flag ∉ set) :
    verb.parseArguments outer set value? (flags.map Flag.word ++ rest) =
      verb.parseArguments outer (flags.reverse ++ set) value? rest := by
  induction flags generalizing set with
  | nil => rfl
  | cons flag flags ih =>
      have more := fresh_cons nodup fresh
      rw [List.forall_mem_cons] at allowed fresh
      have noVersion : flag ≠ .version := by
        rintro rfl
        cases verb <;> exact absurd allowed.1.1 (by decide)
      have found := setFlags_singleton allowed.1.1 ⟨noVersion, allowed.1.2⟩ fresh.1
      rw [List.map_cons, List.cons_append, Verb.parseArguments, Flag.ofWord_word]
      simp only [found]
      rw [ih allowed.2 nodup.of_cons more]
      simp

end Flags

theorem parseArguments_file {verb : Verb} {outer set : List Flag} {file : Word}
    {rest : List Word} (nonempty : file ≠ []) (start : file.head? ≠ some hyphen) :
    verb.parseArguments outer set none (file :: rest) =
      verb.parseArguments outer set (some file) rest := by
  rw [Verb.parseArguments, ofWord_of_head? start]
  simp only [setValue, Option.isSome_none, Bool.false_eq_true, nonempty, or_self, if_false]

theorem invocation_file (verb : Verb) (outer inner : List Flag) (file : Word) :
    verb.invocation outer inner (some file) =
      .run ⟨.plain ∈ outer ++ inner, .verbose ∈ outer ++ inner,
        verb.onFile (.json ∈ inner) ⟨file⟩⟩ := by
  cases verb <;> rfl

theorem ofArguments_commandLine {file : Word} {verb : Verb} {outer before after : List Flag}
    (takes : verb.Takes outer (before ++ after)) (nonempty : file ≠ [])
    (start : file.head? ≠ some hyphen) :
    Invocation.ofArguments (commandLine outer verb before file after) =
      .run ⟨.plain ∈ outer ++ (before ++ after), .verbose ∈ outer ++ (before ++ after),
        verb.onFile (.json ∈ before ++ after) ⟨file⟩⟩ := by
  obtain ⟨beforeAllowed, afterAllowed⟩ := List.forall_mem_append.mp takes.innerAllowed
  obtain ⟨beforeNodup, afterNodup, apart⟩ := List.nodup_append.mp takes.innerNodup
  have fresh : ∀ flag ∈ after, flag ∉ before.reverse ++ [] := by
    intro flag later earlier
    rw [List.append_nil, List.mem_reverse] at earlier
    exact apart flag earlier flag later rfl
  rw [Invocation.ofArguments, commandLine,
    parseOuter_words takes.outerAllowed takes.outerNodup (by simp), parseOuter, verb.ofWord_name.1]
  simp only [verb.ofWord_name.2]
  rw [parseArguments_words beforeAllowed beforeNodup (by simp), parseArguments_file nonempty start,
    ← List.append_nil (after.map Flag.word), parseArguments_words afterAllowed afterNodup fresh,
    Verb.parseArguments, invocation_file]
  simp [or_comm]

end AeSchema.Command
