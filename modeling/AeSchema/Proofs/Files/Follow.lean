import AeSchema.Proofs.Files.Sources

/-! Where paths end: a path to a file ends in a name, so only a lone hyphen is both the path of a
file and the sign for standard input. -/

namespace AeSchema.Files

open Text

def EndsNamed (segments : List (List UInt8)) : Prop :=
  ∀ last ∈ segments.getLast?, last ≠ [] ∧ last ≠ FileName.here

theorem endsNamed_cons {segment : List UInt8} {rest : List (List UInt8)} (later : EndsNamed rest)
    (alone : rest = [] → segment ≠ [] ∧ segment ≠ FileName.here) : EndsNamed (segment :: rest) := by
  cases rest with
  | nil => simpa [EndsNamed] using alone rfl
  | cons next rest => simpa [EndsNamed, List.getLast?_cons_cons] using later

theorem endsNamed_of_append {front rest : List (List UInt8)} (named : EndsNamed (front ++ rest)) :
    EndsNamed rest := by
  intro last member
  apply named
  rw [List.getLast?_append, Option.mem_def.mp member]
  rfl

inductive FollowStep
    (onLink : Trail → Path → List (List UInt8) → Except SystemError Place)
    (trail : Trail) (segment : List UInt8) (rest : List (List UInt8)) (place : Place) : Prop
  | stay : segment = [] ∨ segment = FileName.here → follow onLink trail rest = .ok place →
      FollowStep onLink trail segment rest place
  | up : segment = FileName.parent → follow onLink trail.up rest = .ok place →
      FollowStep onLink trail segment rest place
  | link {target} : segment ≠ [] ∧ segment ≠ FileName.here →
      trail.current.find? segment = some (.link target) →
      onLink trail target rest = .ok place → FollowStep onLink trail segment rest place
  | down {entries} : segment ≠ [] ∧ segment ≠ FileName.here →
      trail.current.find? segment = some (.directory entries) →
      follow onLink (trail.down entries) rest = .ok place →
      FollowStep onLink trail segment rest place
  | file {content} : segment ≠ [] ∧ segment ≠ FileName.here →
      trail.current.find? segment = some (.file content) → rest = [] →
      place = .file content → FollowStep onLink trail segment rest place

section Follow

variable {onLink : Trail → Path → List (List UInt8) → Except SystemError Place}
  {trail : Trail} {segment : List UInt8} {rest : List (List UInt8)} {place : Place}
  {content : ByteArray}

theorem followStep_of_ok (found : follow onLink trail (segment :: rest) = .ok place) :
    FollowStep onLink trail segment rest place := by
  rw [follow] at found
  split at found
  next blank => exact .stay blank found
  next named =>
    rw [not_or] at named
    split at found
    next parent => exact .up parent found
    next =>
      split at found
      next => cases found
      next =>
        split at found
        next => cases found
        next isLink => exact .link named isLink found
        next isDirectory => exact .down named isDirectory found
        next isFile =>
          split at found
          next last =>
            cases found
            exact .file named isFile last rfl
          next => cases found

theorem follow_endsNamed
    (linked : ∀ trail target rest, onLink trail target rest = .ok (.file content) → EndsNamed rest)
    (trail : Trail) (segments : List (List UInt8))
    (found : follow onLink trail segments = .ok (.file content)) : EndsNamed segments := by
  induction segments generalizing trail with
  | nil => simp [EndsNamed]
  | cons segment rest ih =>
      cases followStep_of_ok found with
      | stay blank found =>
          apply endsNamed_cons (ih trail found)
          rintro rfl
          simp [follow] at found
      | up parent found =>
          apply endsNamed_cons (ih trail.up found)
          rintro -
          rw [parent]
          exact ⟨by decide, by decide⟩
      | link named _ found => exact endsNamed_cons (linked trail _ rest found) fun _ => named
      | down named _ found => exact endsNamed_cons (ih _ found) fun _ => named
      | file named _ last =>
          apply endsNamed_cons _ fun _ => named
          simp [last, EndsNamed]

theorem followLinks_endsNamed (links : Nat) (trail : Trail) (segments : List (List UInt8))
    (found : followLinks links trail segments = .ok (.file content)) : EndsNamed segments := by
  induction links generalizing trail segments with
  | zero =>
      apply follow_endsNamed _ trail segments found
      intro trail target rest impossible
      cases impossible
  | succ links ih =>
      apply follow_endsNamed _ trail segments found
      intro trail target rest linked
      exact endsNamed_of_append (ih _ _ linked)

theorem followLinks_of_resolve {system : System} {path : Path} {place : Place}
    (resolved : system.resolve path = .ok place) :
    followLinks linkLimit (path.startTrail system.trail) path.segments = .ok place := by
  unfold System.resolve at resolved
  split at resolved
  next => cases resolved
  next =>
    split at resolved
    next => cases resolved
    next =>
      split at resolved
      next => cases resolved
      next => exact resolved

theorem eq_hyphen_of_resolve {system : System} {path : Path} (isHyphen : path.isHyphen = true)
    (resolved : system.resolve path = .ok (.file content)) : path = .ofString "-" := by
  obtain ⟨rest, segments, blank⟩ := Path.isHyphen_iff.mp isHyphen
  have named := followLinks_endsNamed linkLimit _ _ (followLinks_of_resolve resolved)
  have alone : rest = [] := by
    rcases List.eq_nil_or_concat rest with empty | ⟨front, last, rfl⟩
    · exact empty
    · rw [segments] at named
      obtain ⟨nonempty, elsewhere⟩ := named last (by simp [List.getLast?_cons])
      rcases blank last (by simp) with empty | here
      · exact absurd empty nonempty
      · exact absurd here elsewhere
  have bytes : [slash].intercalate path.segments = path.bytes :=
    intercalate_splitAtEach slash path.bytes
  rw [segments, alone] at bytes
  obtain ⟨own⟩ := path
  rw [Path.ofString, utf8_hyphen, Path.mk.injEq]
  simpa using bytes.symm

end Follow

end AeSchema.Files
