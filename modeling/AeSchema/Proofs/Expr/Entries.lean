import AeSchema.Expr.Format

/-! Format objects made from a list of entries, one insertion after the other. -/

namespace AeSchema.Format

variable {Origin : Type} {format : Format Origin} {key : String} {value : Value Origin}
  {entry : String × Value Origin} {entries : List (String × Value Origin)}

def insertAll (format : Format Origin) (entries : List (String × Value Origin)) : Format Origin :=
  entries.foldl (fun format entry => format.insert entry.1 entry.2) format

def ofList (entries : List (String × Value Origin)) : Format Origin :=
  empty.insertAll entries

theorem isEmpty_iff : format.isEmpty = true ↔ format = empty := by
  cases format <;> simp [isEmpty]

theorem insertAll_cons (format : Format Origin) (key : String) (value : Value Origin)
    (entries : List (String × Value Origin)) :
    format.insertAll ((key, value) :: entries) = (format.insert key value).insertAll entries := rfl

theorem toList_injective {first second : Format Origin} (same : first.toList = second.toList) :
    first = second := by
  match first, second with
  | .empty, .empty => rfl
  | .empty, .entry .. => simp [toList] at same
  | .entry .., .empty => simp [toList] at same
  | .entry key value rest, .entry other content more =>
      simp only [toList, List.cons.injEq, Prod.mk.injEq] at same
      obtain ⟨⟨rfl, rfl⟩, later⟩ := same
      rw [toList_injective later]

theorem toList_insert_new {format : Format Origin} (fresh : key ∉ format.keys) :
    (format.insert key value).toList = format.toList ++ [(key, value)] := by
  match format with
  | .empty => rfl
  | .entry first old rest =>
      simp only [keys_entry, List.mem_cons, not_or] at fresh
      rw [insert, if_neg (Ne.symm fresh.1), toList, toList_insert_new fresh.2]
      rfl

theorem toList_insertAll_new (distinct : (format.keys ++ entries.map (·.1)).Nodup) :
    (format.insertAll entries).toList = format.toList ++ entries := by
  induction entries generalizing format with
  | nil => simp [insertAll]
  | cons entry entries ih =>
      obtain ⟨key, value⟩ := entry
      rw [List.map_cons, List.append_cons] at distinct
      have fresh : key ∉ format.keys := by
        have first := (List.nodup_append.mp distinct).1
        rw [List.nodup_append] at first
        intro member
        exact first.2.2 key member key (by simp) rfl
      rw [insertAll_cons, ih, toList_insert_new fresh, List.append_assoc, List.singleton_append]
      rw [keys_insert, if_neg fresh]
      exact distinct

theorem ofList_toList (distinct : format.keys.Nodup) : ofList format.toList = format := by
  apply toList_injective
  have unused : ((empty : Format Origin).keys ++ format.toList.map (·.1)).Nodup := distinct
  rw [ofList, toList_insertAll_new unused, toList, List.nil_append]

theorem mem_toList_insert {format : Format Origin}
    (member : entry ∈ (format.insert key value).toList) :
    entry = (key, value) ∨ entry ∈ format.toList := by
  match format with
  | .empty => simpa [insert, toList] using member
  | .entry first old rest =>
      rw [insert] at member
      split at member
      next same =>
        subst same
        simp only [toList, List.mem_cons] at member ⊢
        exact member.imp_right .inr
      next =>
        rw [toList, List.mem_cons] at member ⊢
        rcases member with here | later
        · exact .inr (.inl here)
        · exact (mem_toList_insert later).imp_right .inr

theorem mem_toList_insertAll (member : entry ∈ (format.insertAll entries).toList) :
    entry ∈ entries ∨ entry ∈ format.toList := by
  induction entries generalizing format with
  | nil => exact .inr member
  | cons first entries ih =>
      rcases ih member with later | before
      · exact .inl (List.mem_cons_of_mem first later)
      · exact (mem_toList_insert before).imp_left fun same => by simp [same]

theorem mem_of_mem_toList_ofList (member : entry ∈ (ofList entries).toList) : entry ∈ entries := by
  rcases mem_toList_insertAll member with inserted | before
  · exact inserted
  · simp [toList] at before

theorem insert_ne_empty : format.insert key value ≠ empty := by
  cases format with
  | empty => simp [insert]
  | entry first old rest =>
      rw [insert]
      split <;> simp

theorem insertAll_ne_empty (nonempty : format ≠ empty) : format.insertAll entries ≠ empty := by
  induction entries generalizing format with
  | nil => exact nonempty
  | cons entry entries ih => exact ih insert_ne_empty

theorem ofList_ne_empty (nonempty : entries ≠ []) : ofList entries ≠ empty := by
  cases entries with
  | nil => exact absurd rfl nonempty
  | cons entry entries =>
      show ((empty.insert entry.1 entry.2).insertAll entries) ≠ empty
      exact insertAll_ne_empty insert_ne_empty

theorem nodup_keys_insert (distinct : format.keys.Nodup) :
    (format.insert key value).keys.Nodup := by
  rw [keys_insert]
  split
  next => exact distinct
  next fresh =>
    rw [List.nodup_append]
    refine ⟨distinct, by simp, ?_⟩
    rintro other member _ added rfl
    rw [List.mem_singleton] at added
    exact fresh (added ▸ member)

theorem nodup_keys_insertAll (distinct : format.keys.Nodup) :
    (format.insertAll entries).keys.Nodup := by
  induction entries generalizing format with
  | nil => exact distinct
  | cons entry entries ih => exact ih (nodup_keys_insert distinct)

theorem nodup_keys_ofList : (ofList entries).keys.Nodup :=
  nodup_keys_insertAll List.nodup_nil

end AeSchema.Format
