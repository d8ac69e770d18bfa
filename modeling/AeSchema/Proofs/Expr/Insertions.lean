import AeSchema.Proofs.Expr.Entries
import Mathlib.Data.List.Induction

/-! Runs of insertions into a format object. The keys stand where they first came, each with the
value that came last. -/

namespace AeSchema

theorem eraseDups_concat {α : Type} [BEq α] [LawfulBEq α] (items : List α) (item : α) :
    (items ++ [item]).eraseDups =
      if item ∈ items then items.eraseDups else items.eraseDups ++ [item] := by
  rw [List.eraseDups_append, List.removeAll]
  by_cases known : item ∈ items
  · simp [known]
  · simp [known, List.eraseDups_cons]

namespace Format

variable {Origin : Type} {format : Format Origin} {key : String} {value : Value Origin}
  {entries before : List (String × Value Origin)}

def exchangeAll (format : Format Origin) :
    List (String × Value Origin) → List (Option (Value Origin)) × Format Origin
  | [] => ([], format)
  | (key, value) :: rest =>
      let (replaced?, format) := format.exchange key value
      let (results, format) := format.exchangeAll rest
      (replaced? :: results, format)

theorem exchangeAll_cons (format : Format Origin) (key : String) (value : Value Origin)
    (entries : List (String × Value Origin)) :
    format.exchangeAll ((key, value) :: entries) =
      (format.get? key :: ((format.insert key value).exchangeAll entries).1,
        ((format.insert key value).exchangeAll entries).2) := by
  rw [exchangeAll, exchange_eq]

theorem exchangeAll_snd (format : Format Origin) (entries : List (String × Value Origin)) :
    (format.exchangeAll entries).2 = format.insertAll entries := by
  induction entries generalizing format with
  | nil => rfl
  | cons entry entries ih =>
      obtain ⟨key, value⟩ := entry
      rw [exchangeAll_cons, ih, insertAll_cons]

theorem ofList_concat (entries : List (String × Value Origin)) (key : String)
    (value : Value Origin) :
    ofList (entries ++ [(key, value)]) = (ofList entries).insert key value := by
  simp [ofList, insertAll]

theorem keys_ofList (entries : List (String × Value Origin)) :
    (ofList entries).keys = (entries.map (·.1)).eraseDups := by
  induction entries using List.reverseRecOn with
  | nil => rfl
  | append_singleton entries entry ih =>
      obtain ⟨key, value⟩ := entry
      rw [ofList_concat, keys_insert, ih, List.map_append, List.map_singleton, eraseDups_concat]
      simp only [List.mem_eraseDups]

theorem get?_ofList (entries : List (String × Value Origin)) (key : String) :
    (ofList entries).get? key = entries.reverse.lookup key := by
  induction entries using List.reverseRecOn with
  | nil => rfl
  | append_singleton entries entry ih =>
      obtain ⟨other, value⟩ := entry
      rw [ofList_concat, get?_insert, ih, List.reverse_append, List.reverse_singleton,
        List.singleton_append, List.lookup_cons]
      by_cases same : other = key
      · simp [same]
      · have different : (key == other) = false := by simpa using Ne.symm same
        simp [same, different]

theorem getElem?_exchangeAll (before entries : List (String × Value Origin)) (index : Nat) :
    ((ofList before).exchangeAll entries).1[index]? =
      entries[index]?.map fun entry => (before ++ entries.take index).reverse.lookup entry.1 := by
  induction entries generalizing before index with
  | nil => rfl
  | cons entry entries ih =>
      obtain ⟨key, value⟩ := entry
      rw [exchangeAll_cons, get?_ofList, ← ofList_concat]
      cases index with
      | zero => simp
      | succ index => simp [ih]

theorem isEmpty_iff_keys : format.isEmpty = true ↔ format.keys = [] := by
  cases format with
  | empty => simp [isEmpty]
  | entry => simp [isEmpty]

theorem toList_eq_get? {format : Format Origin} (distinct : format.keys.Nodup) :
    (format.toList.map fun entry => (entry.1, some entry.2)) =
      format.keys.map fun key => (key, format.get? key) := by
  match format with
  | .empty => rfl
  | .entry first value rest =>
      rw [keys_entry, List.nodup_cons] at distinct
      rw [toList, List.map_cons, toList_eq_get? distinct.2, keys_entry, List.map_cons, get?,
        if_pos rfl, List.cons.injEq]
      refine ⟨rfl, List.map_congr_left fun key member => ?_⟩
      have other : first ≠ key := by
        rintro rfl
        exact distinct.1 member
      rw [get?, if_neg other]

theorem getElem?_keys_insert {other : String} (different : other ≠ key) (index : Nat) :
    (format.insert key value).keys[index]? = some other ↔ format.keys[index]? = some other := by
  rw [keys_insert]
  split
  next => exact Iff.rfl
  next =>
    by_cases inside : index < format.keys.length
    · rw [List.getElem?_append_left inside]
    · have outside : format.keys.length ≤ index := Nat.le_of_not_lt inside
      rw [List.getElem?_append_right outside, List.getElem?_eq_none outside]
      cases index - format.keys.length with
      | zero => simpa using Ne.symm different
      | succ index => simp

/-- After any run of insertions, the keys are those inserted, in the order in which they first came,
each has the value that came last, and each insertion of the run has told what it replaced. One more
insertion leaves all other keys where they are and with their values. -/
theorem exchangeAll_ordered (entries : List (String × Value Origin)) :
    let format := ((empty : Format Origin).exchangeAll entries).2
    let replaced := ((empty : Format Origin).exchangeAll entries).1
    format.keys = (entries.map (·.1)).eraseDups ∧ format.keys.Nodup ∧
    (∀ key, format.get? key = entries.reverse.lookup key) ∧
    (∀ index, replaced[index]? =
      entries[index]?.map fun entry => (entries.take index).reverse.lookup entry.1) ∧
    format.size = format.keys.length ∧ (format.isEmpty = true ↔ format.keys = []) ∧
    (format.toList.map fun entry => (entry.1, some entry.2)) =
      (format.keys.map fun key => (key, format.get? key)) ∧
    ∀ key value other, other ≠ key →
      (format.exchange key value).2.get? other = format.get? other ∧
      ∀ index : Nat, (format.exchange key value).2.keys[index]? = some other ↔
        format.keys[index]? = some other := by
  intro format replaced
  have built : format = ofList entries := exchangeAll_snd empty entries
  have keys : format.keys = (entries.map (·.1)).eraseDups := built ▸ keys_ofList entries
  have distinct : format.keys.Nodup := built ▸ nodup_keys_ofList
  refine ⟨keys, distinct, ?_, ?_, ?_, isEmpty_iff_keys, toList_eq_get? distinct, ?_⟩
  · intro key
    rw [built, get?_ofList]
  · intro index
    exact getElem?_exchangeAll [] entries index
  · rw [size, Format.keys, List.length_map]
  · intro key value other different
    rw [exchange_eq]
    refine ⟨?_, getElem?_keys_insert different⟩
    rw [get?_insert, if_neg (Ne.symm different)]

theorem exchangeAll_ordered_sample :
    let run := (empty : Format Unit).exchangeAll
      [("b", .text "1"), ("a", .text "2"), ("b", .text "3")]
    run.1 = [none, none, some (.text "1")] ∧
    run.2.toList = [("b", .text "3"), ("a", .text "2")] ∧
    (run.2.exchange "b" (.text "4")).2.get? "a" = some (.text "2") ∧
    (run.2.exchange "b" (.text "4")).2.keys[1]? = some "a" := by
  intro run
  have different : "a" ≠ "b" := by decide
  obtain ⟨-, -, -, -, -, -, -, kept⟩ :=
    @exchangeAll_ordered Unit [("b", .text "1"), ("a", .text "2"), ("b", .text "3")]
  obtain ⟨value, place⟩ := kept "b" (.text "4") "a" different
  exact ⟨by decide, by decide, value.trans (by decide), (place 1).mpr (by decide)⟩

end Format

end AeSchema
