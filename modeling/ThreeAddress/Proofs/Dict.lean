import Mathlib.Tactic.Common
import Mathlib.Data.List.Nodup
import ThreeAddress.Dict

/-!
# Looking up entries

What `Dict.get?` finds after each operation on a dictionary.
-/

namespace ThreeAddress

namespace Dict

variable {α : Type}

/-- In a dictionary with distinct keys, every entry is found under its key. -/
theorem get?_of_mem {d : Dict α} (hkeys : d.keys.Nodup) {k : Text} {v : α}
    (h : (k, v) ∈ d.entries) :
  d.get? k = some v
  := by
  have hsome : (d.entries.find? (·.1 == k)).isSome := by
    rw [List.find?_isSome]
    use (k, v), h
    simp
  obtain ⟨e, he⟩ := Option.isSome_iff_exists.mp hsome
  have hkey : e.1 = k := by simpa using List.find?_some he
  have heq : e = (k, v) := by
    apply List.inj_on_of_nodup_map hkeys (List.mem_of_find?_eq_some he) h hkey
  rw [get?, he, heq]
  rfl

@[simp]
theorem get?_empty (k : Text) :
  (∅ : Dict α).get? k = none
  := rfl

theorem contains_eq_isSome (d : Dict α) (k : Text) :
  d.contains k = (d.get? k).isSome
  := by
  rw [contains, get?, Option.isSome_map, Bool.eq_iff_iff, List.any_eq_true, List.find?_isSome]

theorem get?_cons (e : Text × α) (es : List (Text × α)) (k : Text) :
  (⟨e :: es⟩ : Dict α).get? k = if e.1 = k then some e.2 else (⟨es⟩ : Dict α).get? k
  := by
  rw [get?, List.find?_cons]
  split
  · next h => rw [if_pos (beq_iff_eq.mp h), Option.map_some]
  · next h =>
    rw [if_neg (by simpa using h)]
    rfl

/-- What is found after the value under `k` was replaced in every entry that has this key. -/
theorem get?_replace (es : List (Text × α)) (k : Text) (v : α) (k' : Text) :
  (⟨es.map fun e => if e.1 == k then (k, v) else e⟩ : Dict α).get? k'
    = if k = k' then ((⟨es⟩ : Dict α).get? k').map fun _ => v else (⟨es⟩ : Dict α).get? k'
  := by
  induction es with
  | nil => simp [get?]
  | cons e es ih =>
      rw [List.map_cons, get?_cons, get?_cons, ih]
      by_cases he : e.1 = k
      · by_cases hk : k = k'
        · simp [he, hk]
        · simp [he, hk]
      · by_cases hk : k = k'
        · have hk' : ¬ e.1 = k' := by
            rw [← hk]
            apply he
          simp [hk, hk']
        · simp [he, hk]

/-- What is found after an insertion: the new value under its key, and what was there before under
every other key. -/
theorem get?_insert (d : Dict α) (k : Text) (v : α) (k' : Text) :
  (d.insert k v).get? k' = if k = k' then some v else d.get? k'
  := by
  have hmem := d.contains_eq_isSome k
  rw [insert]
  split
  · next h =>
    rw [h] at hmem
    obtain ⟨w, hw⟩ := Option.isSome_iff_exists.mp hmem.symm
    rw [get?_replace]
    split
    · next hk =>
      rw [← hk, hw]
      rfl
    · rfl
  · next h =>
    rw [Bool.not_eq_true] at h
    rw [h, eq_comm, Option.isSome_eq_false_iff, Option.isNone_iff_eq_none, get?,
      Option.map_eq_none_iff] at hmem
    rw [get?, get?, List.find?_append]
    split
    · next hk =>
      rw [← hk, hmem]
      simp
    · next hk => simp [hk]

@[simp]
theorem get?_insert_self (d : Dict α) (k : Text) (v : α) :
  (d.insert k v).get? k = some v
  := by
  rw [get?_insert, if_pos rfl]

theorem get?_insert_of_ne (d : Dict α) {k k' : Text} (v : α) (h : k ≠ k') :
  (d.insert k v).get? k' = d.get? k'
  := by
  rw [get?_insert, if_neg h]

theorem get?_adjust (d : Dict α) (k : Text) (start : α) (f : α → α) (k' : Text) :
  (d.adjust k start f).get? k' = if k = k' then some (f ((d.get? k').getD start)) else d.get? k'
  := by
  rw [adjust, get?_insert]
  split
  · next h => rw [h]
  · rfl

theorem get?_erase (d : Dict α) (k k' : Text) :
  (d.erase k).get? k' = if k = k' then none else d.get? k'
  := by
  rw [get?, erase, List.find?_filter]
  split
  · next h =>
    subst h
    rw [Option.map_eq_none_iff, List.find?_eq_none]
    intro e _
    simp
  · next h =>
    rw [get?]
    congr 2
    funext e
    by_cases he : e.1 = k'
    · simp [he, Ne.symm h]
    · simp [he]

/-- An entry of the dictionary of a list stands in the list. -/
theorem mem_of_get?_ofList {es : List (Text × α)} {k : Text} {v : α}
    (h : (ofList es).get? k = some v) :
  (k, v) ∈ es
  := by
  have hmain : ∀ d : Dict α, (es.foldl (fun d e => d.insert e.1 e.2) d).get? k = some v →
      (k, v) ∈ es ∨ d.get? k = some v := by
    clear h
    induction es with
    | nil =>
        intro d h
        right
        apply h
    | cons e es ih =>
        intro d h
        obtain h | h := ih _ h
        · left
          apply List.mem_cons_of_mem _ h
        · rw [get?_insert] at h
          split at h
          · next hk =>
            left
            rw [← hk, ← Option.some.inj h]
            apply List.mem_cons_self
          · right
            apply h
  obtain h | h := hmain ∅ h
  · apply h
  · cases h

theorem entries_insert_of_notMem {d : Dict α} {k : Text} (v : α) (h : k ∉ d.keys) :
  (d.insert k v).entries = d.entries ++ [(k, v)]
  := by
  have hnot : d.contains k = false := by
    rw [contains, List.any_eq_false]
    intro e he hkey
    apply h
    rw [← beq_iff_eq.mp hkey]
    apply List.mem_map_of_mem he
  rw [insert, hnot]
  rfl

/-- The dictionary of a list with distinct keys has the entries of the list. -/
theorem entries_ofList {es : List (Text × α)} (h : (es.map (·.1)).Nodup) :
  (ofList es).entries = es
  := by
  have hmain : ∀ d : Dict α, (d.keys ++ es.map (·.1)).Nodup →
      (es.foldl (fun d e => d.insert e.1 e.2) d).entries = d.entries ++ es := by
    clear h
    induction es with
    | nil => simp
    | cons e es ih =>
        intro d hd
        have hnot : e.1 ∉ d.keys := by
          intro hmem
          apply (List.nodup_append.mp hd).2.2 _ hmem e.1 (by simp) rfl
        have hinsert := entries_insert_of_notMem e.2 hnot
        have hkeys : (d.insert e.1 e.2).keys = d.keys ++ [e.1] := by
          rw [keys, hinsert, List.map_append]
          rfl
        rw [List.foldl_cons, ih, hinsert, List.append_assoc]
        · rfl
        · rw [hkeys, List.append_assoc]
          apply hd
  apply hmain ∅
  apply h

/-- What is found in the dictionary of a list with distinct keys. -/
theorem get?_ofList_iff {es : List (Text × α)} (h : (es.map (·.1)).Nodup) {k : Text} {v : α} :
  (ofList es).get? k = some v ↔ (k, v) ∈ es
  := by
  constructor
  · apply mem_of_get?_ofList
  · intro hmem
    rw [← entries_ofList h] at hmem h
    apply get?_of_mem h hmem

end Dict

end ThreeAddress
