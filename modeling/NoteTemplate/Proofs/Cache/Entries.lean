import Mathlib.Data.List.Nodup
import NoteTemplate.Assoc

/-! Entries under keys as pairs. While no key occurs twice, what is found under
a key is the pair that has it. -/
namespace NoteTemplate.Assoc

variable {κ α : Type} [DecidableEq κ] {entries : Assoc κ α} {key other : κ} {entry : α}

theorem mem_of_get? (h : Assoc.get? entries key = some entry) : (key, entry) ∈ entries := by
  obtain ⟨⟨found, e⟩, hFind, rfl⟩ := Option.map_eq_some_iff.mp h
  have hKey : found = key := by simpa using List.find?_some hFind
  exact hKey ▸ List.mem_of_find?_eq_some hFind

theorem get?_eq_none_iff : Assoc.get? entries key = none ↔ key ∉ entries.map Prod.fst := by
  simp only [Assoc.get?, Option.map_eq_none_iff, List.find?_eq_none, List.mem_map, not_exists, not_and,
    beq_iff_eq]

/-- When no key is doubled, a lookup gives any entry there is. -/
theorem get?_of_mem (hKeys : (entries.map Prod.fst).Nodup) (h : (key, entry) ∈ entries) :
    Assoc.get? entries key = some entry := by
  cases hFound : Assoc.get? entries key with
  | none => exact absurd (List.mem_map_of_mem h) (get?_eq_none_iff.mp hFound)
  | some found =>
      have hSame : (key, found) = (key, entry) :=
        List.inj_on_of_nodup_map hKeys (mem_of_get? hFound) h rfl
      rw [(Prod.mk.inj hSame).2]

/-- Storing an entry adds its key behind the others, if it is new. -/
theorem keys_set (entries : Assoc κ α) (key : κ) (entry : α) :
    (Assoc.set entries key entry).map Prod.fst =
      if key ∈ entries.map Prod.fst then entries.map Prod.fst else entries.map Prod.fst ++ [key] := by
  induction entries with
  | nil => rfl
  | cons field rest ih =>
      rw [Assoc.set]
      by_cases hKey : field.1 = key
      · simp [hKey]
      · have hOther : key ≠ field.1 := Ne.symm hKey
        rw [if_neg hKey, List.map_cons, ih]
        by_cases hRest : key ∈ rest.map Prod.fst
        · rw [if_pos hRest, if_pos (by rw [List.map_cons]; exact List.mem_cons_of_mem _ hRest)]
          rfl
        · rw [if_neg hRest, List.map_cons, if_neg, List.cons_append]
          exact fun hMem => (List.mem_cons.mp hMem).elim hOther hRest

/-- Putting an entry doubles no key. -/
theorem nodup_keys_set (hKeys : (entries.map Prod.fst).Nodup) (key : κ) (entry : α) :
    ((Assoc.set entries key entry).map Prod.fst).Nodup := by
  rw [keys_set]
  split
  · exact hKeys
  · next hNew =>
    rw [← List.concat_eq_append]
    exact hKeys.concat hNew

omit [DecidableEq κ] in
theorem nodup_keys_filter (hKeys : (entries.map Prod.fst).Nodup) (keep : κ × α → Bool) :
    ((entries.filter keep).map Prod.fst).Nodup :=
  hKeys.sublist ((List.filter_sublist).map Prod.fst)

/-- Storing an entry adds nothing else. -/
theorem mem_of_mem_set {stored : α} (h : (other, stored) ∈ Assoc.set entries key entry) :
    other = key ∧ stored = entry ∨ (other, stored) ∈ entries := by
  induction entries with
  | nil => exact .inl (Prod.mk.inj (List.mem_singleton.mp h))
  | cons field rest ih =>
      rw [Assoc.set] at h
      split at h
      · exact (List.mem_cons.mp h).imp Prod.mk.inj (List.mem_cons_of_mem _)
      · rcases List.mem_cons.mp h with hFirst | hRest
        · exact .inr (List.mem_cons.mpr (.inl hFirst))
        · exact (ih hRest).imp_right (List.mem_cons_of_mem _)

/-- What is there behind a new entry: the entry itself, and the old ones under
other keys. -/
theorem mem_set_iff (hKeys : (entries.map Prod.fst).Nodup) {stored : α} :
    (other, stored) ∈ Assoc.set entries key entry ↔
      other = key ∧ stored = entry ∨ other ≠ key ∧ (other, stored) ∈ entries := by
  have hSet := nodup_keys_set hKeys key entry
  have hGet : Assoc.get? (Assoc.set entries key entry) other = some stored ↔
      other = key ∧ stored = entry ∨ other ≠ key ∧ Assoc.get? entries other = some stored := by
    rw [get?_set]
    by_cases hKey : other = key
    · simp [hKey, eq_comm]
    · simp [hKey]
  constructor
  · intro hMem
    exact (hGet.mp (get?_of_mem hSet hMem)).imp_right fun h => ⟨h.1, mem_of_get? h.2⟩
  · intro h
    exact mem_of_get? (hGet.mpr (h.imp_right fun h => ⟨h.1, get?_of_mem hKeys h.2⟩))

section Chosen

variable {keep : κ → Bool}

/-- Among the entries chosen by their keys these are found as ever. -/
theorem get?_filter (hKeep : keep key = true) :
    Assoc.get? (entries.filter fun field => keep field.1) key = Assoc.get? entries key := by
  have hSame : (fun field : κ × α => decide (keep field.1 = true ∧ (field.1 == key) = true)) =
      fun field => field.1 == key := by
    funext field
    by_cases hKey : field.1 = key
    · simp [hKey, hKeep]
    · simp [hKey]
  rw [Assoc.get?, Assoc.get?, List.find?_filter, hSame]

/-- Storing an entry is storing it among the chosen ones, if it is one of them. -/
theorem filter_set : (Assoc.set entries key entry).filter (fun field => keep field.1) =
    if keep key then Assoc.set (entries.filter fun field => keep field.1) key entry
    else entries.filter fun field => keep field.1 := by
  induction entries with
  | nil => cases hKeep : keep key <;> simp [Assoc.set, hKeep]
  | cons field rest ih =>
      by_cases hKey : field.1 = key
      · cases hKeep : keep key <;> simp [Assoc.set, hKey, hKeep]
      · cases hKeep : keep key <;> cases hField : keep field.1 <;>
          simp [Assoc.set, hKey, hField, ih, hKeep]

end Chosen

end NoteTemplate.Assoc
