import Mathlib.Data.List.Basic
import NoteTemplate.Text.Search

/-! Replacing the occurrences of a part in a text. Read from the front, the part
gives way to its replacement wherever the text begins with it, and the characters
in between stay. -/
namespace NoteTemplate.Text

/-- A text with every occurrence of a part replaced, taken from the left and
without overlaps. -/
inductive Substituted (part replacement : List Char) : List Char → List Char → Prop where
  | done : Substituted part replacement [] []
  | found {cs ds : List Char} : Substituted part replacement cs ds →
      Substituted part replacement (part ++ cs) (replacement ++ ds)
  | kept {c : Char} {cs ds : List Char} : ¬ part <+: c :: cs → Substituted part replacement cs ds →
      Substituted part replacement (c :: cs) (c :: ds)

theorem dropPrefix?_append (part cs : List Char) : dropPrefix? part (part ++ cs) = some cs := by
  induction part with
  | nil => rfl
  | cons p part ih => rw [List.cons_append, dropPrefix?, if_pos rfl, ih]

/-- A dropped prefix was there. -/
theorem eq_append_of_dropPrefix? {part cs after : List Char}
    (h : dropPrefix? part cs = some after) : part ++ after = cs := by
  induction part generalizing cs with
  | nil => exact (Option.some.inj h).symm
  | cons p part ih =>
      cases cs with
      | nil => cases h
      | cons c rest =>
          rw [dropPrefix?] at h
          split at h
          · next hSame => rw [hSame, List.cons_append, ih h]
          · cases h

section
variable {part : List Char}

/-- Where a text begins with the part, the search ends at once. -/
theorem cutAt?_append (hSome : part ≠ []) (cs : List Char) :
    cutAt? part (part ++ cs) = some ([], cs) := by
  obtain ⟨p, rest, rfl⟩ := List.exists_cons_of_ne_nil hSome
  have hDrop := dropPrefix?_append (p :: rest) cs
  rw [List.cons_append] at hDrop ⊢
  simp only [cutAt?, hDrop]

/-- Elsewhere it goes on behind the first character. -/
theorem cutAt?_cons {c : Char} {cs : List Char} (h : ¬ part <+: c :: cs) :
    cutAt? part (c :: cs) = (cutAt? part cs).map fun (before, after) => (c :: before, after) := by
  have hDrop : dropPrefix? part (c :: cs) = none := by
    cases hFound : dropPrefix? part (c :: cs) with
    | none => rfl
    | some after => exact absurd ⟨after, eq_append_of_dropPrefix? hFound⟩ h
  simp only [cutAt?, hDrop]

theorem splitAt_of_none {cs : List Char} (h : cutAt? part cs = none) : splitAt part cs = [cs] := by
  rw [splitAt]
  split
  · rfl
  · next hFound =>
      rw [h] at hFound
      cases hFound

/-- A text with a part in it is split there first. -/
theorem splitAt_of_some (hSome : part ≠ []) {cs before after : List Char}
    (h : cutAt? part cs = some (before, after)) :
    splitAt part cs = before :: splitAt part after := by
  rw [splitAt]
  split
  · next hNone =>
      rw [h] at hNone
      cases hNone
  · next hFound =>
      rw [h] at hFound
      cases hFound
      rw [dif_neg hSome]

variable (replacement : List Char)

theorem replaceAll_of_none {cs : List Char} (h : cutAt? part cs = none) :
    replaceAll part replacement cs = cs := by
  rw [replaceAll, splitAt_of_none h, List.intercalate_singleton]

/-- A text with a part in it has the part replaced, and the same is done behind it. -/
theorem replaceAll_of_some (hSome : part ≠ []) {cs before after : List Char}
    (h : cutAt? part cs = some (before, after)) :
    replaceAll part replacement cs =
      before ++ replacement ++ replaceAll part replacement after := by
  rw [replaceAll, splitAt_of_some hSome h, replaceAll]
  cases hLater : splitAt part after with
  | nil =>
      rw [splitAt] at hLater
      split at hLater
      · cases hLater
      · rw [dif_neg hSome] at hLater
        cases hLater
  | cons piece pieces => rw [List.intercalate_cons_cons, List.append_assoc]

theorem replaceAll_nil (hSome : part ≠ []) : replaceAll part replacement [] = [] := by
  refine replaceAll_of_none replacement ?_
  rw [cutAt?, if_neg (by simpa using hSome)]

theorem replaceAll_append (hSome : part ≠ []) (cs : List Char) :
    replaceAll part replacement (part ++ cs) = replacement ++ replaceAll part replacement cs :=
  replaceAll_of_some replacement hSome (cutAt?_append hSome cs)

/-- A character that no part begins with stays. -/
theorem replaceAll_cons (hSome : part ≠ []) {c : Char} {cs : List Char} (h : ¬ part <+: c :: cs) :
    replaceAll part replacement (c :: cs) = c :: replaceAll part replacement cs := by
  have hCut := cutAt?_cons h
  cases hLater : cutAt? part cs with
  | none =>
      rw [hLater] at hCut
      rw [replaceAll_of_none replacement hCut, replaceAll_of_none replacement hLater]
  | some found =>
      rw [hLater] at hCut
      rw [replaceAll_of_some replacement hSome hCut, replaceAll_of_some replacement hSome hLater]
      rfl

/-- Every text has its occurrences replaced. -/
theorem substituted_replaceAll (hSome : part ≠ []) (cs : List Char) :
    Substituted part replacement cs (replaceAll part replacement cs) := by
  -- Behind an occurrence the text goes on at its end, so the induction is on the length.
  induction hLength : cs.length using Nat.strongRecOn generalizing cs with
  | ind length ih =>
      cases cs with
      | nil =>
          rw [replaceAll_nil replacement hSome]
          exact .done
      | cons c cs =>
          by_cases hBegins : part <+: c :: cs
          · obtain ⟨after, hText⟩ := hBegins
            have hShorter : after.length < length := by
              have := List.length_pos_iff.mpr hSome
              rw [← hLength, ← hText, List.length_append]
              omega
            rw [← hText, replaceAll_append replacement hSome]
            exact .found (ih after.length hShorter after rfl)
          · have hShorter : cs.length < length := by
              rw [← hLength, List.length_cons]
              omega
            rw [replaceAll_cons replacement hSome hBegins]
            exact .kept hBegins (ih cs.length hShorter cs rfl)

/-- There is one text with the occurrences replaced. -/
theorem substituted_iff (hSome : part ≠ []) (cs ds : List Char) :
    Substituted part replacement cs ds ↔ replaceAll part replacement cs = ds := by
  constructor
  · intro h
    induction h with
    | done => exact replaceAll_nil replacement hSome
    | found _ ih => rw [replaceAll_append replacement hSome, ih]
    | kept hBegins _ ih => rw [replaceAll_cons replacement hSome hBegins, ih]
  · rintro rfl
    exact substituted_replaceAll replacement hSome cs

end

end NoteTemplate.Text
