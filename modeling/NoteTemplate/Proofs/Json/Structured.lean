import NoteTemplate.Proofs.Json.ReadBack

/-! The structure that a text stands for. JSON text begins with a bracket or a brace
exactly if its value is an array or an object, so looking at the first character
finds all of these and nothing else. -/
namespace NoteTemplate.Value

open Text Json

/-- Numbers are no containers. -/
theorem not_isContainer_of_readNumber? {negative : Bool} {cs rest : List Char} {v : Value}
    (h : readNumber? negative cs = some (v, rest)) : v.isContainer = false := by
  simp only [readNumber?, Option.bind_eq_bind, Option.bind_eq_some_iff] at h
  obtain ⟨⟨whole, behind⟩, _, hNumber⟩ := h
  dsimp only at hNumber
  split at hNumber
  · cases hNumber
    rfl
  · split at hNumber
    · cases hNumber
      rfl
    · split at hNumber
      · cases hNumber
      · cases hNumber
        rfl

/-- What is written as a name is no container. -/
theorem not_isContainer_of_readName? {cs rest : List Char} {v : Value}
    (h : readName? cs = some (v, rest)) : v.isContainer = false := by
  obtain ⟨⟨name, w⟩, hName, hFound⟩ := List.exists_of_findSome?_eq_some h
  obtain ⟨after, _, hSame⟩ := Option.map_eq_some_iff.mp hFound
  cases hSame
  have hNames : ∀ entry ∈ readName?.names, entry.2.isContainer = false := by
    simp [readName?.names, isContainer]
  exact hNames _ hName

/-- A number or a name is neither an array nor an object. -/
theorem not_isContainer_of_number_or_name {negative : Bool} {cs name rest : List Char} {v : Value}
    (h : (match readNumber? negative cs with
      | some found => some found
      | none => readName? name) = some (v, rest)) : v.isContainer = false := by
  split at h
  · next hNumber =>
      cases h
      exact not_isContainer_of_readNumber? hNumber
  · exact not_isContainer_of_readName? h

/-- The first character tells whether an array or an object is read. -/
theorem isContainer_of_readValue? {fuel : Nat} {c : Char} {cs rest : List Char} {v : Value}
    (h : readValue? fuel (c :: cs) = some (v, rest)) :
    v.isContainer = true ↔ c = '[' ∨ c = '\x7b' := by
  cases fuel with
  | zero => cases h
  | succ fuel =>
      unfold readValue? at h
      split at h
      · next hText =>
          obtain ⟨found, _, hFound⟩ := Option.map_eq_some_iff.mp h
          cases hText
          cases hFound
          simp [isContainer]
      · next hText =>
          cases hText
          split at h
          · cases h
            simp [isContainer]
          · obtain ⟨found, _, hFound⟩ := Option.map_eq_some_iff.mp h
            cases hFound
            simp [isContainer]
      · next hText =>
          cases hText
          split at h
          · cases h
            simp [isContainer]
          · obtain ⟨found, _, hFound⟩ := Option.map_eq_some_iff.mp h
            cases hFound
            simp [isContainer]
      · next hText =>
          cases hText
          simp [not_isContainer_of_number_or_name h]
      · next hNoBracket hNoBrace _ =>
          have hBracket : c ≠ '[' := fun hSame => hNoBracket cs (by rw [hSame])
          have hBrace : c ≠ '\x7b' := fun hSame => hNoBrace cs (by rw [hSame])
          simp [not_isContainer_of_number_or_name h, hBracket, hBrace]

theorem isBlank_of_isSpace {c : Char} (h : isSpace c = true) : isBlank c = true := by
  simp only [isSpace, Bool.or_eq_true, beq_iff_eq] at h
  rcases h with ((rfl | rfl) | rfl) | rfl <;> rfl

theorem skipSpace_of_not_isBlank {c : Char} (h : isBlank c = false) (cs : List Char) :
    skipSpace (c :: cs) = c :: cs := by
  have hSpace : ¬ isSpace c = true := fun hSpace => by simp [isBlank_of_isSpace hSpace] at h
  rw [skipSpace, List.dropWhile_cons_of_neg hSpace]

/-- The structure of a text is its value as JSON, blanks at its ends apart, if that is
an array or an object; any other text stands for itself. -/
theorem ofStructured_eq (s : String) :
    ofStructured s = ((ofJson? (strip s)).filter isContainer).getD (.str s) := by
  have hText : (strip s).toList = trim s.toList := by rw [strip, String.toList_ofList]
  have hSolid := solid_strip s
  rw [ofStructured, ofJson?, hText]
  cases hTrim : trim s.toList with
  | nil => rfl
  | cons c cs =>
      have hSpace : skipSpace (c :: cs) = c :: cs :=
        skipSpace_of_not_isBlank (hSolid.begins c (by rw [hText, hTrim]; rfl)) cs
      show (if c = '[' ∨ c = '\x7b' then (Json.read? (c :: cs)).getD (.str s) else .str s) =
        ((Json.read? (c :: cs)).filter isContainer).getD (.str s)
      cases hRead : Json.read? (c :: cs) with
      | none => exact ite_self _
      | some v =>
          have hFirst : v.isContainer = true ↔ c = '[' ∨ c = '\x7b' := by
            rw [Json.read?, hSpace] at hRead
            split at hRead
            · next hValue =>
                split at hRead
                · cases hRead
                  exact isContainer_of_readValue? hValue
                · cases hRead
            · cases hRead
          cases hContainer : v.isContainer with
          | true =>
              rw [if_pos (hFirst.mp hContainer), Option.filter_some_pos hContainer]
          | false =>
              have hNeither : ¬ (c = '[' ∨ c = '\x7b') := fun hBegin =>
                Bool.false_ne_true (hContainer.symm.trans (hFirst.mpr hBegin))
              rw [if_neg hNeither, Option.filter_some_neg hContainer]
              rfl

end NoteTemplate.Value
