import NoteTemplate.Text.Blank

/-! Texts with no blank at their ends. Trimming cuts nothing off them, and they
can be put one behind the other. -/
namespace NoteTemplate

open Text

theorem isBlank_of_toNat {c : Char} (hLow : 32 < c.toNat) (hHigh : c.toNat < 0x80) :
    isBlank c = false := by
  simp [isBlank]
  omega

/-- No blank stands at the end of a text. -/
def SolidEnd (s : String) : Prop := ∀ c ∈ s.toList.getLast?, isBlank c = false

theorem solidEnd_of_forall {s : String} (h : ∀ c ∈ s.toList, isBlank c = false) : SolidEnd s :=
  fun c hLast => h c (List.mem_of_getLast? hLast)

/-- Two texts that end in no blank do so together. -/
theorem SolidEnd.append {s t : String} (hFirst : SolidEnd s) (hSecond : SolidEnd t) :
    SolidEnd (s ++ t) := by
  intro c hLast
  rw [String.toList_append, Option.mem_def, List.getLast?_append] at hLast
  cases hEnd : t.toList.getLast? with
  | none =>
      rw [hEnd, Option.none_or] at hLast
      exact hFirst c hLast
  | some d =>
      rw [hEnd, Option.some_or, Option.some.injEq] at hLast
      exact hSecond c (by rw [hEnd, hLast]; rfl)

theorem trimEndBy_isPrefix (p : Char → Bool) (cs : List Char) : trimEndBy p cs <+: cs := by
  rw [trimEndBy, ← List.reverse_suffix, List.reverse_reverse]
  exact List.dropWhile_suffix p

/-- What is behind the trimmed end of a text is blank. -/
theorem exists_trimEnd_append (cs : List Char) :
    ∃ blanks, cs = trimEnd cs ++ blanks ∧ ∀ c ∈ blanks, isBlank c = true := by
  refine ⟨(cs.reverse.takeWhile isBlank).reverse, ?_, fun c hMem => ?_⟩
  · rw [trimEnd, trimEndBy, ← List.reverse_append, List.takeWhile_append_dropWhile,
      List.reverse_reverse]
  · exact List.all_eq_true.mp List.all_takeWhile c (List.mem_reverse.mp hMem)

/-- What trimming cuts off is blank. -/
theorem exists_trim (cs : List Char) : ∃ front back, cs = front ++ trim cs ++ back ∧
    (∀ c ∈ front, isBlank c = true) ∧ ∀ c ∈ back, isBlank c = true := by
  obtain ⟨back, hBack, hBlank⟩ := exists_trimEnd_append (trimStart cs)
  refine ⟨cs.takeWhile isBlank, back, ?_, fun c hMem => ?_, hBlank⟩
  · rw [List.append_assoc, show trim cs = trimEnd (trimStart cs) from rfl, ← hBack]
    exact List.takeWhile_append_dropWhile.symm
  · exact List.all_eq_true.mp List.all_takeWhile c hMem

theorem strip_ofList (cs : List Char) : strip (String.ofList cs) = String.ofList (trim cs) := by
  rw [strip, String.toList_ofList]

theorem not_of_mem_getLast?_trimEndBy (p : Char → Bool) (cs : List Char) :
    ∀ c ∈ (trimEndBy p cs).getLast?, p c = false := by
  intro c hLast
  rw [trimEndBy, List.getLast?_reverse] at hLast
  have hHead := List.head?_dropWhile_not p cs.reverse
  rwa [Option.mem_def.mp hLast] at hHead

theorem solidEnd_trimEnd (cs : List Char) : SolidEnd (String.ofList (trimEnd cs)) := by
  intro c hLast
  rw [String.toList_ofList] at hLast
  exact not_of_mem_getLast?_trimEndBy isBlank cs c hLast

/-- No blank stands at either end of a text. -/
structure Solid (s : String) : Prop where
  begins : ∀ c ∈ s.toList.head?, isBlank c = false
  ends : SolidEnd s

theorem solid_of_forall {s : String} (h : ∀ c ∈ s.toList, isBlank c = false) : Solid s :=
  ⟨fun c hHead => h c (List.mem_of_head? hHead), solidEnd_of_forall h⟩

/-- Two texts without blanks at their ends have none together. -/
theorem Solid.append {s t : String} (hFirst : Solid s) (hSecond : Solid t) : Solid (s ++ t) := by
  refine ⟨fun c hHead => ?_, hFirst.ends.append hSecond.ends⟩
  rw [String.toList_append, Option.mem_def, List.head?_append] at hHead
  cases hBegin : s.toList.head? with
  | none =>
      rw [hBegin, Option.none_or] at hHead
      exact hSecond.begins c hHead
  | some d =>
      rw [hBegin, Option.some_or, Option.some.injEq] at hHead
      exact hFirst.begins c (by rw [hBegin, hHead]; rfl)

theorem solid_empty : Solid "" := solid_of_forall (by simp)

/-- A single character other than a blank. -/
theorem solid_singleton {c : Char} (h : isBlank c = false) : Solid (String.ofList [c]) := by
  refine solid_of_forall fun d hMem => ?_
  rw [String.toList_ofList, List.mem_singleton] at hMem
  rwa [hMem]

/-- Texts without blanks at their ends have none in a row, with a separator like them.
-/
theorem solid_intercalate {separator : String} (hSeparator : Solid separator)
    {parts : List String} (hParts : ∀ part ∈ parts, Solid part) :
    Solid (String.intercalate separator parts) := by
  cases parts with
  | nil => exact solid_empty
  | cons first parts =>
      induction parts generalizing first with
      | nil => simpa using hParts first (by simp)
      | cons second parts ih =>
          have hLater := ih second fun part hMem => hParts part (List.mem_cons_of_mem first hMem)
          rw [String.intercalate_cons_cons]
          exact ((hParts first (by simp)).append hSeparator).append hLater

/-- A text between two characters that are no blanks has none at its ends. -/
theorem solid_between {s : String} {first last : Char} {inside : List Char}
    (hText : s.toList = first :: (inside ++ [last])) (hFirst : isBlank first = false)
    (hLast : isBlank last = false) : Solid s := by
  constructor
  · intro c hHead
    rw [hText, List.head?_cons, Option.mem_some_iff] at hHead
    rw [← hHead]
    exact hFirst
  · intro c hEnd
    rw [hText, ← List.cons_append, List.getLast?_append, List.getLast?_singleton, Option.some_or,
      Option.mem_some_iff] at hEnd
    rw [← hEnd]
    exact hLast

theorem dropWhile_eq_self {p : Char → Bool} {cs : List Char} (h : ∀ c ∈ cs.head?, p c = false) :
    cs.dropWhile p = cs := by
  cases cs with
  | nil => rfl
  | cons c rest => rw [List.dropWhile_cons_of_neg (by simp [h c rfl])]

/-- Nothing is cut off the ends of a text without blanks there. -/
theorem Solid.trim_eq {s : String} (h : Solid s) : trim s.toList = s.toList := by
  have hFront : trimStartBy isBlank s.toList = s.toList := dropWhile_eq_self h.begins
  have hBack : s.toList.reverse.dropWhile isBlank = s.toList.reverse := by
    refine dropWhile_eq_self fun c hHead => h.ends c ?_
    rwa [List.getLast?_eq_head?_reverse]
  rw [trim, trimBy, hFront, trimEndBy, hBack, List.reverse_reverse]

theorem Solid.strip_eq {s : String} (h : Solid s) : strip s = s := by
  rw [strip, h.trim_eq, String.ofList_toList]

/-- A stripped text has no blanks at its ends. -/
theorem solid_strip (s : String) : Solid (strip s) := by
  refine ⟨fun c hHead => ?_, solidEnd_trimEnd (trimStart s.toList)⟩
  obtain ⟨cut, hCut⟩ := trimEndBy_isPrefix isBlank (trimStart s.toList)
  rw [strip, String.toList_ofList] at hHead
  have hFront : c ∈ (trimStart s.toList).head? := by
    rw [← hCut, List.head?_append, Option.mem_def, Option.or_eq_some_iff]
    exact .inl hHead
  have hFirst := List.head?_dropWhile_not isBlank s.toList
  rwa [show (s.toList.dropWhile isBlank).head? = some c from hFront] at hFirst

/-- Trimming leaves exactly the texts alone that have no blank at their ends. -/
theorem strip_eq_self_iff {s : String} : strip s = s ↔ Solid s :=
  ⟨fun h => h ▸ solid_strip s, Solid.strip_eq⟩

/-- A text that is not blank at both ends is not all blank. -/
theorem Solid.not_all_isBlank {s : String} (h : Solid s) (hSome : s ≠ "") :
    s.toList.all isBlank = false := by
  cases hText : s.toList with
  | nil => exact absurd (String.toList_eq_nil_iff.mp hText) hSome
  | cons c rest =>
      have hHead : isBlank c = false := h.begins c (by rw [hText]; rfl)
      rw [List.all_cons, hHead, Bool.false_and]

end NoteTemplate
