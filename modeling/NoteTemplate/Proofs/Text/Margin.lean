import Mathlib.Data.List.TakeWhile
import NoteTemplate.Text.Blank
import NoteTemplate.Text.Margin

/-! Cutting margins never goes beyond blanks: what stands behind the leading
blanks of a text stays, whether its front is cut or, if there is anything but
blanks in it, its end. -/
namespace NoteTemplate.Text

theorem isBlank_of_isInlineBlank {c : Char} (h : isInlineBlank c = true) : isBlank c = true := by
  simp only [isInlineBlank, Bool.or_eq_true, beq_iff_eq] at h
  rcases h with rfl | rfl <;> rfl

/-- A text without anything but blanks has nothing behind its leading blanks. -/
theorem trimStart_eq_nil_iff {cs : List Char} :
    trimStart cs = [] ↔ ∀ c ∈ cs, isBlank c = true := List.dropWhile_eq_nil_iff

theorem trimStart_append_of_blank {cs : List Char} (h : trimStart cs = []) (tail : List Char) :
    trimStart (cs ++ tail) = trimStart tail :=
  List.dropWhile_append_of_pos (trimStart_eq_nil_iff.mp h)

/-- A text that is not blank consists of leading blanks and a rest that begins
with another character. -/
theorem eq_append_of_trimStart_eq_cons {cs rest : List Char} {c : Char}
    (h : trimStart cs = c :: rest) :
    ∃ lead, trimStart lead = [] ∧ isBlank c = false ∧ cs = lead ++ c :: rest := by
  refine ⟨cs.takeWhile isBlank, ?_, ?_, ?_⟩
  · exact trimStart_eq_nil_iff.mpr fun d hd => List.mem_takeWhile_imp hd
  · have hHead := List.head?_dropWhile_not isBlank cs
    rw [show cs.dropWhile isBlank = c :: rest from h] at hHead
    simpa using hHead
  · rw [← h]
    exact (List.takeWhile_append_dropWhile ..).symm

theorem trimStart_append_cons {lead : List Char} (hLead : trimStart lead = []) {c : Char}
    (hc : isBlank c = false) (rest : List Char) : trimStart (lead ++ c :: rest) = c :: rest := by
  rw [trimStart_append_of_blank hLead]
  simp [trimStart, trimStartBy, hc]

/-- Dropping blanks in a line leaves what trimming leaves. -/
theorem trimStart_dropWhile_isInlineBlank (cs : List Char) :
    trimStart (cs.dropWhile isInlineBlank) = trimStart cs := by
  induction cs with
  | nil => rfl
  | cons c rest ih =>
      by_cases h : isInlineBlank c = true
      · simpa [trimStart, trimStartBy, h, isBlank_of_isInlineBlank h] using ih
      · simp [h]

/-- Dropping a line break leaves what trimming leaves. -/
theorem trimStart_of_dropLineBreak? {cs rest : List Char} (h : dropLineBreak? cs = some rest) :
    trimStart rest = trimStart cs := by
  unfold dropLineBreak? at h
  split at h
  · cases h
    simp [trimStart, trimStartBy, isBlank]
  · cases h
    simp [trimStart, trimStartBy, isBlank]
  · cases h

/-- Cutting the front of a text cuts leading blanks only. -/
theorem trimStart_cutMarginStart (cs : List Char) :
    trimStart (cutMarginStart cs) = trimStart cs := by
  simp only [cutMarginStart]
  cases h : dropLineBreak? (cs.dropWhile isInlineBlank) with
  | none => exact trimStart_dropWhile_isInlineBlank cs
  | some rest =>
      exact (trimStart_of_dropLineBreak? h).trans (trimStart_dropWhile_isInlineBlank cs)

theorem dropLineBreakBackwards_suffix (cs : List Char) : dropLineBreakBackwards cs <:+ cs := by
  unfold dropLineBreakBackwards
  split
  · exact ⟨['\n', '\r'], rfl⟩
  · exact ⟨['\n'], rfl⟩
  · exact List.suffix_refl _

/-- What is left when the end of a text is cut is a front of it. -/
theorem cutMarginEnd_isPrefix (cs : List Char) : cutMarginEnd cs <+: cs := by
  rw [← List.reverse_suffix]
  simp only [cutMarginEnd, List.reverse_reverse]
  exact (List.dropWhile_suffix _).trans
    ((dropLineBreakBackwards_suffix _).trans (List.dropWhile_suffix _))

theorem trimStart_cutMarginEnd_of_blank {cs : List Char} (h : trimStart cs = []) :
    trimStart (cutMarginEnd cs) = [] :=
  trimStart_eq_nil_iff.mpr fun c hc =>
    trimStart_eq_nil_iff.mp h c ((cutMarginEnd_isPrefix cs).subset hc)

/-- Dropping stops at a character that is not dropped, whatever stands behind it. -/
theorem dropWhile_append_cons_of_neg {p : Char → Bool} {c : Char} (hc : p c = false)
    (front back : List Char) :
    (front ++ c :: back).dropWhile p = front.dropWhile p ++ c :: back := by
  induction front with
  | nil => simp [hc]
  | cons d front ih =>
      by_cases hd : p d = true
      · simpa [hd] using ih
      · simp [hd]

/-- A line break at the end is dropped at the end only. -/
theorem dropLineBreakBackwards_append_cons {c : Char} (hc : isBlank c = false)
    (front back : List Char) :
    dropLineBreakBackwards (front ++ c :: back) = dropLineBreakBackwards front ++ c :: back := by
  have hBreak : c ≠ '\n' := by
    rintro rfl
    exact absurd hc (by decide)
  have hReturn : c ≠ '\r' := by
    rintro rfl
    exact absurd hc (by decide)
  match front with
  | [] => simp [dropLineBreakBackwards, hBreak]
  | [d] =>
      by_cases hd : d = '\n'
      · simp [dropLineBreakBackwards, hd, hReturn]
      · simp [dropLineBreakBackwards, hd]
  | d :: e :: front =>
      by_cases hd : d = '\n'
      · by_cases he : e = '\r'
        · simp [dropLineBreakBackwards, hd, he]
        · simp [dropLineBreakBackwards, hd, he]
      · simp [dropLineBreakBackwards, hd]

/-- Cutting the end of a text stops at the last character that is no blank. -/
theorem cutMarginEnd_append_cons {c : Char} (hc : isBlank c = false) (lead rest : List Char) :
    cutMarginEnd (lead ++ c :: rest) = lead ++ c :: cutMarginEnd rest := by
  have hInline : isInlineBlank c = false := by
    cases h : isInlineBlank c with
    | false => rfl
    | true => exact absurd (isBlank_of_isInlineBlank h) (by simp [hc])
  have hReverse : (lead ++ c :: rest).reverse = rest.reverse ++ c :: lead.reverse := by simp
  simp only [cutMarginEnd, hReverse]
  rw [dropWhile_append_cons_of_neg hInline, dropLineBreakBackwards_append_cons hc,
    dropWhile_append_cons_of_neg hInline]
  simp

/-- Two texts that differ in leading blanks only still do so when their ends
are cut and the same text is put behind them. -/
theorem trimStart_cutMarginEnd_append {cs ds : List Char} (h : trimStart cs = trimStart ds)
    (tail : List Char) :
    trimStart (cutMarginEnd cs ++ tail) = trimStart (cutMarginEnd ds ++ tail) := by
  cases hRest : trimStart cs with
  | nil =>
      rw [trimStart_append_of_blank (trimStart_cutMarginEnd_of_blank hRest),
        trimStart_append_of_blank (trimStart_cutMarginEnd_of_blank (h.symm.trans hRest))]
  | cons c rest =>
      obtain ⟨lead, hLead, hc, rfl⟩ := eq_append_of_trimStart_eq_cons hRest
      obtain ⟨other, hOther, _, rfl⟩ := eq_append_of_trimStart_eq_cons (h.symm.trans hRest)
      rw [cutMarginEnd_append_cons hc, cutMarginEnd_append_cons hc, List.append_assoc,
        List.append_assoc, List.cons_append, trimStart_append_cons hLead hc,
        trimStart_append_cons hOther hc]

/-- Texts that are trimmed alike are so in front of any other. -/
theorem trimStart_append_congr {cs ds : List Char} (h : trimStart cs = trimStart ds)
    (tail : List Char) : trimStart (cs ++ tail) = trimStart (ds ++ tail) := by
  cases hRest : trimStart cs with
  | nil => rw [trimStart_append_of_blank hRest, trimStart_append_of_blank (h.symm.trans hRest)]
  | cons c rest =>
      obtain ⟨lead, hLead, hc, rfl⟩ := eq_append_of_trimStart_eq_cons hRest
      obtain ⟨other, hOther, _, rfl⟩ := eq_append_of_trimStart_eq_cons (h.symm.trans hRest)
      rw [List.append_assoc, List.append_assoc, List.cons_append,
        trimStart_append_cons hLead hc, trimStart_append_cons hOther hc]

end NoteTemplate.Text

/-! The ink of a text: its characters other than blanks. Whatever is cut off at
the margins of a text is blank, so that no cut takes any ink. -/
namespace NoteTemplate.Text

/-- The characters of a text that are no blanks. -/
def ink (cs : List Char) : List Char := cs.filter fun c => !isBlank c

theorem ink_append (front back : List Char) : ink (front ++ back) = ink front ++ ink back :=
  List.filter_append ..

theorem ink_reverse (cs : List Char) : ink cs.reverse = (ink cs).reverse := List.filter_reverse ..

theorem ink_cons_of_isBlank {c : Char} (h : isBlank c = true) (rest : List Char) :
    ink (c :: rest) = ink rest := by
  simp [ink, h]

/-- Dropping blanks leaves the ink. -/
theorem ink_dropWhile {p : Char → Bool} (hBlank : ∀ c, p c = true → isBlank c = true)
    (cs : List Char) : ink (cs.dropWhile p) = ink cs := by
  induction cs with
  | nil => rfl
  | cons c rest ih =>
      by_cases hFirst : p c = true
      · rw [List.dropWhile_cons_of_pos hFirst, ih, ink_cons_of_isBlank (hBlank c hFirst)]
      · rw [List.dropWhile_cons_of_neg hFirst]

/-- Dropping a line break leaves the ink. -/
theorem ink_of_dropLineBreak? {cs rest : List Char} (h : dropLineBreak? cs = some rest) :
    ink rest = ink cs := by
  unfold dropLineBreak? at h
  split at h
  · cases h
    rfl
  · cases h
    rfl
  · cases h

theorem ink_cutMarginStart (cs : List Char) : ink (cutMarginStart cs) = ink cs := by
  have hInline : ink (cs.dropWhile isInlineBlank) = ink cs :=
    ink_dropWhile (fun _ => isBlank_of_isInlineBlank) cs
  simp only [cutMarginStart]
  cases hBreak : dropLineBreak? (cs.dropWhile isInlineBlank) with
  | none => exact hInline
  | some rest => exact (ink_of_dropLineBreak? hBreak).trans hInline

theorem ink_dropLineBreakBackwards (cs : List Char) : ink (dropLineBreakBackwards cs) = ink cs := by
  unfold dropLineBreakBackwards
  split
  · rfl
  · rfl
  · rfl

theorem ink_cutMarginEnd (cs : List Char) : ink (cutMarginEnd cs) = ink cs := by
  have hInline (cs : List Char) : ink (cs.dropWhile isInlineBlank) = ink cs :=
    ink_dropWhile (fun _ => isBlank_of_isInlineBlank) cs
  rw [cutMarginEnd, ink_reverse, hInline, ink_dropLineBreakBackwards, hInline, ink_reverse,
    List.reverse_reverse]

theorem ink_trim (cs : List Char) : ink (trim cs) = ink cs := by
  have hBlank (cs : List Char) : ink (cs.dropWhile isBlank) = ink cs := ink_dropWhile (fun _ h => h) cs
  rw [trim, trimBy, trimEndBy, trimStartBy, ink_reverse, hBlank, ink_reverse, List.reverse_reverse,
    hBlank]

theorem ink_strip (s : String) : ink (strip s).toList = ink s.toList := by
  rw [strip, String.toList_ofList, ink_trim]

/-- The line breaks between the turns of a loop hold no ink. -/
theorem ink_lines (texts : List String) :
    ink (String.intercalate "\n" texts).toList = texts.flatMap fun s => ink s.toList := by
  induction texts with
  | nil => rfl
  | cons first rest ih =>
      cases rest with
      | nil => simp
      | cons second rest =>
          have hBreak : ink "\n".toList = [] := by rfl
          rw [String.intercalate_cons_cons, String.toList_append, String.toList_append, ink_append,
            ink_append, hBreak, ih, List.append_nil]
          rfl

end NoteTemplate.Text
