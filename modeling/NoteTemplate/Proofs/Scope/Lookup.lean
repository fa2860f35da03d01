import NoteTemplate.Proofs.RoundTrip.Lexemes
import NoteTemplate.Proofs.Scope.Keys
import NoteTemplate.Proofs.Text.Solid
import NoteTemplate.Selector

/-! Looking a name up of which the check knows nothing. When the variables keep
to the names that the check allows, neither the name nor the first step of the
path that it may write leads anywhere. -/
namespace NoteTemplate

open Text Token

/-- A name as it stands in an expression: it begins as names do, and no blank
ends it. -/
structure Readable (name : String) : Prop where
  begins : ∃ c rest, name.toList = c :: rest ∧ isNameStart c = true
  ends : SolidEnd name

/-- A name as it stands in front of an assignment or behind the word of a loop:
a question to the page, or name characters only. -/
def Assignable (name : String) : Prop :=
  SelectorQuery.isName name = true ∨ Expr.isNameText name.toList = true

/-- No template can assign a name in braces. -/
theorem not_assignable_wrapped (name : String) : ¬ Assignable (Value.wrapped name) := by
  have hBrace : (Value.wrapped name).toList =
      '\x7b' :: '\x7b' :: (name.toList ++ ['\x7d', '\x7d']) := by
    simp [Value.wrapped]
  rintro (hMarked | hChars)
  · simp [SelectorQuery.isName, hBrace, startsWith, SelectorQuery.textMark,
      SelectorQuery.htmlMark] at hMarked
  · simp [hBrace, Expr.isNameText, show isNameStart '\x7b' = false from rfl] at hChars

/-- A name with neither brackets nor braces. -/
def Unbracketed (name : String) : Prop :=
  ∀ c ∈ name.toList, c ≠ '[' ∧ c ≠ ']' ∧ c ≠ '\x7b' ∧ c ≠ '\x7d'

theorem isBlank_of_isNameStart {c : Char} (h : isNameStart c = true) : isBlank c = false := by
  have hRange := isNameStart_toNat h
  exact isBlank_of_toNat (by omega) hRange.2

/-- Nothing is cut off the ends of a name. -/
theorem Readable.strip_eq {name : String} (h : Readable name) : strip name = name := by
  obtain ⟨c, rest, hName, hStart⟩ := h.begins
  have hSolid : Solid name := by
    refine ⟨fun d hHead => ?_, h.ends⟩
    rw [hName, List.head?_cons, Option.mem_some_iff] at hHead
    rw [← hHead]
    exact isBlank_of_isNameStart hStart
  exact hSolid.strip_eq

theorem startsWith_append {part cs : List Char} (h : startsWith part cs = true)
    (more : List Char) : startsWith part (cs ++ more) = true := by
  rw [startsWith, List.isPrefixOf_iff_prefix] at h ⊢
  exact h.trans (List.prefix_append cs more)

/-- The first part of a split text stands in front of the first separator. -/
theorem splitOnChar_eq_cons (sep : Char) (cs : List Char) :
    ∃ later, splitOnChar sep cs = cs.takeWhile (· ≠ sep) :: later := by
  induction cs with
  | nil => exact ⟨[], rfl⟩
  | cons c rest ih =>
      obtain ⟨later, hRest⟩ := ih
      rw [splitOnChar, hRest]
      by_cases hSep : c = sep
      · exact ⟨rest.takeWhile (· ≠ sep) :: later, by simp [hSep]⟩
      · exact ⟨later, by simp [hSep]⟩

/-- A text that is not cut has no separator. -/
theorem cutAtChar?_eq_none {sep : Char} {cs : List Char} (h : cutAtChar? sep cs = none) :
    cs.takeWhile (· ≠ sep) = cs := by
  induction cs with
  | nil => rfl
  | cons c rest ih =>
      rw [cutAtChar?] at h
      split at h
      · cases h
      · next hSep =>
        rw [Option.map_eq_none_iff] at h
        rw [List.takeWhile_cons_of_pos (by simpa using hSep), ih h]

/-- A text is cut at the first separator. -/
theorem cutAtChar?_eq_some {sep : Char} {cs before after : List Char}
    (h : cutAtChar? sep cs = some (before, after)) :
    before = cs.takeWhile (· ≠ sep) ∧ cs = before ++ sep :: after := by
  induction cs generalizing before with
  | nil => cases h
  | cons c rest ih =>
      rw [cutAtChar?] at h
      split at h
      · next hSep =>
        cases h
        exact ⟨by simp [hSep], by rw [hSep, List.nil_append]⟩
      · next hSep =>
        simp only [Option.map_eq_some_iff, Prod.mk.injEq, Prod.exists] at h
        obtain ⟨inner, outer, hCut, rfl, rfl⟩ := h
        obtain ⟨hInner, hRest⟩ := ih hCut
        refine ⟨?_, by rw [List.cons_append, ← hRest]⟩
        rw [List.takeWhile_cons_of_pos (by simpa using hSep), ← hInner]

/-- The first step of a path is a key, which then is all of the part in front of
the first point, or it has a base in front of its brackets. -/
theorem stepsOf_cases (path : String) : ∃ first later, Value.stepsOf path = first :: later ∧
    let part := path.toList.takeWhile (· ≠ '.')
    ((first = .key (String.ofList part) ∧ ('[' ∈ part ∨ part = part.takeWhile (· ≠ '['))) ∨
      ∃ inner, first = .index (String.ofList (part.takeWhile (· ≠ '['))) inner) := by
  obtain ⟨later, hSplit⟩ := splitOnChar_eq_cons '.' path.toList
  refine ⟨_, _, by rw [Value.stepsOf, hSplit, List.map_cons], ?_⟩
  intro part
  rw [Value.Step.ofChars]
  split
  · next base rest hCut =>
    obtain ⟨hBase, hPart⟩ := cutAtChar?_eq_some hCut
    have hMem : '[' ∈ part := by
      show '[' ∈ path.toList.takeWhile (· ≠ '.')
      rw [hPart]
      simp
    split
    · split
      · exact .inl ⟨rfl, .inl hMem⟩
      · exact .inr ⟨_, by rw [hBase]⟩
    · exact .inl ⟨rfl, .inl hMem⟩
  · next hCut => exact .inl ⟨rfl, .inr (cutAtChar?_eq_none hCut).symm⟩

/-- A name under which no variable is. -/
theorem get_eq_null {vars : Variables} {name : String} (h : .text name ∉ vars.map Prod.fst) :
    Variables.get vars name = Datum.null := by
  have hNone : Assoc.get? vars (.text name) = none := by
    rw [Assoc.get?, Option.map_eq_none_iff, List.find?_eq_none]
    intro entry hEntry hKey
    exact h (List.mem_map.mpr ⟨entry, hEntry, by simpa using hKey⟩)
  rw [Variables.get, hNone]
  rfl

namespace Validate

/-- What the check knows of a name that it reports. -/
structure Unknown (known scope : List String) (name : String) : Prop where
  unquoted : startsWith ['"'] name.toList = false
  unmarked : ∀ mark ∈ specialMarks, startsWith mark.toList name.toList = false
  notKnown : name ∉ known
  notAssigned : name ∉ scope
  baseNotKnown : baseName name ∉ known
  baseNotAssigned : baseName name ∉ scope
  baseNotLoop : baseName name ≠ "loop"

theorem unknown_of_isKnown {known scope : List String} {name : String}
    (h : isKnown known scope name = false) : Unknown known scope name := by
  simp only [isKnown, Bool.or_eq_false_iff, List.any_eq_false, List.contains_eq_mem,
    decide_eq_false_iff_not, beq_eq_false_iff_ne, Bool.not_eq_true] at h
  obtain ⟨⟨⟨⟨hQuote, hMarks⟩, hKnown⟩, hScope⟩, ⟨hBaseKnown, hBaseScope⟩, hBaseLoop⟩ := h
  exact ⟨hQuote, hMarks, hKnown, hScope, hBaseKnown, hBaseScope, hBaseLoop⟩

end Validate

namespace Render

open Validate

variable {known scope : List String}

/-- No template assigns a name in braces. -/
theorem not_allowed_wrapped (hKnown : ∀ n ∈ known, Unbracketed n)
    (hScope : ∀ n ∈ scope, Assignable n) {name : String} (hAbsent : name ∉ known) :
    ¬ Allowed known scope (.text (Value.wrapped name)) := by
  have hBrace : (Value.wrapped name).toList = '\x7b' :: '\x7b' :: (name.toList ++ ['\x7d', '\x7d']) := by
    simp [Value.wrapped]
  generalize hText : Value.wrapped name = text at hBrace
  generalize hKey : Key.text text = key
  intro h
  cases h with
  | @known n hMem =>
      cases hKey
      have hFirst := hKnown text hMem '\x7b' (by simp [hBrace])
      exact hFirst.2.2.1 rfl
  | @wrapped n hMem =>
      injection hKey with hWrapped
      have hName : name = n := by
        rw [← hText] at hWrapped
        simpa [Value.wrapped] using hWrapped
      exact hAbsent (hName ▸ hMem)
  | @assigned n hMem =>
      cases hKey
      exact not_assignable_wrapped name (hText ▸ hScope text hMem)
  | loop =>
      injection hKey with hLoop
      rw [hLoop] at hBrace
      cases hBrace

/-- A name that is neither known nor assigned is no key of the variables. -/
theorem not_allowed_plain {name : String} {c : Char} {rest : List Char}
    (hName : name.toList = c :: rest) (hStart : isNameStart c = true) (hKnown : name ∉ known)
    (hScope : name ∉ scope) (hLoop : name ≠ "loop") : ¬ Allowed known scope (.text name) := by
  generalize hKey : Key.text name = key
  intro h
  cases h with
  | known hMem =>
      cases hKey
      exact hKnown hMem
  | @wrapped n hMem =>
      injection hKey with hWrapped
      have hBrace : '\x7b' = c := by
        have hHead := congrArg List.head? (hWrapped ▸ hName)
        simpa [Value.wrapped] using hHead
      rw [← hBrace] at hStart
      cases hStart
  | assigned hMem =>
      cases hKey
      exact hScope hMem
  | loop =>
      injection hKey with hText
      exact hLoop hText

/-- A name that begins as names do and is neither known nor assigned leads to
no variable, in braces or without. -/
theorem field_eq_null {vars : Variables} (hKeys : KeysWithin known scope vars)
    (hPlain : ∀ n ∈ known, Unbracketed n) (hScope : ∀ n ∈ scope, Assignable n) {name : String}
    {c : Char} {rest : List Char} (hName : name.toList = c :: rest) (hStart : isNameStart c = true)
    (hNotKnown : name ∉ known) (hNotAssigned : name ∉ scope) (hNotLoop : name ≠ "loop") :
    Variables.field vars name = Datum.null := by
  have hWrapped : Variables.get vars (Value.wrapped name) = Datum.null :=
    get_eq_null fun hMem => not_allowed_wrapped hPlain hScope hNotKnown (hKeys _ hMem)
  have hBare : Variables.get vars name = Datum.null :=
    get_eq_null fun hMem =>
      not_allowed_plain hName hStart hNotKnown hNotAssigned hNotLoop (hKeys _ hMem)
  rw [Variables.field, hWrapped, hBare]
  rfl

theorem follow_null (steps : List Value.Step) : Value.follow .null steps = .ok .null := by
  cases steps <;> rfl

/-- A path whose first step leads nowhere leads nowhere. -/
theorem walk_of_step {vars : Variables} {path : String} {first : Value.Step}
    {later : List Value.Step} (hSteps : Value.stepsOf path = first :: later)
    (hFirst : Variables.step vars first = .ok Datum.null) :
    Variables.walk vars path = .ok Datum.null := by
  rw [Variables.walk, hSteps]
  split
  · rfl
  · simp only [hFirst]
    show (Value.follow .null later).bind (fun v => .ok (Datum.plain v)) = .ok Datum.null
    rw [follow_null]
    rfl

/-- A name in brackets is assigned by questions to the page only. -/
theorem isName_of_mem_bracket {name : String} (h : Assignable name) (hBracket : '[' ∈ name.toList) :
    SelectorQuery.isName name = true := by
  rcases h with hMarked | hChars
  · exact hMarked
  · obtain ⟨c, rest, hName, hStart, hRest⟩ := Expr.exists_of_isNameText hChars
    rw [hName, List.mem_cons] at hBracket
    rcases hBracket with rfl | hMem
    · exact absurd hStart (by decide)
    · exact absurd (hRest _ hMem) (by decide)

/-- The first step of a name that the check reports leads nowhere. -/
theorem step_eq_null {vars : Variables} (hKeys : KeysWithin known scope vars)
    (hPlain : ∀ n ∈ known, Unbracketed n) (hScope : ∀ n ∈ scope, Assignable n) {name : String}
    (hName : Readable name) (hUnknown : Unknown known scope name) {first : Value.Step}
    {later : List Value.Step} (hSteps : Value.stepsOf name = first :: later) :
    Variables.step vars first = .ok Datum.null := by
  obtain ⟨c, rest, hChars, hStart⟩ := hName.begins
  have hNotPoint : c ≠ '.' := ne_of_class hStart '.' rfl
  have hNotBracket : c ≠ '[' := ne_of_class hStart '[' rfl
  have hPart : name.toList.takeWhile (· ≠ '.') = c :: rest.takeWhile (· ≠ '.') := by
    rw [hChars, List.takeWhile_cons_of_pos (by simpa using hNotPoint)]
  have hBase : (name.toList.takeWhile (· ≠ '.')).takeWhile (· ≠ '[') =
      c :: (rest.takeWhile (· ≠ '.')).takeWhile (· ≠ '[') := by
    rw [hPart, List.takeWhile_cons_of_pos (by simpa using hNotBracket)]
  have hBaseChars : (baseName name).toList =
      c :: (rest.takeWhile (· ≠ '.')).takeWhile (· ≠ '[') := by
    rw [baseName, String.toList_ofList, hBase]
  have hBaseNull : Variables.field vars (baseName name) = Datum.null :=
    field_eq_null hKeys hPlain hScope hBaseChars hStart hUnknown.baseNotKnown
      hUnknown.baseNotAssigned hUnknown.baseNotLoop
  obtain ⟨first', later', hSteps', hCases⟩ := stepsOf_cases name
  rw [hSteps', List.cons.injEq] at hSteps
  obtain ⟨rfl, rfl⟩ := hSteps
  rcases hCases with ⟨rfl, hBracket | hWhole⟩ | ⟨inner, rfl⟩
  · -- A key with a bracket in it is assigned by a question to the page only.
    have hKeyChars : (String.ofList (name.toList.takeWhile (· ≠ '.'))).toList =
        c :: rest.takeWhile (· ≠ '.') := by
      rw [String.toList_ofList, hPart]
    have hMem : '[' ∈ (String.ofList (name.toList.takeWhile (· ≠ '.'))).toList := by
      rwa [String.toList_ofList]
    rw [Variables.step, field_eq_null hKeys hPlain hScope hKeyChars hStart]
    · intro hKnown
      exact (hPlain _ hKnown '[' hMem).1 rfl
    · intro hAssigned
      have hMarked := isName_of_mem_bracket (hScope _ hAssigned) hMem
      rw [SelectorQuery.isName, String.toList_ofList, Bool.or_eq_true] at hMarked
      have hWhole : name.toList = name.toList.takeWhile (· ≠ '.') ++ name.toList.dropWhile (· ≠ '.') :=
        List.takeWhile_append_dropWhile.symm
      rcases hMarked with hText | hHtml
      · have hFound := startsWith_append hText (name.toList.dropWhile (· ≠ '.'))
        rw [← hWhole, hUnknown.unmarked _ (by decide)] at hFound
        cases hFound
      · have hFound := startsWith_append hHtml (name.toList.dropWhile (· ≠ '.'))
        rw [← hWhole, hUnknown.unmarked _ (by decide)] at hFound
        cases hFound
    · intro hLoop
      rw [hLoop] at hMem
      exact absurd hMem (by decide)
  · have hKey : String.ofList (name.toList.takeWhile (· ≠ '.')) = baseName name := by
      rw [baseName, ← hWhole]
    rw [Variables.step, hKey, hBaseNull]
  · have hNotEmpty : baseName name ≠ "" := by
      intro hEmpty
      rw [hEmpty] at hBaseChars
      cases hBaseChars
    show Variables.step vars (.index (baseName name) inner) = .ok Datum.null
    rw [Variables.step, if_neg hNotEmpty, hBaseNull]
    rfl

/-- A name that the check reports stands for nothing. -/
theorem resolve_eq_null {vars : Variables} (hKeys : KeysWithin known scope vars)
    (hPlain : ∀ n ∈ known, Unbracketed n) (hScope : ∀ n ∈ scope, Assignable n) {name : String}
    (hName : Readable name) (hUnknown : Unknown known scope name) :
    Variables.resolve vars name = .ok Datum.null := by
  obtain ⟨c, rest, hChars, hStart⟩ := hName.begins
  have hNotLoop : name ≠ "loop" := by
    rintro rfl
    exact hUnknown.baseNotLoop rfl
  have hField : Variables.field vars name = Datum.null :=
    field_eq_null hKeys hPlain hScope hChars hStart hUnknown.notKnown hUnknown.notAssigned hNotLoop
  obtain ⟨first, later, hSteps, -⟩ := stepsOf_cases name
  have hStep := step_eq_null hKeys hPlain hScope hName hUnknown hSteps
  rw [Variables.resolve, hName.strip_eq, hField]
  split
  · next hFound => cases hFound
  · split
    · exact walk_of_step hSteps hStep
    · rfl

/-- A name that the check reports is nobody else's to resolve: it asks neither
for structured data nor for the page, nor does it ask a question in words. -/
theorem eval_eq_null {σ : Type} {context : Context σ} {pass : Pass σ}
    (hKeys : KeysWithin known scope pass.vars) (hPlain : ∀ n ∈ known, Unbracketed n)
    (hScope : ∀ n ∈ scope, Assignable n) {name : String} (hName : Readable name)
    (hUnknown : Unknown known scope name) (place : Place) :
    (eval context (.identifier name place)).on pass = (.ok Datum.null, pass) := by
  have hSchema : Schema.isName name = false := hUnknown.unmarked _ (by decide)
  have hText : startsWith SelectorQuery.textMark.toList name.toList = false :=
    hUnknown.unmarked _ (by decide)
  have hHtml : startsWith SelectorQuery.htmlMark.toList name.toList = false :=
    hUnknown.unmarked _ (by decide)
  have hPrompt : startsWith Prompt.mark.toList name.toList = false :=
    hUnknown.unmarked _ (by decide)
  have hOutside : (SelectorQuery.isName name || Prompt.isName name) = false := by
    rw [SelectorQuery.isName, Prompt.isName, hText, hHtml, hPrompt, hUnknown.unquoted]
    rfl
  rw [eval, evalName, hSchema, hOutside, if_neg Bool.false_ne_true, if_neg Bool.false_ne_true,
    Run.on_bind_ok (Run.on_get pass), on_ofFault,
    resolve_eq_null hKeys hPlain hScope hName hUnknown]

end Render

end NoteTemplate
