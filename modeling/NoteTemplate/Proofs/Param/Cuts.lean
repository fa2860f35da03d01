import Mathlib.Data.List.Induction
import NoteTemplate.Filter.Registry
import NoteTemplate.Placeholder
import NoteTemplate.Proofs.Param.Splitting
import NoteTemplate.Proofs.Text.Margin

/-! Where the parameter text of filters is cut. Strings, brackets and backslashes
protect what stands in them or behind them; the top level is the rest. A text is
cut at the separators on its top level and nowhere else, also if a string or a
bracket is left open, or a bracket is closed that was never opened. Trimming the
pieces loses blanks only, and without backslashes the trimmed pieces can be joined
and cut again as often as one likes. -/
namespace NoteTemplate.Param

open Text Token

def openingBrackets : List Char := ['(', '[', '\x7b']

def closingBrackets : List Char := [')', ']', '\x7d']

/-- Text at whose end a number of brackets is open, but neither a string nor a
backslash. Any closing bracket closes the last one, and counts for nothing if there
is none. -/
inductive Depth : List Char → Nat → Prop where
  | nil : Depth [] 0
  | plain {cs : List Char} {depth : Nat} {c : Char} :
      Depth cs depth → isMark c = false → c ≠ '\\' → Depth (cs ++ [c]) depth
  | escaped {cs : List Char} {depth : Nat} (c : Char) :
      Depth cs depth → Depth (cs ++ ['\\', c]) depth
  | string {cs inside : List Char} {depth : Nat} {quote : Char} :
      Depth cs depth → isQuote quote = true → Quoted quote inside →
        Depth (cs ++ quote :: (inside ++ [quote])) depth
  | opened {cs : List Char} {depth : Nat} {c : Char} :
      Depth cs depth → c ∈ openingBrackets → Depth (cs ++ [c]) (depth + 1)
  | closed {cs : List Char} {depth : Nat} {c : Char} :
      Depth cs depth → c ∈ closingBrackets → Depth (cs ++ [c]) (depth - 1)

/-- Behind text that leaves nothing open, everything counts as if it stood alone. -/
theorem Depth.append {front back : List Char} {depth : Nat} (hFront : Depth front 0)
    (hBack : Depth back depth) : Depth (front ++ back) depth := by
  induction hBack with
  | nil => rwa [List.append_nil]
  | plain _ hMark hPlain ih =>
      rw [← List.append_assoc]
      exact .plain ih hMark hPlain
  | escaped c _ ih =>
      rw [← List.append_assoc]
      exact .escaped c ih
  | string _ hQuote hInside ih =>
      rw [← List.append_assoc]
      exact .string ih hQuote hInside
  | opened _ hOpening ih =>
      rw [← List.append_assoc]
      exact .opened ih hOpening
  | closed _ hClosing ih =>
      rw [← List.append_assoc]
      exact .closed ih hClosing

theorem next_of_opening {c : Char} (h : c ∈ openingBrackets) (depth : Nat) :
    SplitState.next ⟨none, depth⟩ c = ⟨none, depth + 1⟩ := by
  simp only [openingBrackets, List.mem_cons, List.not_mem_nil, or_false] at h
  rcases h with rfl | rfl | rfl <;> rfl

theorem next_of_closing {c : Char} (h : c ∈ closingBrackets) (depth : Nat) :
    SplitState.next ⟨none, depth⟩ c = ⟨none, depth - 1⟩ := by
  simp only [closingBrackets, List.mem_cons, List.not_mem_nil, or_false] at h
  rcases h with rfl | rfl | rfl <;> rfl

theorem ne_backslash_of_bracket {c : Char} (h : c ∈ openingBrackets ++ closingBrackets) :
    c ≠ '\\' := by
  rintro rfl
  exact absurd h (by decide)

/-- No separator stands on the top level of the text. -/
def Undivided (separator : Char) (cs : List Char) : Prop :=
  ∀ before after, cs = before ++ separator :: after → ¬ Depth before 0

theorem Undivided.front {separator : Char} {front back : List Char}
    (h : Undivided separator (front ++ back)) : Undivided separator front := by
  rintro before after rfl
  exact h before (after ++ back) (by simp)

/-- The pieces of a text between the separators on its top level. -/
inductive Cut (separator : Char) : List Char → List (List Char) → Prop where
  | last {cs : List Char} : Undivided separator cs → Cut separator cs [cs]
  | more {piece rest : List Char} {pieces : List (List Char)} :
      Undivided separator piece → Depth piece 0 → Cut separator rest pieces →
        Cut separator (piece ++ separator :: rest) (piece :: pieces)

section
variable {separator : Char}

theorem Cut.ne_nil {cs : List Char} {pieces : List (List Char)} (h : Cut separator cs pieces) :
    pieces ≠ [] := by
  cases h <;> exact List.cons_ne_nil _ _

/-- The pieces with the separators between them are the text. -/
theorem Cut.intercalate_eq {cs : List Char} {pieces : List (List Char)}
    (h : Cut separator cs pieces) : List.intercalate [separator] pieces = cs := by
  induction h with
  | last => exact List.intercalate_singleton
  | more _ _ hCut ih =>
      rw [List.intercalate_cons_of_ne_nil hCut.ne_nil, ih, List.append_assoc, List.singleton_append]

theorem Cut.undivided {cs : List Char} {pieces : List (List Char)} (h : Cut separator cs pieces) :
    ∀ piece ∈ pieces, Undivided separator piece := by
  induction h with
  | last hUndivided => simpa using hUndivided
  | more hUndivided _ _ ih => simpa using ⟨hUndivided, ih⟩

/-- If a separator stands on the top level, there is a first one that does. -/
theorem exists_first_separator {cs before after : List Char}
    (hText : cs = before ++ separator :: after) (hDepth : Depth before 0) :
    ∃ piece rest, cs = piece ++ separator :: rest ∧ Depth piece 0 ∧ Undivided separator piece := by
  by_cases hUndivided : Undivided separator before
  · exact ⟨before, after, hText, hDepth, hUndivided⟩
  · obtain ⟨earlier, later, hBefore, hEarlier⟩ : ∃ earlier later,
        before = earlier ++ separator :: later ∧ Depth earlier 0 := by
      simpa [Undivided] using hUndivided
    have hLess : earlier.length < before.length := by
      rw [hBefore, List.length_append, List.length_cons]
      omega
    have hEarlierText : cs = earlier ++ separator :: (later ++ separator :: after) := by
      simp [hText, hBefore]
    exact exists_first_separator hEarlierText hEarlier
termination_by before.length

/-- Every text falls into pieces between its separators on the top level. -/
theorem exists_cut (separator : Char) (cs : List Char) : ∃ pieces, Cut separator cs pieces := by
  by_cases hUndivided : Undivided separator cs
  · exact ⟨[cs], .last hUndivided⟩
  · obtain ⟨before, after, hText, hBefore⟩ : ∃ before after,
        cs = before ++ separator :: after ∧ Depth before 0 := by
      simpa [Undivided] using hUndivided
    obtain ⟨piece, rest, hFirst, hDepth, hPiece⟩ := exists_first_separator hText hBefore
    have hLess : rest.length < cs.length := by
      rw [hFirst, List.length_append, List.length_cons]
      omega
    obtain ⟨pieces, hCut⟩ := exists_cut separator rest
    exact ⟨piece :: pieces, hFirst ▸ .more hPiece hDepth hCut⟩
termination_by cs.length

/-! What the splitting makes of it. -/

theorem separates_iff (hMark : isMark separator = false) {state : SplitState} {c : Char} :
    state.separates separator c = true ↔ state = {} ∧ c = separator := by
  obtain ⟨_ | quote, depth⟩ := state
  · simp only [SplitState.separates, Option.isNone_none, Bool.true_and, Bool.and_eq_true,
      beq_iff_eq, Bool.not_eq_true', SplitState.mk.injEq, true_and]
    exact ⟨fun h => ⟨h.1.1, h.2.symm⟩, fun h => ⟨⟨h.1, h.2 ▸ hMark⟩, h.2.symm⟩⟩
  · simp [SplitState.separates]

/-- Inside of a piece no separator is seen. -/
theorem not_separates (hMark : isMark separator = false) {cs : List Char} {depth : Nat} {c : Char}
    (hDepth : Depth cs depth) (hUndivided : Undivided separator (cs ++ [c])) :
    SplitState.separates ⟨none, depth⟩ separator c = false := by
  by_contra hSeparates
  rw [Bool.not_eq_false, separates_iff hMark] at hSeparates
  obtain ⟨hTop, rfl⟩ := hSeparates
  cases hTop
  exact hUndivided cs [] rfl hDepth

/-- A text that leaves nothing but brackets open is passed as a whole, if no separator
stands on its top level. -/
theorem Depth.splitRaw_append (hMark : isMark separator = false) {cs : List Char} {depth : Nat}
    (h : Depth cs depth) (hUndivided : Undivided separator cs) (rest : List Char) :
    splitRaw separator {} (cs ++ rest) =
      prepend cs (splitRaw separator ⟨none, depth⟩ rest) := by
  -- One more character, which the splitting reads for itself.
  have hRead {cs : List Char} {depth : Nat} {c : Char} (hDepth : Depth cs depth)
      (ih : Undivided separator cs → ∀ rest, splitRaw separator {} (cs ++ rest) =
        prepend cs (splitRaw separator ⟨none, depth⟩ rest))
      (hUndivided : Undivided separator (cs ++ [c])) (hPlain : c ≠ '\\') (rest : List Char) :
      splitRaw separator {} (cs ++ [c] ++ rest) =
        prepend (cs ++ [c]) (splitRaw separator (SplitState.next ⟨none, depth⟩ c) rest) := by
    have hPart := not_separates hMark hDepth hUndivided
    rw [List.append_assoc, ih hUndivided.front, List.singleton_append, splitRaw_cons hPlain hPart,
      prepend_append]
  induction h generalizing rest with
  | nil => exact (prepend_nil (splitRaw_ne_nil _ _ _)).symm
  | plain hDepth hOther hPlain ih =>
      rw [hRead hDepth ih hUndivided hPlain, next_of_not_isMark hOther]
  | escaped c _ ih =>
      rw [List.append_assoc, ih hUndivided.front, List.cons_append, List.singleton_append,
        splitRaw_escape, prepend_append]
  | string _ hQuote hInside ih =>
      rw [List.append_assoc, ih hUndivided.front, splitRaw_string hQuote hInside, prepend_append]
  | opened hDepth hOpening ih =>
      have hPlain := ne_backslash_of_bracket (List.mem_append_left _ hOpening)
      rw [hRead hDepth ih hUndivided hPlain, next_of_opening hOpening]
  | closed hDepth hClosing ih =>
      have hPlain := ne_backslash_of_bracket (List.mem_append_right _ hClosing)
      rw [hRead hDepth ih hUndivided hPlain, next_of_closing hClosing]

/-- What a state says about the text in front of it. -/
def Describes : SplitState → List Char → Prop
  | ⟨none, depth⟩, cs => Depth cs depth
  | ⟨some quote, depth⟩, cs => ∃ before inside, isQuote quote = true ∧ Depth before depth ∧
      Quoted quote inside ∧ cs = before ++ quote :: inside

theorem describes_start : Describes {} [] := Depth.nil

theorem Describes.escaped {state : SplitState} {cs : List Char} (h : Describes state cs)
    (c : Char) : Describes state (cs ++ ['\\', c]) := by
  obtain ⟨_ | quote, depth⟩ := state
  · exact Depth.escaped c h
  · obtain ⟨before, inside, hQuote, hDepth, hInside, rfl⟩ := h
    exact ⟨before, inside ++ ['\\', c], hQuote, hDepth, hInside.append (.escaped c .nil), by simp⟩

/-- Every character but a backslash keeps the description. -/
theorem Describes.next {state : SplitState} {cs : List Char} {c : Char} (h : Describes state cs)
    (hPlain : c ≠ '\\') : Describes (state.next c) (cs ++ [c]) := by
  obtain ⟨_ | quote, depth⟩ := state
  · have hDepth : Depth cs depth := h
    by_cases hQuote : isQuote c = true
    · rw [next_of_isQuote hQuote]
      exact ⟨cs, [], hQuote, hDepth, .nil, rfl⟩
    by_cases hOpening : c ∈ openingBrackets
    · rw [next_of_opening hOpening]
      exact hDepth.opened hOpening
    by_cases hClosing : c ∈ closingBrackets
    · rw [next_of_closing hClosing]
      exact hDepth.closed hClosing
    have hMark : isMark c = false := by
      simp only [openingBrackets, closingBrackets, List.mem_cons, List.not_mem_nil, or_false,
        not_or] at hOpening hClosing
      simp [isMark, hQuote, hOpening, hClosing]
    rw [next_of_not_isMark hMark]
    exact hDepth.plain hMark hPlain
  · obtain ⟨before, inside, hQuote, hDepth, hInside, rfl⟩ := h
    by_cases hEnd : c = quote
    · subst hEnd
      rw [next_closingQuote, List.append_assoc, List.cons_append]
      exact hDepth.string hQuote hInside
    · rw [next_inString hEnd]
      exact ⟨before, inside ++ [c], hQuote, hDepth, hInside.append (.plain hEnd hPlain .nil),
        by simp⟩

/-- Text without separators on its top level is one piece, whatever it leaves open. -/
theorem splitRaw_of_describes (hSeparator : Separates separator) {state : SplitState}
    {front cs : List Char} (hState : Describes state front)
    (hUndivided : Undivided separator (front ++ cs)) : splitRaw separator state cs = [cs] := by
  fun_induction splitRaw separator state cs generalizing front with
  | case1 => rfl
  | case2 state c rest ih =>
      have hText : front ++ '\\' :: c :: rest = front ++ ['\\', c] ++ rest := by simp
      rw [ih (hState.escaped c) (hText ▸ hUndivided)]
      rfl
  | case3 => rfl
  | case4 state c rest hPlain hSeparates =>
      rw [separates_iff hSeparator.notMark] at hSeparates
      obtain ⟨rfl, rfl⟩ := hSeparates
      exact absurd hState (hUndivided front rest rfl)
  | case5 state c rest hPlain _ ih =>
      rw [ih (hState.next hPlain) (List.append_cons front c rest ▸ hUndivided)]
      rfl

/-- The splitting finds the pieces between the separators on the top level. -/
theorem Cut.splitRaw_eq (hSeparator : Separates separator) {cs : List Char}
    {pieces : List (List Char)} (h : Cut separator cs pieces) :
    splitRaw separator {} cs = pieces := by
  induction h with
  | last hUndivided => exact splitRaw_of_describes hSeparator describes_start hUndivided
  | more hUndivided hDepth _ ih =>
      rw [hDepth.splitRaw_append hSeparator.notMark hUndivided, splitRaw_separator hSeparator, ih,
        prepend, List.append_nil]

/-- There is one way to cut a text. -/
theorem existsUnique_cut (hSeparator : Separates separator) (cs : List Char) :
    ∃! pieces, Cut separator cs pieces := by
  obtain ⟨pieces, hCut⟩ := exists_cut separator cs
  refine ⟨pieces, hCut, fun others hOthers => ?_⟩
  rw [← hOthers.splitRaw_eq hSeparator, hCut.splitRaw_eq hSeparator]

/-! Blanks at the ends of a piece. A blank behind a backslash is the only one that
counts for more than a blank. -/

/-- Blanks open nothing. -/
theorem depth_of_blanks {blanks : List Char} (hBlanks : ∀ c ∈ blanks, isBlank c = true) :
    Depth blanks 0 := by
  induction blanks using List.reverseRecOn with
  | nil => exact .nil
  | append_singleton blanks c ih =>
      have hBlank : isBlank c = true := hBlanks c (by simp)
      exact .plain (ih fun d hMem => hBlanks d (by simp [hMem])) (not_isMark_of_isBlank hBlank)
        (ne_of_class hBlank '\\' rfl)

/-- Inside of quotes the state does not change. -/
theorem Quoted.foldl_next {quote : Char} {inside : List Char} (h : Quoted quote inside)
    (hPlain : '\\' ∉ inside) (depth : Nat) :
    inside.foldl SplitState.next ⟨some quote, depth⟩ = ⟨some quote, depth⟩ := by
  induction h with
  | nil => rfl
  | plain hQuote _ _ ih =>
      rw [List.mem_cons, not_or] at hPlain
      rw [List.foldl_cons, next_inString hQuote, ih hPlain.2]
  | escaped => simp at hPlain

/-- Without backslashes the depth is what the states behind the characters count. -/
theorem Depth.foldl_next {cs : List Char} {depth : Nat} (h : Depth cs depth) (hPlain : '\\' ∉ cs) :
    cs.foldl SplitState.next {} = ⟨none, depth⟩ := by
  induction h with
  | nil => rfl
  | plain _ hMark _ ih =>
      rw [List.mem_append, not_or] at hPlain
      rw [List.foldl_append, ih hPlain.1]
      exact next_of_not_isMark hMark _
  | escaped => simp at hPlain
  | string _ hQuote hInside ih =>
      simp only [List.mem_append, List.mem_cons, not_or] at hPlain
      rw [List.foldl_append, ih hPlain.1, List.foldl_cons, next_of_isQuote hQuote,
        List.foldl_append, hInside.foldl_next hPlain.2.2.1]
      exact next_closingQuote _ _
  | opened _ hOpening ih =>
      rw [List.mem_append, not_or] at hPlain
      rw [List.foldl_append, ih hPlain.1]
      exact next_of_opening hOpening _
  | closed _ hClosing ih =>
      rw [List.mem_append, not_or] at hPlain
      rw [List.foldl_append, ih hPlain.1]
      exact next_of_closing hClosing _

/-- The state goes on describing the text in front of it, however long. -/
theorem Describes.foldl_next {state : SplitState} {front cs : List Char}
    (h : Describes state front) (hPlain : '\\' ∉ cs) :
    Describes (cs.foldl SplitState.next state) (front ++ cs) := by
  induction cs generalizing state front with
  | nil => rwa [List.append_nil]
  | cons c cs ih =>
      rw [List.mem_cons, not_or] at hPlain
      rw [List.foldl_cons, List.append_cons]
      exact ih (h.next (Ne.symm hPlain.1)) hPlain.2

/-- Blanks are no marks, and no string ends at one. -/
theorem Describes.foldl_blanks {state : SplitState} {front blanks : List Char}
    (h : Describes state front) (hBlanks : ∀ c ∈ blanks, isBlank c = true) :
    blanks.foldl SplitState.next state = state := by
  have hNext {c : Char} (hBlank : isBlank c = true) : state.next c = state := by
    have hMark := not_isMark_of_isBlank hBlank
    obtain ⟨_ | quote, depth⟩ := state
    · exact next_of_not_isMark hMark depth
    · obtain ⟨_, _, hQuote, -⟩ := h
      refine next_inString ?_ depth
      rintro rfl
      rw [isMark_of_isQuote hQuote] at hMark
      exact Bool.noConfusion hMark
  induction blanks with
  | nil => rfl
  | cons c blanks ih =>
      rw [List.foldl_cons, hNext (hBlanks c List.mem_cons_self),
        ih fun d hMem => hBlanks d (List.mem_cons_of_mem c hMem)]

/-- Without backslashes the blanks around a text make no difference to its depth. -/
theorem Depth.trim {cs : List Char} {depth : Nat} (h : Depth cs depth) (hPlain : '\\' ∉ cs) :
    Depth (trim cs) depth := by
  obtain ⟨front, back, hText, hFront, hBack⟩ := exists_trim cs
  have hParts : '\\' ∉ front ++ Text.trim cs ++ back := hText ▸ hPlain
  rw [List.mem_append, List.mem_append, not_or, not_or] at hParts
  have hInside : Describes ((Text.trim cs).foldl SplitState.next {}) (Text.trim cs) :=
    describes_start.foldl_next hParts.1.2
  have hState := h.foldl_next hPlain
  rw [hText, List.foldl_append, List.foldl_append, describes_start.foldl_blanks hFront,
    hInside.foldl_blanks hBack] at hState
  rwa [hState] at hInside

theorem Undivided.trim {cs : List Char} (h : Undivided separator cs) :
    Undivided separator (trim cs) := by
  obtain ⟨front, back, hText, hFront, -⟩ := exists_trim cs
  intro before after hTrim hBefore
  refine h (front ++ before) (after ++ back) ?_ ((depth_of_blanks hFront).append hBefore)
  conv_lhs => rw [hText, hTrim]
  simp

/-- Text without backslashes is cut at the same places when the blanks around its
pieces are gone. -/
theorem Cut.trim {cs : List Char} {pieces : List (List Char)} (h : Cut separator cs pieces)
    (hPlain : '\\' ∉ cs) :
    Cut separator (List.intercalate [separator] (pieces.map Text.trim)) (pieces.map Text.trim) := by
  induction h with
  | last hUndivided =>
      rw [List.map_singleton, List.intercalate_singleton]
      exact .last hUndivided.trim
  | @more piece rest pieces hUndivided hDepth hCut ih =>
      rw [List.mem_append, List.mem_cons, not_or, not_or] at hPlain
      have hLater : pieces.map Text.trim ≠ [] := by simpa using hCut.ne_nil
      rw [List.map_cons, List.intercalate_cons_of_ne_nil hLater, List.append_assoc,
        List.singleton_append]
      exact .more hUndivided.trim (hDepth.trim hPlain.1) (ih hPlain.2.2)

/-- Trimming the parts changes nothing but blanks. -/
theorem ink_intercalate_trim (pieces : List (List Char)) :
    ink (List.intercalate [separator] (pieces.map Text.trim)) =
      ink (List.intercalate [separator] pieces) := by
  induction pieces with
  | nil => rfl
  | cons piece pieces ih =>
      by_cases hSome : pieces = []
      · rw [hSome, List.map_singleton, List.intercalate_singleton, List.intercalate_singleton,
          ink_trim]
      · have hLater : pieces.map Text.trim ≠ [] := by simpa using hSome
        rw [List.map_cons, List.intercalate_cons_of_ne_nil hLater,
          List.intercalate_cons_of_ne_nil hSome, ink_append, ink_append, ink_append, ink_append,
          ink_trim, ih]

/-! Joining the parts of a text and cutting it again. -/

/-- The parts that pieces of a text are made into. -/
def partsOf (pieces : List (List Char)) : List String :=
  pieces.map fun piece => strip (String.ofList piece)

/-- The parts with a separator between each two of them. -/
def rejoin (separator : Char) (parts : List String) : String :=
  String.intercalate (String.ofList [separator]) parts

theorem toList_rejoin (pieces : List (List Char)) : (rejoin separator (partsOf pieces)).toList =
    List.intercalate [separator] (pieces.map Text.trim) := by
  rw [rejoin, String.toList_intercalate, String.toList_ofList, partsOf, List.map_map]
  simp [strip_ofList, Function.comp_def]

theorem solid_of_mem_partsOf {pieces : List (List Char)} {part : String}
    (h : part ∈ partsOf pieces) : Solid part := by
  obtain ⟨piece, _, rfl⟩ := List.mem_map.mp h
  exact solid_strip _

theorem isBlankText_iff {s : String} : isBlankText s = true ↔ ink s.toList = [] := by
  simp [isBlankText, ink]

theorem split_of_isBlankText {s : String} (h : isBlankText s = true) : split separator s = [] := by
  rw [isBlankText] at h
  rw [split, splitChars, if_pos h, List.map_nil]

theorem Cut.split_eq (hSeparator : Separates separator) {s : String} {pieces : List (List Char)}
    (h : Cut separator s.toList pieces) (hFilled : isBlankText s = false) :
    split separator s = partsOf pieces := by
  have hSome : ¬ s.toList.all isBlank = true := by simpa [isBlankText] using hFilled
  rw [split, splitChars, if_neg hSome, h.splitRaw_eq hSeparator, List.map_map]
  simp [partsOf, strip_ofList, Function.comp_def]

/-- A part with anything in it is cut no further. -/
theorem Cut.split_part (hSeparator : Separates separator) {cs : List Char}
    {pieces : List (List Char)} (h : Cut separator cs pieces) {part : String}
    (hMem : part ∈ partsOf pieces) (hSome : part ≠ "") : split separator part = [part] := by
  obtain ⟨piece, hPiece, rfl⟩ := List.mem_map.mp hMem
  have hSolid := solid_strip (String.ofList piece)
  have hCut : Cut separator (strip (String.ofList piece)).toList [Text.trim piece] := by
    rw [strip_ofList, String.toList_ofList]
    exact .last (h.undivided piece hPiece).trim
  rw [hCut.split_eq hSeparator (hSolid.not_all_isBlank hSome), partsOf, List.map_singleton,
    ← strip_ofList, hSolid.strip_eq]

/-- The parts of a text without backslashes are found again between separators. -/
theorem Cut.split_rejoin (hSeparator : Separates separator) {cs : List Char}
    {pieces : List (List Char)} (h : Cut separator cs pieces) (hPlain : '\\' ∉ cs)
    (hFilled : isBlankText (rejoin separator (partsOf pieces)) = false) :
    split separator (rejoin separator (partsOf pieces)) = partsOf pieces := by
  have hCut := h.trim hPlain
  rw [← toList_rejoin] at hCut
  have hAgain (piece : List Char) :
      strip (String.ofList (Text.trim piece)) = strip (String.ofList piece) := by
    rw [← strip_ofList]
    exact (solid_strip (String.ofList piece)).strip_eq
  rw [hCut.split_eq hSeparator hFilled]
  simp only [partsOf, List.map_map, Function.comp_def, hAgain]

/-- Parts that are blank when they are joined have nothing in them. There is one of
them at most, since a separator is no blank. -/
theorem eq_empty_of_isBlankText (hSeparator : Separates separator) {parts : List String}
    (hParts : ∀ part ∈ parts, Solid part)
    (hBlank : isBlankText (rejoin separator parts) = true) : ∀ part ∈ parts, part = "" := by
  intro part hMem
  match parts with
  | [first] =>
      rw [rejoin, String.intercalate_singleton] at hBlank
      obtain rfl := List.mem_singleton.mp hMem
      by_contra hSome
      have hInk := (hParts part hMem).not_all_isBlank hSome
      rw [isBlankText, hInk] at hBlank
      exact Bool.noConfusion hBlank
  | first :: second :: parts =>
      rw [isBlankText, rejoin, String.intercalate_cons_cons, String.toList_append,
        String.toList_append, String.toList_ofList, List.all_append, List.all_append] at hBlank
      simp [hSeparator.notBlank] at hBlank

end

end NoteTemplate.Param

namespace NoteTemplate.Registry

/-- Apply the filters that the parts of a chain call, one after another. A part with
nothing in it calls none. -/
def applyParts (registry : Registry) (d : Datum) (parts : List String) (url : String) :
    Except Fault Datum :=
  (parts.filter (· ≠ "")).foldlM
    (fun d part => registry.apply (link part).1 d (link part).2 url) d

theorem applyChain_eq (registry : Registry) (d : Datum) (chain url : String) :
    registry.applyChain d chain url = registry.applyParts d (Param.split '|' chain) url := rfl

theorem applyParts_of_forall (registry : Registry) (d : Datum) {parts : List String}
    (h : ∀ part ∈ parts, part = "") (url : String) : registry.applyParts d parts url = .ok d := by
  have hNone : parts.filter (· ≠ "") = [] := by simpa [List.filter_eq_nil_iff] using h
  rw [applyParts, hNone, List.foldlM_nil]
  rfl

end NoteTemplate.Registry

namespace NoteTemplate.Param

open Text

variable {separator : Char}

/-- The chain of a request calls the filters in the parts behind its head. -/
theorem applyChain_request (registry : Registry) (d : Datum) {body : String}
    (hPlain : '\\' ∉ body.toList) (url : String) :
    registry.applyChain d (Placeholder.request body).chain url =
      registry.applyParts d (split '|' body).tail url := by
  by_cases hBlank : isBlankText body = true
  · rw [Placeholder.request, split_of_isBlankText hBlank]
    rfl
  obtain ⟨pieces, hCut⟩ := exists_cut '|' body.toList
  rw [Placeholder.request, hCut.split_eq separates_bar (Bool.not_eq_true _ ▸ hBlank)]
  generalize body.toList = cs at hCut hPlain
  cases hCut with
  | last => rfl
  | @more piece rest pieces _ _ hRest =>
      show registry.applyChain d (rejoin '|' (partsOf pieces)) url =
        registry.applyParts d (partsOf pieces) url
      by_cases hNothing : isBlankText (rejoin '|' (partsOf pieces)) = true
      · -- Joined, an empty part alone behind the head is no part any more.
        have hEmpty := eq_empty_of_isBlankText separates_bar (fun _ => solid_of_mem_partsOf) hNothing
        rw [Registry.applyChain_eq, split_of_isBlankText hNothing,
          Registry.applyParts_of_forall registry d hEmpty]
        rfl
      · have hPlainRest : '\\' ∉ rest := fun hMem => hPlain (by simp [hMem])
        rw [Registry.applyChain_eq, hRest.split_rejoin separates_bar hPlainRest
          (Bool.not_eq_true _ ▸ hNothing)]

/-- A text that is not blank is cut at the separators on its top level. Nothing but
blanks is lost. If no backslash stands in it, its parts are cut no further, joining
them and cutting again changes nothing, and the chain of a placeholder calls the same
filters after it was joined as before. -/
theorem split_loses_nothing (hSeparator : Separates separator) {p : String}
    (hFilled : isBlankText p = false) :
    (∃! pieces, Cut separator p.toList pieces) ∧
    (∀ pieces, Cut separator p.toList pieces → split separator p = partsOf pieces) ∧
    ink (rejoin separator (split separator p)).toList = ink p.toList ∧
    ('\\' ∉ p.toList →
      (∀ part ∈ split separator p, part ≠ "" → split separator part = [part]) ∧
      split separator (rejoin separator (split separator p)) = split separator p ∧
      ∀ (registry : Registry) (d : Datum) (url : String),
        registry.applyChain d (Placeholder.request p).chain url =
          registry.applyParts d (split '|' p).tail url) := by
  have hSplit {pieces : List (List Char)} (hCut : Cut separator p.toList pieces) :
      split separator p = partsOf pieces := hCut.split_eq hSeparator hFilled
  obtain ⟨pieces, hCut⟩ := exists_cut separator p.toList
  have hInk : ink (rejoin separator (split separator p)).toList = ink p.toList := by
    rw [hSplit hCut, toList_rejoin, ink_intercalate_trim, hCut.intercalate_eq]
  refine ⟨existsUnique_cut hSeparator p.toList, fun _ => hSplit, hInk, fun hPlain => ⟨?_, ?_, ?_⟩⟩
  · intro part hMem hSome
    exact hCut.split_part hSeparator (hSplit hCut ▸ hMem) hSome
  · have hFilledAgain : isBlankText (rejoin separator (split separator p)) = false := by
      rwa [← Bool.not_eq_true, isBlankText_iff, hInk, ← isBlankText_iff, Bool.not_eq_true]
    rw [hSplit hCut] at hFilledAgain ⊢
    exact hCut.split_rejoin hSeparator hPlain hFilledAgain
  · intro registry d url
    exact applyChain_request registry d hPlain url

/-- A chain with a bar in a string, nothing between two bars, a bracket that was never
opened and one that is never closed. -/
theorem split_loses_nothing_unbalanced :
    let p := " trim |join:\"|\"|| ) |(a|b "
    let parts := ["trim", "join:\"|\"", "", ")", "(a|b"]
    Separates '|' ∧ isBlankText p = false ∧ '\\' ∉ p.toList ∧ split '|' p = parts ∧
      ink (rejoin '|' parts).toList = ink p.toList ∧
      (∀ part ∈ parts, part ≠ "" → split '|' part = [part]) ∧
      split '|' (rejoin '|' parts) = parts ∧
      ∀ (registry : Registry) (d : Datum) (url : String),
        registry.applyChain d (Placeholder.request p).chain url =
          registry.applyParts d parts.tail url := by
  intro p parts
  have hFilled : isBlankText p = false := by decide
  have hPlain : '\\' ∉ p.toList := by decide
  have hParts : split '|' p = parts := by decide +kernel
  obtain ⟨-, -, hInk, hStable⟩ := split_loses_nothing separates_bar hFilled
  rw [hParts] at hInk hStable
  exact ⟨separates_bar, hFilled, hPlain, hParts, hInk, hStable hPlain⟩

end NoteTemplate.Param
