import NoteTemplate.Filter.Param
import NoteTemplate.Proofs.RoundTrip.Lexemes
import NoteTemplate.Proofs.Text.Solid

/-! Splitting the parameter text of filters. Some texts the splitting goes past as
a whole, whatever stands behind them; a text in quotes is one of them. Such texts
are found again between separators, with or without blanks behind each separator. -/
namespace NoteTemplate.Param

open Text Token

/-- There is always a part, although it may be empty. -/
theorem splitRaw_ne_nil (separator : Char) (state : SplitState) (cs : List Char) :
    splitRaw separator state cs ≠ [] := by
  have hPrepend (front : List Char) (parts : List (List Char)) : prepend front parts ≠ [] := by
    cases parts <;> simp [prepend]
  unfold splitRaw
  split
  · simp
  · split
    · split
      · exact hPrepend _ _
      · simp
    · split
      · simp
      · exact hPrepend _ _

theorem prepend_nil {parts : List (List Char)} (h : parts ≠ []) : prepend [] parts = parts := by
  cases parts with
  | nil => exact absurd rfl h
  | cons part parts => rfl

theorem prepend_append (first second : List Char) (parts : List (List Char)) :
    prepend first (prepend second parts) = prepend (first ++ second) parts := by
  cases parts <;> simp [prepend]

/-- A character of which the splitting takes no notice. -/
theorem splitRaw_cons {separator c : Char} {state : SplitState} (hPlain : c ≠ '\\')
    (hPart : state.separates separator c = false) (rest : List Char) :
    splitRaw separator state (c :: rest) =
      prepend [c] (splitRaw separator (state.next c) rest) := by
  rw [splitRaw.eq_def]
  simp [hPlain, hPart]

theorem splitRaw_escape (separator : Char) (state : SplitState) (c : Char) (rest : List Char) :
    splitRaw separator state ('\\' :: c :: rest) =
      prepend ['\\', c] (splitRaw separator state rest) := by
  rw [splitRaw.eq_def]
  rfl

theorem next_of_not_isMark {c : Char} (h : isMark c = false) (depth : Nat) :
    SplitState.next ⟨none, depth⟩ c = ⟨none, depth⟩ := by
  simp only [isMark, Bool.or_eq_false_iff, decide_eq_false_iff_not] at h
  simp [SplitState.next, h]

theorem next_of_isQuote {quote : Char} (h : isQuote quote = true) (depth : Nat) :
    SplitState.next ⟨none, depth⟩ quote = ⟨some quote, depth⟩ := by
  simp [SplitState.next, h]

theorem next_closingQuote (quote : Char) (depth : Nat) :
    SplitState.next ⟨some quote, depth⟩ quote = ⟨none, depth⟩ := by
  simp [SplitState.next]

theorem next_inString {quote c : Char} (h : c ≠ quote) (depth : Nat) :
    SplitState.next ⟨some quote, depth⟩ c = ⟨some quote, depth⟩ := by
  simp [SplitState.next, h]

/-- Characters behind an opening quote that do not end the string. A backslash takes
the character behind it along. -/
inductive Quoted (quote : Char) : List Char → Prop where
  | nil : Quoted quote []
  | plain {c : Char} {cs : List Char} :
      c ≠ quote → c ≠ '\\' → Quoted quote cs → Quoted quote (c :: cs)
  | escaped (c : Char) {cs : List Char} : Quoted quote cs → Quoted quote ('\\' :: c :: cs)

theorem Quoted.append {quote : Char} {front back : List Char} (hFront : Quoted quote front)
    (hBack : Quoted quote back) : Quoted quote (front ++ back) := by
  induction hFront with
  | nil => exact hBack
  | plain hQuote hPlain _ ih => exact .plain hQuote hPlain ih
  | escaped c _ ih => exact .escaped c ih

/-- What is protected by backslashes may stand in quotes. -/
theorem quoted_backslashed (cs : List Char) : Quoted '"' (backslashed cs) := by
  induction cs with
  | nil => exact .nil
  | cons c cs ih =>
      by_cases hSpecial : needsBackslash c = true
      · rw [backslashed, if_pos hSpecial]
        exact .escaped c ih
      · have hOther : c ≠ '\\' ∧ c ≠ '"' := by simpa [needsBackslash] using hSpecial
        rw [backslashed, if_neg hSpecial]
        exact .plain hOther.2 hOther.1 ih

/-- Nothing in a string separates. -/
theorem Quoted.splitRaw_append {quote : Char} {inside : List Char} (h : Quoted quote inside)
    (separator : Char) (depth : Nat) (rest : List Char) :
    splitRaw separator ⟨some quote, depth⟩ (inside ++ rest) =
      prepend inside (splitRaw separator ⟨some quote, depth⟩ rest) := by
  induction h with
  | nil => exact (prepend_nil (splitRaw_ne_nil _ _ _)).symm
  | @plain c cs hQuote hPlain _ ih =>
      rw [List.cons_append, splitRaw_cons hPlain rfl, next_inString hQuote, ih, prepend_append]
      rfl
  | escaped c _ ih =>
      rw [List.cons_append, List.cons_append, splitRaw_escape, ih, prepend_append]
      rfl

theorem not_separates_of_isMark {c : Char} (h : isMark c = true) (separator : Char)
    (state : SplitState) : state.separates separator c = false := by
  simp [SplitState.separates, h]

theorem isMark_of_isQuote {c : Char} (h : isQuote c = true) : isMark c = true := by
  simp [isMark, h]

/-- A string is passed with its quotes. -/
theorem splitRaw_string {separator quote : Char} {inside : List Char} (hQuote : isQuote quote = true)
    (hInside : Quoted quote inside) (depth : Nat) (rest : List Char) :
    splitRaw separator ⟨none, depth⟩ (quote :: (inside ++ [quote]) ++ rest) =
      prepend (quote :: (inside ++ [quote])) (splitRaw separator ⟨none, depth⟩ rest) := by
  have hPlain : quote ≠ '\\' := ne_of_class hQuote '\\' rfl
  have hPart := not_separates_of_isMark (isMark_of_isQuote hQuote) separator
  rw [List.cons_append, splitRaw_cons hPlain (hPart _), next_of_isQuote hQuote, List.append_assoc,
    hInside.splitRaw_append, List.singleton_append, splitRaw_cons hPlain (hPart _),
    next_closingQuote, prepend_append, prepend_append]
  rfl

/-- The splitting goes past a text as a whole, whatever brackets are open around it. -/
def Passes (separator : Char) (cs : List Char) : Prop :=
  ∀ depth rest, splitRaw separator ⟨none, depth⟩ (cs ++ rest) =
    prepend cs (splitRaw separator ⟨none, depth⟩ rest)

section
variable {separator : Char}

theorem passes_nil : Passes separator [] :=
  fun _ _ => (prepend_nil (splitRaw_ne_nil _ _ _)).symm

theorem Passes.append {first second : List Char} (hFirst : Passes separator first)
    (hSecond : Passes separator second) : Passes separator (first ++ second) := by
  intro depth rest
  rw [List.append_assoc, hFirst, hSecond, prepend_append]

/-- A character without a meaning of its own. -/
theorem passes_singleton {c : Char} (hPlain : c ≠ '\\') (hMark : isMark c = false)
    (hOther : separator ≠ c) : Passes separator [c] := by
  intro depth rest
  rw [List.singleton_append, splitRaw_cons hPlain (by simp [SplitState.separates, hOther]),
    next_of_not_isMark hMark]

theorem passes_of_forall {cs : List Char} (h : ∀ c ∈ cs, Passes separator [c]) :
    Passes separator cs := by
  induction cs with
  | nil => exact passes_nil
  | cons c cs ih =>
      exact (h c List.mem_cons_self).append (ih fun d hMem => h d (List.mem_cons_of_mem c hMem))

theorem passes_quote (separator : Char) (s : String) : Passes separator (quote s).toList := by
  intro depth rest
  rw [quote_toList]
  exact splitRaw_string rfl (quoted_backslashed s.toList) depth rest

/-- The inside of parentheses is passed one level deeper. -/
theorem Passes.inParens {inside : List Char} (h : Passes separator inside) :
    Passes separator ('(' :: (inside ++ [')'])) := by
  intro depth rest
  have hOpen (later : List Char) : splitRaw separator ⟨none, depth⟩ ('(' :: later) =
      prepend ['('] (splitRaw separator ⟨none, depth + 1⟩ later) :=
    splitRaw_cons (by decide) (not_separates_of_isMark rfl _ _) later
  have hClose (later : List Char) : splitRaw separator ⟨none, depth + 1⟩ (')' :: later) =
      prepend [')'] (splitRaw separator ⟨none, depth⟩ later) :=
    splitRaw_cons (by decide) (not_separates_of_isMark rfl _ _) later
  rw [List.cons_append, List.append_assoc, List.singleton_append, hOpen, h, hClose, prepend_append,
    prepend_append]
  simp

end

/-- A text as it stands between two separators. -/
structure Part (separator : Char) (part : String) : Prop where
  passes : Passes separator part.toList
  solid : Solid part
  some : part ≠ ""

theorem solid_quote (s : String) : Solid (quote s) := solid_between (quote_toList s) rfl rfl

theorem quote_ne_empty (s : String) : quote s ≠ "" := by
  intro hEmpty
  have hText := quote_toList s
  rw [hEmpty] at hText
  cases hText

theorem part_quote (separator : Char) (s : String) : Part separator (quote s) :=
  ⟨passes_quote separator s, solid_quote s, quote_ne_empty s⟩

/-- A separator that is neither a quote, a bracket, a backslash nor a blank. -/
structure Separates (separator : Char) : Prop where
  notMark : isMark separator = false
  notBackslash : separator ≠ '\\'
  notBlank : isBlank separator = false

theorem separates_bar : Separates '|' := ⟨rfl, by decide, rfl⟩

theorem not_isMark_of_isBlank {c : Char} (h : isBlank c = true) : isMark c = false := by
  have hNe := ne_of_class h
  simp [isMark, isQuote, hNe '"' rfl, hNe '\'' rfl, hNe '(' rfl, hNe '[' rfl, hNe '\x7b' rfl,
    hNe ')' rfl, hNe ']' rfl, hNe '\x7d' rfl]

theorem trim_append_of_blank {blanks : List Char} (hBlanks : ∀ c ∈ blanks, isBlank c = true)
    (cs : List Char) : trim (blanks ++ cs) = trim cs := by
  have hFront : trimStartBy isBlank (blanks ++ cs) = trimStartBy isBlank cs :=
    List.dropWhile_append_of_pos hBlanks
  rw [trim, trimBy, hFront]
  rfl

section
variable {separator : Char} (hSeparator : Separates separator) {blanks : List Char}
  (hBlanks : ∀ c ∈ blanks, isBlank c = true)
include hSeparator hBlanks

theorem passes_blanks : Passes separator blanks := by
  refine passes_of_forall fun c hMem => ?_
  have hBlank := hBlanks c hMem
  have hOther : separator ≠ c := (ne_of_class hBlank separator hSeparator.notBlank).symm
  exact passes_singleton (ne_of_class hBlank '\\' rfl) (not_isMark_of_isBlank hBlank) hOther

omit hBlanks in
theorem splitRaw_separator (rest : List Char) :
    splitRaw separator {} (separator :: rest) = [] :: splitRaw separator {} rest := by
  rw [splitRaw.eq_def]
  simp [hSeparator.notBackslash, SplitState.separates, hSeparator.notMark]

/-- Texts that are passed as a whole are found again between separators, each but
the first one with the blanks in front of it. -/
theorem splitRaw_intercalate {first : List Char} {parts : List (List Char)}
    (hParts : ∀ part ∈ first :: parts, Passes separator part) :
    splitRaw separator {} (List.intercalate (separator :: blanks) (first :: parts)) =
      first :: parts.map (blanks ++ ·) := by
  induction parts generalizing first with
  | nil =>
      have hFirst := hParts first List.mem_cons_self 0 []
      rw [List.append_nil] at hFirst
      rw [List.intercalate_singleton, hFirst]
      simp [splitRaw, prepend]
  | cons second parts ih =>
      have hLater := ih fun part hMem => hParts part (List.mem_cons_of_mem first hMem)
      rw [List.intercalate_cons_cons, List.append_assoc, List.cons_append,
        hParts first List.mem_cons_self 0, splitRaw_separator hSeparator,
        passes_blanks hSeparator hBlanks 0, hLater]
      simp [prepend]

/-- Parts are found again between separators. -/
theorem split_intercalate {parts : List String} (hSome : parts ≠ [])
    (hParts : ∀ part ∈ parts, Part separator part) :
    split separator (String.intercalate (String.ofList (separator :: blanks)) parts) = parts := by
  obtain ⟨first, parts, rfl⟩ := List.exists_cons_of_ne_nil hSome
  have hText : (String.intercalate (String.ofList (separator :: blanks)) (first :: parts)).toList =
      List.intercalate (separator :: blanks) (first.toList :: parts.map String.toList) := by
    rw [String.toList_intercalate, String.toList_ofList, List.map_cons]
  have hPasses : ∀ part ∈ first.toList :: parts.map String.toList, Passes separator part := by
    intro cs hMem
    rw [← List.map_cons] at hMem
    obtain ⟨part, hPart, rfl⟩ := List.mem_map.mp hMem
    exact (hParts part hPart).passes
  have hTrim {part : String} (hMem : part ∈ first :: parts) :
      String.ofList (trim part.toList) = part :=
    (hParts part hMem).solid.strip_eq
  have hFirst := hParts first List.mem_cons_self
  have hFilled : (List.intercalate (separator :: blanks)
      (first.toList :: parts.map String.toList)).all isBlank = false := by
    have hBegin := hFirst.solid.not_all_isBlank hFirst.some
    cases parts with
    | nil => simpa using hBegin
    | cons second parts =>
        rw [List.map_cons, List.intercalate_cons_cons, List.append_assoc, List.all_append, hBegin,
          Bool.false_and]
  rw [split, splitChars, hText, hFilled, if_neg Bool.false_ne_true,
    splitRaw_intercalate hSeparator hBlanks hPasses]
  simp only [List.map_cons, List.map_map, hTrim List.mem_cons_self]
  refine congrArg _ ((List.map_congr_left fun part hMem => ?_).trans (List.map_id parts))
  simp only [Function.comp_apply, trim_append_of_blank hBlanks]
  exact hTrim (List.mem_cons_of_mem first hMem)

end

end NoteTemplate.Param
