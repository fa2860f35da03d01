import NoteTemplate.Proofs.Param.Splitting
import NoteTemplate.Render.Evaluate

/-! Texts as arguments of a filter. They are written into its parameter text in quotes, behind
commas or in parentheses, and the filter reads the same texts back out of it. -/
namespace NoteTemplate.Param

open Text Token

/-- Every backslash that is written is taken off again. -/
theorem unescapeChars_backslashed (cs : List Char) : unescapeChars (backslashed cs) = cs := by
  induction cs with
  | nil => rfl
  | cons c cs ih =>
      by_cases hSpecial : needsBackslash c = true
      · rw [backslashed, if_pos hSpecial, unescapeChars.eq_def]
        simp [ih]
      · have hOther : c ≠ '\\' ∧ c ≠ '"' := by simpa [needsBackslash] using hSpecial
        rw [backslashed, if_neg hSpecial, unescapeChars.eq_def]
        simp [ih, hOther]

theorem unquote_quote (s : String) : unquote (quote s) = String.ofList (backslashed s.toList) := by
  have hEnd : (backslashed s.toList ++ ['"']).reverse = '"' :: (backslashed s.toList).reverse := by
    simp
  rw [unquote, unquoteChars, (solid_quote s).trim_eq, quote_toList]
  simp [hEnd, isQuote]

/-- A quoted text is decoded to the text. -/
theorem decode_quote (s : String) : decode (quote s) = s := by
  rw [decode, unquote_quote, unescape, String.toList_ofList, unescapeChars_backslashed,
    String.ofList_toList]

/-- What begins with a quote does not stand in parentheses. -/
theorem stripParens_of_quote {s : String} {rest : List Char} (h : Solid s)
    (hText : s.toList = '"' :: rest) : stripParens s = s := by
  have hStrip : stripParensChars s.toList = s.toList := by
    rw [stripParensChars, h.trim_eq, hText]
    rfl
  rw [stripParens, hStrip, String.ofList_toList]

theorem stripParens_parens (s : String) : stripParens ("(" ++ s ++ ")") = s := by
  have hText : ("(" ++ s ++ ")").toList = '(' :: (s.toList ++ [')']) := by simp
  have hSolid : Solid ("(" ++ s ++ ")") := solid_between hText rfl rfl
  rw [stripParens, stripParensChars, hSolid.trim_eq, hText]
  simp

/-- Parts with one separator between all of them. -/
theorem interleave_replicate (separator : Separator) (parts : List String) :
    interleave (List.replicate (parts.length - 1) separator) parts =
      String.intercalate separator.text parts := by
  cases parts with
  | nil => rfl
  | cons first parts =>
      induction parts generalizing first with
      | nil => simp [interleave]
      | cons second parts ih =>
          rw [String.intercalate_cons_cons, ← ih second]
          simp [interleave, List.replicate_succ, String.append_assoc]

/-- Either form of several arguments: in parentheses, or with commas between them. -/
def Listed (separators : List Separator) (parenthesized : Bool) (count : Nat) : Prop :=
  parenthesized = true ∨ separators = List.replicate (count - 1) .comma

theorem separates_comma : Separates ',' := ⟨rfl, by decide, rfl⟩

/-- Parts that begin with a quote are found again between the commas of a parameter
text, which does not stand in parentheses then. -/
theorem split_stripParens {parts : List String} (hSome : parts ≠ [])
    (hParts : ∀ part ∈ parts, Part ',' part)
    (hQuotes : ∀ part ∈ parts, ∃ rest, part.toList = '"' :: rest) :
    split ',' (stripParens (String.intercalate "," parts)) = parts := by
  have hSolid : Solid (String.intercalate "," parts) :=
    solid_intercalate (solid_singleton (c := ',') rfl) fun part hPart => (hParts part hPart).solid
  have hBegin : ∃ rest, (String.intercalate "," parts).toList = '"' :: rest := by
    obtain ⟨first, others, rfl⟩ := List.exists_cons_of_ne_nil hSome
    obtain ⟨rest, hFirst⟩ := hQuotes first List.mem_cons_self
    cases others with
    | nil => exact ⟨rest, by rw [String.intercalate_singleton, hFirst]⟩
    | cons second others =>
        rw [String.intercalate_cons_cons, String.toList_append, String.toList_append, hFirst]
        exact ⟨_, rfl⟩
  obtain ⟨rest, hText⟩ := hBegin
  have hNoBlanks : ∀ c ∈ ([] : List Char), isBlank c = true := by simp
  rw [stripParens_of_quote hSolid hText]
  exact split_intercalate separates_comma hNoBlanks hSome hParts

/-- Quoted texts are found again in either form. -/
theorem split_layoutArgs {texts : List String} (hSome : texts ≠ []) {separators : List Separator}
    {parenthesized : Bool} (hForm : Listed separators parenthesized texts.length) :
    split ',' (stripParens (layoutArgs separators parenthesized (texts.map quote))) =
      texts.map quote := by
  have hQuotes : texts.map quote ≠ [] := by simpa using hSome
  have hParts : ∀ part ∈ texts.map quote, Part ',' part := by
    intro part hMem
    obtain ⟨s, _, rfl⟩ := List.mem_map.mp hMem
    exact part_quote ',' s
  cases parenthesized with
  | true =>
      have hBlanks : ∀ c ∈ [' '], isBlank c = true := by simp [isBlank]
      rw [layoutArgs, if_pos rfl, stripParens_parens]
      exact split_intercalate separates_comma hBlanks hQuotes hParts
  | false =>
      have hCommas : separators = List.replicate ((texts.map quote).length - 1) .comma := by
        rw [List.length_map]
        exact hForm.resolve_left Bool.false_ne_true
      rw [layoutArgs, if_neg Bool.false_ne_true, hCommas, interleave_replicate]
      refine split_stripParens hQuotes hParts fun part hMem => ?_
      obtain ⟨s, _, rfl⟩ := List.mem_map.mp hMem
      exact ⟨_, quote_toList s⟩

/-- Texts are written in quotes. -/
theorem paramOf_texts {texts : List String} (hSome : texts ≠ []) (separators : List Separator)
    (parenthesized : Bool) : Render.paramOf separators parenthesized (texts.map Value.str) =
      some (layoutArgs separators parenthesized (texts.map quote)) := by
  obtain ⟨first, rest, rfl⟩ := List.exists_cons_of_ne_nil hSome
  simp [Render.paramOf, Value.paramText, Function.comp_def]

theorem single_of_stripParens {param s : String} (h : stripParens param = quote s) :
    single (some param) = s := by
  have hFilled : param ≠ "" := by
    rintro rfl
    exact quote_ne_empty s (h.symm.trans (by decide))
  simp only [single, if_neg hFilled, h, decode_quote]

theorem single_quote (s : String) : single (some (quote s)) = s :=
  single_of_stripParens (stripParens_of_quote (solid_quote s) (quote_toList s))

/-- One text alone is read out of either form. -/
theorem single_layoutArgs (s : String) (separators : List Separator) (parenthesized : Bool) :
    single (some (layoutArgs separators parenthesized [quote s])) = s := by
  cases parenthesized with
  | true =>
      rw [layoutArgs, if_pos rfl, String.intercalate_singleton]
      exact single_of_stripParens (stripParens_parens (quote s))
  | false =>
      have hAlone : interleave separators [quote s] = quote s := by simp [interleave]
      rw [layoutArgs, if_neg Bool.false_ne_true, hAlone]
      exact single_quote s

/-- The arguments that a filter reads out of its parameter text are the texts that were written
into it, whatever their characters and however many there are. A text that stands alone is also
read as the one argument. -/
theorem written_texts_are_read {texts : List String} (hSome : texts ≠ [])
    {separators : List Separator} {parenthesized : Bool}
    (hForm : Listed separators parenthesized texts.length) :
    list (Render.paramOf separators parenthesized (texts.map Value.str)) = texts ∧
      ∀ s, texts = [s] →
        single (Render.paramOf separators parenthesized (texts.map Value.str)) = s := by
  have hSplit := split_layoutArgs hSome hForm
  rw [paramOf_texts hSome]
  constructor
  · have hFilled : layoutArgs separators parenthesized (texts.map quote) ≠ "" := by
      intro hEmpty
      rw [hEmpty] at hSplit
      exact hSome (List.map_eq_nil_iff.mp hSplit.symm)
    have hDecode : decode ∘ quote = id := funext decode_quote
    simp only [list, args, if_neg hFilled, hSplit, List.map_map, hDecode, List.map_id]
  · rintro s rfl
    exact single_layoutArgs s separators parenthesized

/-- Texts with a closing parenthesis behind a quote, a backslash at the end, a comma between
blanks and a line break. -/
theorem written_texts_are_read_awkward :
    let texts := ["\")", "a\\", " , ", "\n["]
    texts ≠ [] ∧ Listed [] true texts.length ∧
      list (Render.paramOf [] true (texts.map Value.str)) = texts ∧
      ∀ s, texts = [s] → single (Render.paramOf [] true (texts.map Value.str)) = s :=
  ⟨by decide, .inl rfl, written_texts_are_read (by decide) (.inl rfl)⟩

end NoteTemplate.Param
