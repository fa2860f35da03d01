import NoteTemplate.Proofs.Compose.Template

/-! On which texts the scanner comes to the end. It takes a wider class of
characters for the first digit of a number than numbers are written with, and
stops at a digit that is in the one class but not in the other. It stops at
nothing else. -/
namespace NoteTemplate.Token

open Text

/-- Whether a character counts as a digit but is none of a number. -/
def isStray (c : Char) : Bool := isDigit c && !isDecimalDigit c

/-- Whether a text begins with such a digit, alone or behind a minus. -/
def startsStray (c : Char) (rest : List Char) : Bool :=
  isStray c || (c == '-' && (rest.head?.map isStray).getD false)

/-- The scanner, in a mode in front of a text, comes to a stray digit inside an
expression or a tag. -/
inductive MeetsStray : Mode → List Char → Prop where
  | here {mode : Mode} {cs rest : List Char} {c : Char}
      (hGap : cs.drop (gap mode cs).length = c :: rest) (hMode : mode ≠ .text)
      (hStray : startsStray c rest = true) : MeetsStray mode cs
  | later {mode : Mode} {cs rest : List Char} {c : Char} {found : Lexeme}
      (hGap : cs.drop (gap mode cs).length = c :: rest) (hLexeme : lexeme mode c rest = .ok found)
      (hLater : MeetsStray found.mode ((c :: rest).drop found.size)) : MeetsStray mode cs

/-! One lexeme. -/

theorem isStray_spec {c : Char} (h : isStray c = true) :
    isDigit c = true ∧ isDecimalDigit c = false := by
  simpa [isStray] using h

/-- A stray digit begins no number. -/
theorem numberLexeme_of_stray (mode : Mode) {c : Char} {rest : List Char}
    (h : startsStray c rest = true) :
    startsNumber c rest = true ∧ numberLexeme mode c rest = .error .strayDigit := by
  rw [startsStray, Bool.or_eq_true, Bool.and_eq_true, beq_iff_eq] at h
  rcases h with hStray | ⟨rfl, hBehind⟩
  · obtain ⟨hDigit, hDecimal⟩ := isStray_spec hStray
    have hMinus : c ≠ '-' := ne_of_class hStray '-' (by decide)
    simp [startsNumber, numberLexeme, hMinus, hDigit, hDecimal]
  · cases rest with
    | nil => cases hBehind
    | cons d later =>
        obtain ⟨hDigit, hDecimal⟩ := isStray_spec hBehind
        simp [startsNumber, numberLexeme, hDigit, hDecimal]

/-- Where the scanner expects a number, any other digit begins one. -/
theorem exists_numberLexeme (mode : Mode) {c : Char} {rest : List Char}
    (h : startsNumber c rest = true) (hStray : startsStray c rest = false) :
    ∃ found, numberLexeme mode c rest = .ok found := by
  have hDecimal {d : Char} (hDigit : isDigit d = true) (hStray : isStray d = false) :
      isDecimalDigit d = true := by
    simpa [isStray, hDigit] using hStray
  rw [startsStray, Bool.or_eq_false_iff] at hStray
  by_cases hMinus : c = '-'
  · subst hMinus
    cases rest with
    | nil => cases h
    | cons d later => simp [numberLexeme, hDecimal h hStray.2]
  · have hDigit : isDigit c = true := by simpa [startsNumber, hMinus] using h
    simp [numberLexeme, hMinus, hDecimal hDigit hStray.1]

/-- No closing delimiter begins with a stray digit. -/
theorem closing?_of_stray (mode : Mode) {c : Char} {rest : List Char}
    (h : startsStray c rest = true) : closing? mode (c :: rest) = none := by
  have hMark {d : Char} (hStray : isStray d = true) :
      ((if mode = .variable then '\x7d' else '%') == d) = false := by
    rw [beq_eq_false_iff_ne]
    split
    · exact (ne_of_class hStray '\x7d' (by decide)).symm
    · exact (ne_of_class hStray '%' (by decide)).symm
  rw [startsStray, Bool.or_eq_true, Bool.and_eq_true, beq_iff_eq] at h
  rcases h with hStray | ⟨rfl, hBehind⟩
  · have hMinus : ('-' == c) = false :=
      beq_eq_false_iff_ne.mpr (ne_of_class hStray '-' (by decide)).symm
    simp only [closing?, startsWith_cons_cons, hMinus, hMark hStray, Bool.false_and,
      Bool.false_eq_true, if_false]
  · cases rest with
    | nil => cases hBehind
    | cons d later =>
        have hMinus : ((if mode = .variable then '\x7d' else '%') == '-') = false := by
          cases mode <;> decide
        simp only [closing?, startsWith_cons_cons, hMark hBehind, hMinus, Bool.false_and,
          Bool.and_false, Bool.false_eq_true, if_false]

/-- Neither a delimiter nor a string begins with a stray digit. -/
theorem lexeme_of_stray {mode : Mode} {c : Char} {rest : List Char} (hMode : mode ≠ .text)
    (h : startsStray c rest = true) : lexeme mode c rest = .error .strayDigit := by
  obtain ⟨hNumber, hError⟩ := numberLexeme_of_stray mode h
  have hFirst : isStray c = true ∨ c = '-' := by
    rw [startsStray, Bool.or_eq_true, Bool.and_eq_true, beq_iff_eq] at h
    exact h.imp_right And.left
  have hNe (d : Char) (hStray : isStray d = false) (hMinus : '-' ≠ d) : c ≠ d := by
    rcases hFirst with hHere | rfl
    · exact ne_of_class hHere d hStray
    · exact hMinus
  have hBrace : ('\x7b' == c) = false :=
    beq_eq_false_iff_ne.mpr (hNe '\x7b' (by decide) (by decide)).symm
  have hOpens : opensHere (c :: rest) = false := by
    simp only [opensHere, openVariable, openTag, startsWith_cons_cons, hBrace, Bool.false_and,
      Bool.or_false]
  have hQuote : isQuote c = false := by
    simp [isQuote, hNe '"' (by decide) (by decide), hNe '\'' (by decide) (by decide)]
  rw [lexeme, if_neg hMode, innerLexeme, closing?_of_stray mode h]
  simp only [hOpens, hQuote, hNumber, hError, if_true, Bool.false_eq_true, if_false]

/-- Every other text has a lexeme at its front. -/
theorem exists_lexeme {mode : Mode} {c : Char} {rest : List Char}
    (h : mode = .text ∨ startsStray c rest = false) : ∃ found, lexeme mode c rest = .ok found := by
  rw [lexeme]
  split
  · split <;> exact ⟨_, rfl⟩
  · next hMode =>
    rw [innerLexeme]
    split
    · exact ⟨_, rfl⟩
    · split
      · exact ⟨_, rfl⟩
      · split
        · exact ⟨_, rfl⟩
        · split
          · next hNumber => exact exists_numberLexeme mode hNumber (h.resolve_left hMode)
          · exact ⟨_, rfl⟩

/-! A whole text. -/

/-- By induction on the text, the scanner comes to the end or to a stray digit. -/
theorem scanFrom_outcome (mode : Mode) (position : Position) (cs : List Char) :
    (MeetsStray mode cs ∧ scanFrom mode position cs = .error .strayDigit) ∨
      (¬ MeetsStray mode cs ∧ ∃ tokens, scanFrom mode position cs = .ok tokens) := by
  induction mode, position, cs using scanFrom.induct with
  | case1 mode position cs blanks hGap =>
      refine .inr ⟨fun hMeets => ?_, _, scanFrom_end hGap position⟩
      cases hMeets with
      | here hCons => cases hGap.symm.trans hCons
      | later hCons => cases hGap.symm.trans hCons
  | case2 mode position cs blanks start c rest hGap ih =>
      by_cases hStray : mode = .text ∨ startsStray c rest = false
      · obtain ⟨found, hLexeme⟩ := exists_lexeme hStray
        rw [scanFrom_lexeme hGap hLexeme]
        rcases ih found with ⟨hMeets, hScan⟩ | ⟨hMeets, tokens, hScan⟩
        · exact .inl ⟨.later hGap hLexeme hMeets, by rw [hScan]; rfl⟩
        · refine .inr ⟨fun hWhole => ?_, _, by rw [hScan]; rfl⟩
          cases hWhole with
          | here hCons hMode hHere =>
              cases hGap.symm.trans hCons
              simp [hMode, hHere] at hStray
          | later hCons hFound hLater =>
              cases hGap.symm.trans hCons
              cases hLexeme.symm.trans hFound
              exact hMeets hLater
      · rw [not_or, Bool.not_eq_false] at hStray
        have hLexeme := lexeme_of_stray hStray.1 hStray.2
        exact .inl ⟨.here hGap hStray.1 hStray.2, scanFrom_fault hGap hLexeme position⟩

/-- The scanner comes to the end of a text, and marks it there and nowhere else,
unless it meets a stray digit. On one that does it stops with a fault. -/
theorem scan_ends_iff (text : String) :
    ((∃ inner, scan text = .ok (inner ++ [endAt (Position.behind text)]) ∧
        ∀ t ∈ inner, t.kind ≠ .endOfText) ↔ ¬ MeetsStray .text text.toList) ∧
      (scan text = .error .strayDigit ↔ MeetsStray .text text.toList) := by
  rw [scan]
  rcases scanFrom_outcome .text Position.start text.toList with ⟨hMeets, hScan⟩ | ⟨hMeets, tokens, hScan⟩
  · simp [hScan, hMeets]
  · obtain ⟨inner, rfl, hInner⟩ := (Yields.of_scan hScan).ends
    refine ⟨⟨fun _ => hMeets, fun _ => ⟨inner, hScan, hInner⟩⟩, fun hFault => ?_, fun h => absurd h hMeets⟩
    cases hScan.symm.trans hFault

/-- A superscript is taken for the beginning of a number. -/
theorem superscript_stops_scan : scan "\x7b\x7b²\x7d\x7d" = .error .strayDigit ∧
    ¬ ∃ tokens, scan "\x7b\x7b²\x7d\x7d" = .ok tokens := by
  have hScan : scan "\x7b\x7b²\x7d\x7d" = .error .strayDigit := by decide +kernel
  refine ⟨hScan, ?_⟩
  rintro ⟨tokens, hTokens⟩
  cases hScan.symm.trans hTokens

end NoteTemplate.Token
