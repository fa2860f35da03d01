import NoteTemplate.Proofs.RoundTrip.Scanning
import NoteTemplate.Proofs.Value.Integer

/-! The scanner at a name, a number and a string. Names and numbers end where
the text behind them cannot belong to them; a string ends at its quote, since
every quote inside it has a backslash. -/
namespace NoteTemplate.Token

open Text NoteTemplate.Expr

/-- A name begins with a character of ASCII behind the digits. -/
theorem isNameStart_toNat {c : Char} (h : isNameStart c = true) : 57 < c.toNat ∧ c.toNat < 0x80 := by
  simp only [isNameStart, isAsciiLetter, Bool.or_eq_true, Bool.and_eq_true, decide_eq_true_eq,
    beq_iff_eq] at h
  obtain ((⟨hLow, hHigh⟩ | ⟨hLow, hHigh⟩) | rfl) | rfl := h
  · have hFirst : 97 ≤ c.toNat := hLow
    have hLast : c.toNat ≤ 122 := hHigh
    omega
  · have hFirst : 65 ≤ c.toNat := hLow
    have hLast : c.toNat ≤ 90 := hHigh
    omega
  · decide
  · decide

/-- A character of a class is none outside of it. -/
theorem ne_of_class {p : Char → Bool} {c : Char} (h : p c = true) :
    ∀ d, p d = false → c ≠ d := by
  rintro d hOther rfl
  rw [h] at hOther
  cases hOther

theorem pairKind?_of_isNameStart {c : Char} (h : isNameStart c = true) (d : Char) :
    pairKind? c d = none := by
  have hNe := ne_of_class h
  simp [pairKind?, hNe '=' rfl, hNe '!' rfl, hNe '>' rfl, hNe '<' rfl, hNe '&' rfl, hNe '|' rfl,
    hNe '?' rfl]

theorem singleKind?_of_isNameStart {c : Char} (h : isNameStart c = true) :
    singleKind? c = none := by
  have hNe := ne_of_class h
  simp [singleKind?, hNe '=' rfl, hNe '!' rfl, hNe '>' rfl, hNe '<' rfl, hNe '|' rfl, hNe '(' rfl,
    hNe ')' rfl, hNe '[' rfl, hNe ']' rfl, hNe ':' rfl, hNe ',' rfl, hNe '.' rfl]

theorem isEdge_cases {c : Char} (h : isEdge c = true) :
    c = ' ' ∨ c = ')' ∨ c = ']' ∨ c = '[' ∨ c = '|' ∨ c = ',' ∨ c = ':' := by
  simpa [isEdge] using h

theorem not_isNameChar_of_isEdge {c : Char} (h : isEdge c = true) : isNameChar c = false := by
  rcases isEdge_cases h with rfl | rfl | rfl | rfl | rfl | rfl | rfl <;> decide

/-- A dash inside a name is not taken for the beginning of a closing
delimiter, for one is not followed by what may follow a name. -/
theorem nameTail_append {cs rest : List Char} (hChars : ∀ d ∈ cs, isNameChar d = true)
    (hRest : AtEdge rest) : nameTail (cs ++ rest) = cs := by
  obtain ⟨c, later, rfl, hEdge⟩ := hRest
  induction cs with
  | nil =>
      rw [List.nil_append, nameTail, not_isNameChar_of_isEdge hEdge]
      rfl
  | cons d ds ih =>
      have hBehind (mark : Char) (hName : isNameChar mark = false) (hMark : isEdge mark = false) :
          startsWith [mark] (ds ++ c :: later) = false := by
        cases ds with
        | nil =>
            have hNe : mark ≠ c := by
              rintro rfl
              rw [hMark] at hEdge
              cases hEdge
            simp [startsWith_cons_cons, hNe]
        | cons e es =>
            have hNe : mark ≠ e := by
              rintro rfl
              rw [hChars mark (by simp)] at hName
              cases hName
            simp [startsWith_cons_cons, hNe]
      rw [List.cons_append, nameTail, hChars d (by simp), hBehind '\x7d' (by decide) (by decide),
        hBehind '%' (by decide) (by decide), ih fun e he => hChars e (by simp [he])]
      simp

/-- A name is begun by the first character of names alone. -/
theorem innerLexeme_of_isNameStart {c : Char} (hStart : isNameStart c = true) (rest : List Char) :
    innerLexeme .variable c rest = .ok (nameLexeme .variable c rest) := by
  have hNe := ne_of_class hStart
  have hRange := isNameStart_toNat hStart
  have hDash : c ≠ '-' := hNe '-' rfl
  rw [innerLexeme_of_ne hDash (hNe '\x7d' rfl) (hNe '\x7b' rfl)]
  rw [if_neg (by simp [isQuote, hNe '"' rfl, hNe '\'' rfl])]
  rw [if_neg (by simp [startsNumber, hDash, isDigit_of_toNat (.inr hRange.1) hRange.2])]
  have hNoPair : rest.head?.bind (pairKind? c) = none := by
    cases rest.head? with
    | none => rfl
    | some d => exact pairKind?_of_isNameStart hStart d
  simp only [markLexeme, hNoPair, singleKind?_of_isNameStart hStart, hStart, if_true]

theorem not_isGap_of_isNameStart {c : Char} (h : isNameStart c = true) : isGap c = false := by
  have hNe := ne_of_class h
  simp [isGap, hNe ' ' rfl, hNe '\t' rfl, hNe '\r' rfl, hNe '\n' rfl]

/-- A name, whether it is a word of the language or not, where it does not begin a
page selector. -/
theorem scans_nameText {suits : List Char → Prop} {name : String}
    (hText : isNameText name.toList = true) (hEdge : ∀ rest, suits rest → AtEdge rest)
    (hSelector : ∀ rest, suits rest →
      ((name == "selector" || name == "selectorHtml") && startsWith [':'] rest) = false) :
    Scans suits name.toList [((keyword? (toLower name)).getD .identifier, name)] := by
  obtain ⟨c, cs, hName, hStart, hChars⟩ := exists_of_isNameText hText
  have hSelf : String.ofList (c :: cs) = name := by rw [← hName, String.ofList_toList]
  rw [hName]
  refine Scans.of_lexeme (not_isGap_of_isNameStart hStart) fun rest hRest => ?_
  refine ⟨_, innerLexeme_of_isNameStart hStart _, ?_⟩
  simp only [nameLexeme, nameTail_append hChars (hEdge rest hRest), hSelf, List.drop_left,
    hSelector rest hRest]
  simp

/-- A name that no colon can make a page selector of. -/
theorem scans_name {name : String} (hText : isNameText name.toList = true)
    (hSelector : name ≠ "selector" ∧ name ≠ "selectorHtml") :
    Scans AtEdge name.toList [((keyword? (toLower name)).getD .identifier, name)] :=
  scans_nameText hText (fun _ hRest => hRest) fun _ _ => by simp [hSelector]

theorem isDecimalDigit_of_isDigit {c : Char} (h : c.isDigit = true) : isDecimalDigit c = true := by
  simp only [Char.isDigit, Bool.and_eq_true, decide_eq_true_eq] at h
  have hLow : 48 ≤ c.toNat := h.1
  have hHigh : c.toNat ≤ 57 := h.2
  have hAscii : c.toNat < 0x80 := by omega
  simp [isDecimalDigit, digitValue?, hAscii, hLow, hHigh]

theorem not_isDecimalDigit_of_isEdge {c : Char} (h : isEdge c = true) : isDecimalDigit c = false := by
  rcases isEdge_cases h with rfl | rfl | rfl | rfl | rfl | rfl | rfl <;> decide

/-- The digits of a number end at an edge. -/
theorem numberTail_append {digits rest : List Char} (hDigits : ∀ d ∈ digits, isDecimalDigit d = true)
    (hRest : AtEdge rest) : numberTail (digits ++ rest) = digits := by
  obtain ⟨c, later, rfl, hEdge⟩ := hRest
  have hEnd : ¬ isDecimalDigit c = true := by simp [not_isDecimalDigit_of_isEdge hEdge]
  rw [numberTail, List.takeWhile_append_of_pos hDigits, List.dropWhile_append_of_pos hDigits,
    List.takeWhile_cons_of_neg hEnd, List.dropWhile_cons_of_neg hEnd, List.append_nil]
  split
  · next hPoint =>
      obtain ⟨rfl, -⟩ := List.cons.inj hPoint
      exact absurd hEdge (by decide)
  · rfl

/-- A number that begins with a digit. -/
theorem scans_digits {c : Char} {cs : List Char} (hFirst : isDecimalDigit c = true)
    (hDigits : ∀ d ∈ cs, isDecimalDigit d = true) :
    Scans AtEdge (c :: cs) [(.number, String.ofList (c :: cs))] := by
  have hNe := ne_of_class hFirst
  refine Scans.of_lexeme ?_ fun rest hRest => ?_
  · simp [isGap, hNe ' ' rfl, hNe '\t' rfl, hNe '\r' rfl, hNe '\n' rfl]
  · rw [innerLexeme_of_ne (hNe '-' rfl) (hNe '\x7d' rfl) (hNe '\x7b' rfl)]
    rw [if_neg (by simp [isQuote, hNe '"' rfl, hNe '\'' rfl])]
    rw [if_pos (by simp [startsNumber, isDigit, hFirst])]
    simp only [numberLexeme, numberTail_append hDigits hRest, hNe '-' rfl, hFirst, if_true, if_false]
    exact ⟨_, rfl, rfl, rfl, rfl, rfl⟩

/-- A number that begins with a minus. The digit behind the minus keeps it from
being the beginning of a closing delimiter. -/
theorem scans_minus {c : Char} {cs : List Char} (hFirst : isDecimalDigit c = true)
    (hDigits : ∀ d ∈ cs, isDecimalDigit d = true) :
    Scans AtEdge ('-' :: c :: cs) [(.number, String.ofList ('-' :: c :: cs))] := by
  have hNe := ne_of_class hFirst
  refine Scans.of_lexeme rfl fun rest hRest => ?_
  have hNotClosing : closing? .variable ('-' :: c :: (cs ++ rest)) = none := by
    simp [closing?, startsWith_cons_cons, (hNe '\x7d' rfl).symm]
  have hNotOpening : opensHere ('-' :: c :: (cs ++ rest)) = false := rfl
  have hNumber : startsNumber '-' (c :: (cs ++ rest)) = true := by
    simp [startsNumber, isDigit, hFirst]
  have hTail : numberTail (c :: (cs ++ rest)) = c :: cs := by
    rw [← List.cons_append]
    refine numberTail_append ?_ hRest
    simpa [hFirst] using hDigits
  rw [List.cons_append, innerLexeme, hNotClosing]
  simp only [hNotOpening, hNumber, numberLexeme, hTail, hFirst, if_true]
  exact ⟨_, rfl, rfl, rfl, rfl, rfl⟩

/-- An integer is one token. -/
theorem scans_int (n : Int) :
    Scans AtEdge (Value.text (.int n)).toList [(.number, Value.text (.int n))] := by
  have hText : Value.text (.int n) = String.ofList (Value.text (.int n)).toList := by simp
  obtain ⟨c, cs, hCons⟩ := List.exists_cons_of_ne_nil (Nat.toDigits_ne_nil (b := 10) (n := n.natAbs))
  have hDigits : ∀ d ∈ c :: cs, isDecimalDigit d = true := by
    rw [← hCons]
    intro d hd
    exact isDecimalDigit_of_isDigit (Nat.isDigit_of_mem_toDigits (by omega) (by omega) hd)
  obtain ⟨hFirst, hRest⟩ := List.forall_mem_cons.mp hDigits
  rw [hText, Value.intText_toList, hCons, String.toList_ofList]
  split
  · exact scans_minus hFirst hRest
  · exact scans_digits hFirst hRest

theorem quotable_tail {c : Char} {cs : List Char} (h : Quotable (String.ofList (c :: cs))) :
    Quotable (String.ofList cs) := by
  simp only [Quotable, String.toList_ofList] at h ⊢
  exact ⟨fun hInside => h.1 (hInside.trans (List.suffix_cons c cs).isInfix),
    fun hInside => h.2 (hInside.trans (List.suffix_cons c cs).isInfix)⟩

/-- Backslashes come between the characters of a text and never bring two of
them together. -/
theorem endsHere_backslashed {c : Char} {cs : List Char} (rest : List Char)
    (h : Quotable (String.ofList (c :: cs))) :
    endsHere (c :: (backslashed cs ++ '"' :: rest)) = false := by
  simp only [Quotable, String.toList_ofList] at h
  cases cs with
  | nil => simp [endsHere, startsWith_cons_cons, backslashed]
  | cons d ds =>
      rw [backslashed]
      split
      · simp [endsHere, startsWith_cons_cons]
      · simp only [endsHere, List.cons_append, startsWith_cons_cons, Bool.or_eq_false_iff]
        constructor
        · rw [← Bool.not_eq_true]
          intro hEnd
          obtain ⟨rfl, rfl⟩ : '\x7d' = c ∧ '\x7d' = d := by simpa [startsWith] using hEnd
          exact h.1 ⟨[], ds, rfl⟩
        · rw [← Bool.not_eq_true]
          intro hEnd
          obtain ⟨rfl, rfl⟩ : '%' = c ∧ '\x7d' = d := by simpa [startsWith] using hEnd
          exact h.2 ⟨[], ds, rfl⟩

theorem stringBody_cons {c : Char} (hPlain : c ≠ '\\') (quote : Char) (rest : List Char) :
    stringBody quote (c :: rest) =
      if c = quote || endsHere (c :: rest) then [] else c :: stringBody quote rest := by
  cases rest <;> simp [stringBody, hPlain]

/-- The body of a string in quotes, with a backslash before each quote and each
backslash, reaches to the closing quote. -/
theorem stringBody_backslashed (cs rest : List Char) (h : Quotable (String.ofList cs)) :
    stringBody '"' (backslashed cs ++ '"' :: rest) = backslashed cs := by
  induction cs with
  | nil =>
      rw [backslashed, List.nil_append, stringBody_cons (by decide)]
      simp
  | cons c cs ih =>
      have hLater := ih (quotable_tail h)
      have hEnd := endsHere_backslashed rest h
      rw [backslashed]
      split
      · next hSpecial =>
          rw [List.cons_append, List.cons_append, stringBody, hLater]
          simp [endsHere, startsWith_cons_cons]
      · next hPlain =>
          simp only [needsBackslash, Bool.or_eq_true, beq_iff_eq, not_or] at hPlain
          rw [List.cons_append, stringBody_cons hPlain.1, hEnd, hLater]
          simp [hPlain]

theorem unescape_cons {c : Char} (hPlain : c ≠ '\\') (rest : List Char) :
    unescape (c :: rest) = c :: unescape rest := by
  cases rest <;> simp [unescape, hPlain]

/-- Taking off the backslashes undoes putting them in. -/
theorem unescape_backslashed (cs : List Char) : unescape (backslashed cs) = cs := by
  induction cs with
  | nil => rfl
  | cons c cs ih =>
      rw [backslashed]
      split
      · next hSpecial =>
          have hSame : unescapeChar c = c := by
            simp only [needsBackslash, Bool.or_eq_true, beq_iff_eq] at hSpecial
            rcases hSpecial with rfl | rfl <;> rfl
          rw [unescape, ih, hSame]
          simp
      · next hPlain =>
          simp only [needsBackslash, Bool.or_eq_true, beq_iff_eq, not_or] at hPlain
          rw [unescape_cons hPlain.1, ih]

theorem quote_toList (s : String) : (quote s).toList = '"' :: (backslashed s.toList ++ ['"']) := by
  simp [quote]

/-- A text in quotes is one token, whatever follows it. -/
theorem scans_quote {s : String} (h : Quotable s) :
    Scans Anywhere (quote s).toList [(.string, s)] := by
  have hQuotable : Quotable (String.ofList s.toList) := by rwa [String.ofList_toList]
  rw [quote_toList]
  refine Scans.of_lexeme rfl fun rest _ => ?_
  have hBody : stringBody '"' (backslashed s.toList ++ ['"'] ++ rest) = backslashed s.toList := by
    rw [List.append_assoc, List.singleton_append, stringBody_backslashed _ _ hQuotable]
  have hQuote : startsWith ['"'] ((backslashed s.toList ++ ['"'] ++ rest).drop
      (backslashed s.toList).length) = true := by
    rw [List.append_assoc, List.drop_left]
    rfl
  rw [innerLexeme_of_ne (by decide) (by decide) (by decide), if_pos (by decide), stringLexeme]
  simp only [hBody, hQuote, if_true, unescape_backslashed, String.ofList_toList]
  exact ⟨_, rfl, rfl, rfl, by simp, rfl⟩

end NoteTemplate.Token
