import NoteTemplate.Token.Scan

/-! How far the scanner looks ahead. Inside an expression or a tag it never
looks at more than two characters behind those that it takes. As long as a
closing delimiter follows, a lexeme is thus the same whatever stands behind the
text. -/
namespace NoteTemplate.Token

open Text

/-- Whether a text begins with a part is decided by as many characters as the part has.
-/
theorem startsWith_append_of_le {part cs : List Char} (h : part.length ≤ cs.length)
    (tail : List Char) : startsWith part (cs ++ tail) = startsWith part cs := by
  induction part generalizing cs with
  | nil => rfl
  | cons p ps ih =>
      cases cs with
      | nil => cases h
      | cons c rest =>
          have hRest := ih (Nat.le_of_succ_le_succ h)
          simp only [startsWith, List.cons_append, List.isPrefixOf] at hRest ⊢
          rw [hRest]

theorem opensHere_append {cs : List Char} (h : 2 ≤ cs.length) (tail : List Char) :
    opensHere (cs ++ tail) = opensHere cs := by
  have hVariable : openVariable.length ≤ cs.length := h
  have hTag : openTag.length ≤ cs.length := h
  rw [opensHere, opensHere, startsWith_append_of_le hVariable, startsWith_append_of_le hTag]

theorem endsHere_append {cs : List Char} (h : 2 ≤ cs.length) (tail : List Char) :
    endsHere (cs ++ tail) = endsHere cs := by
  have hVariable : ['\x7d', '\x7d'].length ≤ cs.length := h
  have hTag : ['%', '\x7d'].length ≤ cs.length := h
  rw [endsHere, endsHere, startsWith_append_of_le hVariable, startsWith_append_of_le hTag]

/-- A text of which a scanner is not to take the last two characters has a
second one. -/
theorem exists_second {size : Nat} {cs : List Char} (h : size + 2 ≤ cs.length) :
    ∃ c e rest, cs = c :: e :: rest := by
  rcases cs with _ | ⟨c, _ | ⟨e, rest⟩⟩
  · cases h
  · rw [List.length_singleton] at h
    omega
  · exact ⟨c, e, rest, rfl⟩

/-- A string that ends in front of the end of a text is not changed by what is put
behind the text. -/
theorem stringBody_append (quote : Char) {length : Nat} {cs : List Char} (hLength : cs.length < length)
    (h : (stringBody quote cs).length + 2 ≤ cs.length) (tail : List Char) :
    stringBody quote (cs ++ tail) = stringBody quote cs := by
  induction length generalizing cs with
  | zero => cases hLength
  | succ length ih =>
      have hEnds := endsHere_append (Nat.le_trans (Nat.le_add_left 2 _) h) tail
      obtain ⟨c, e, rest, rfl⟩ := exists_second h
      simp only [List.cons_append, List.length_cons] at hEnds hLength ⊢
      rw [stringBody, hEnds, stringBody]
      rw [stringBody] at h
      split
      · rfl
      · next hStop =>
        rw [if_neg hStop] at h
        split
        · next hEscape =>
          rw [if_pos hEscape] at h
          simp only [List.length_cons] at h
          rw [ih (by omega) (by omega)]
        · next hEscape =>
          rw [if_neg hEscape] at h
          rw [← List.cons_append, ih (by simpa using hLength) (by simpa using h)]

/-- An argument with a backslash that ends in front of the end of a text stays as it is.
-/
theorem argumentBody_append {length : Nat} {cs : List Char} (hLength : cs.length < length)
    (h : (argumentBody cs).length + 2 ≤ cs.length) (tail : List Char) :
    argumentBody (cs ++ tail) = argumentBody cs := by
  induction length generalizing cs with
  | zero => cases hLength
  | succ length ih =>
      obtain ⟨c, e, rest, rfl⟩ := exists_second h
      simp only [List.cons_append, List.length_cons] at hLength ⊢
      rw [argumentBody, argumentBody]
      rw [argumentBody] at h
      split
      · rfl
      · next hStop =>
        rw [if_neg hStop] at h
        split
        · next hEscape =>
          rw [if_pos hEscape] at h
          simp only [List.length_cons] at h
          rw [ih (by omega) (by omega)]
        · next hEscape =>
          rw [if_neg hEscape] at h
          rw [← List.cons_append, ih (by simpa using hLength) (by simpa using h)]

theorem stopsAt_append (s : SelectorState) {cs : List Char} (h : 2 ≤ cs.length) (tail : List Char) :
    s.stopsAt (cs ++ tail) = s.stopsAt cs := by
  have hMark (mark : Char) : [mark].length ≤ cs.length := Nat.le_of_succ_le h
  have hDash (mark : Char) : ['-', mark].length ≤ cs.length := h
  rw [SelectorState.stopsAt, SelectorState.stopsAt, endsHere_append h,
    startsWith_append_of_le (hMark '|'), startsWith_append_of_le (hDash '%'),
    startsWith_append_of_le (hDash '\x7d'), startsWith_append_of_le (hMark '\x7d')]

/-- A selector that ends in front of the end of a text stays as it is, whatever is open
in it. -/
theorem selectorBody_append {length : Nat} {cs : List Char} (s : SelectorState)
    (hLength : cs.length < length) (h : (selectorBody s cs).length + 2 ≤ cs.length)
    (tail : List Char) : selectorBody s (cs ++ tail) = selectorBody s cs := by
  induction length generalizing s cs with
  | zero => cases hLength
  | succ length ih =>
      have hStops := stopsAt_append s (Nat.le_trans (Nat.le_add_left 2 _) h) tail
      obtain ⟨c, e, rest, rfl⟩ := exists_second h
      have hTakes : s.takesAlong (e :: (rest ++ tail)) = s.takesAlong (e :: rest) := rfl
      simp only [List.cons_append, List.length_cons] at hStops hLength ⊢
      rw [selectorBody, hStops, hTakes, selectorBody]
      rw [selectorBody] at h
      split
      · rfl
      · next hStop =>
        rw [if_neg hStop] at h
        split
        · next hEscape =>
          rw [if_pos hEscape] at h
          simp only [List.length_cons] at h
          rw [ih s (by omega) (by omega)]
        · next hEscape =>
          rw [if_neg hEscape] at h
          rw [← List.cons_append, ih (s.next c) (by simpa using hLength) (by simpa using h)]

/-- A name ends where it ended if two characters stand behind it: whether a dash belongs to
it is seen from what follows the dash. -/
theorem nameTail_append_of_le {cs : List Char} (h : (nameTail cs).length + 2 ≤ cs.length)
    (tail : List Char) : nameTail (cs ++ tail) = nameTail cs := by
  induction cs with
  | nil => cases h
  | cons c rest ih =>
      have hRest (mark : Char) : [mark].length ≤ rest.length := by
        simp only [List.length_cons, List.length_nil] at h ⊢
        omega
      rw [List.cons_append, nameTail, startsWith_append_of_le (hRest '\x7d'),
        startsWith_append_of_le (hRest '%'), nameTail]
      rw [nameTail] at h
      split
      · rfl
      · next hChar =>
        rw [if_neg hChar] at h
        split
        · rfl
        · next hDash =>
          rw [if_neg hDash] at h
          rw [ih (by simpa using h)]

theorem takeWhile_append_of_lt {p : Char → Bool} {cs : List Char}
    (h : (cs.takeWhile p).length < cs.length) (tail : List Char) :
    (cs ++ tail).takeWhile p = cs.takeWhile p := by
  rw [List.takeWhile_append, if_neg (Nat.ne_of_lt h)]

/-- A number ends where it ended if a character stands behind it. -/
theorem numberTail_append_of_lt {cs : List Char} (h : (numberTail cs).length < cs.length)
    (tail : List Char) : numberTail (cs ++ tail) = numberTail cs := by
  have hSplit := List.takeWhile_append_dropWhile (p := isDecimalDigit) (l := cs)
  have hLength := congrArg List.length hSplit
  rw [List.length_append] at hLength
  cases hBehind : cs.dropWhile isDecimalDigit with
  | nil =>
      rw [numberTail, hBehind] at h
      rw [hBehind, List.length_nil, Nat.add_zero] at hLength
      exact absurd h (by simp [hLength])
  | cons c rest =>
      rw [hBehind, List.length_cons] at hLength
      have hWhole : (cs.takeWhile isDecimalDigit).length < cs.length := by omega
      have hDrop : (cs ++ tail).dropWhile isDecimalDigit = c :: (rest ++ tail) := by
        rw [List.dropWhile_append, hBehind]
        rfl
      rw [numberTail, numberTail, hDrop, hBehind, takeWhile_append_of_lt hWhole]
      rw [numberTail, hBehind] at h
      by_cases hPoint : c = '.'
      · subst hPoint
        have hTaken : (cs.takeWhile isDecimalDigit ++ '.' :: rest.takeWhile isDecimalDigit).length <
            cs.length := h
        have hFraction : (rest.takeWhile isDecimalDigit).length < rest.length := by
          rw [List.length_append, List.length_cons] at hTaken
          omega
        show _ ++ '.' :: (rest ++ tail).takeWhile isDecimalDigit =
          _ ++ '.' :: rest.takeWhile isDecimalDigit
        rw [takeWhile_append_of_lt hFraction]
      · split
        · next hCons => exact absurd (List.cons.inj hCons).1 hPoint
        · split
          · next hCons => exact absurd (List.cons.inj hCons).1 hPoint
          · rfl

/-- The token of a string keeps its value and its size. -/
theorem stringLexeme_append {mode : Mode} {quote : Char} {rest : List Char}
    (h : (stringLexeme mode quote rest).size + 2 ≤ rest.length + 1) (tail : List Char) :
    stringLexeme mode quote (rest ++ tail) = stringLexeme mode quote rest := by
  have hBody : (stringBody quote rest).length + 2 ≤ rest.length := by
    simp only [stringLexeme] at h
    split at h <;> dsimp only at h <;> omega
  have hSame := stringBody_append quote (Nat.lt_succ_self _) hBody tail
  have hDrop : (rest ++ tail).drop (stringBody quote rest).length =
      rest.drop (stringBody quote rest).length ++ tail :=
    List.drop_append_of_le_length (by omega)
  have hBehind : [quote].length ≤ (rest.drop (stringBody quote rest).length).length := by
    rw [List.length_drop, List.length_singleton]
    omega
  simp only [stringLexeme, hSame, hDrop, startsWith_append_of_le hBehind]

theorem argumentLexeme_append {mode : Mode} {rest : List Char}
    (h : (argumentLexeme mode rest).size + 2 ≤ rest.length + 1) (tail : List Char) :
    argumentLexeme mode (rest ++ tail) = argumentLexeme mode rest := by
  have hBody : (argumentBody ('\\' :: rest)).length + 2 ≤ ('\\' :: rest).length := by
    simp only [argumentLexeme] at h
    rw [List.length_cons]
    omega
  have hSame := argumentBody_append (Nat.lt_succ_self _) hBody tail
  rw [List.cons_append] at hSame
  simp only [argumentLexeme, hSame]

theorem numberLexeme_append {mode : Mode} {c : Char} {rest : List Char} {found : Lexeme}
    (h : numberLexeme mode c rest = .ok found) (hSize : found.size + 2 ≤ rest.length + 1)
    (tail : List Char) : numberLexeme mode c (rest ++ tail) = .ok found := by
  have hFound : found.size = (numberTail rest).length + 1 := by
    simp only [numberLexeme] at h
    split at h
    · split at h
      · split at h <;> cases h
        rfl
      · cases h
    · split at h <;> cases h
      rfl
  have hSame := numberTail_append_of_lt (show (numberTail rest).length < rest.length by omega) tail
  rw [← h]
  simp only [numberLexeme, hSame]
  cases rest with
  | nil => simp at hSize
  | cons d later => rfl

theorem nameLexeme_append {mode : Mode} {c : Char} {rest : List Char}
    (h : (nameLexeme mode c rest).size + 2 ≤ rest.length + 1) (tail : List Char) :
    nameLexeme mode c (rest ++ tail) = nameLexeme mode c rest := by
  have hName : (nameTail rest).length + 2 ≤ rest.length := by
    simp only [nameLexeme] at h
    split at h <;> dsimp only at h <;> omega
  have hSame := nameTail_append_of_le hName tail
  have hDrop : (rest ++ tail).drop (nameTail rest).length =
      rest.drop (nameTail rest).length ++ tail :=
    List.drop_append_of_le_length (by omega)
  have hBehind : [':'].length ≤ (rest.drop (nameTail rest).length).length := by
    rw [List.length_drop, List.length_singleton]
    omega
  have hBody : (rest.drop (nameTail rest).length ++ tail).drop 1 =
      (rest.drop (nameTail rest).length).drop 1 ++ tail :=
    List.drop_append_of_le_length hBehind
  simp only [nameLexeme, hSame, hDrop, startsWith_append_of_le hBehind, hBody]
  simp only [nameLexeme] at h
  split
  · next hSelector =>
    rw [if_pos hSelector] at h
    have hSelected : (selectorBody {} ((rest.drop (nameTail rest).length).drop 1)).length + 2 ≤
        ((rest.drop (nameTail rest).length).drop 1).length := by
      simp only [List.length_drop] at h ⊢
      omega
    simp only [selectorBody_append {} (Nat.lt_succ_self _) hSelected tail]
  · rfl

theorem markLexeme_append {mode : Mode} {c : Char} {rest : List Char}
    (h : (markLexeme mode c rest).size + 2 ≤ rest.length + 1) (tail : List Char) :
    markLexeme mode c (rest ++ tail) = markLexeme mode c rest := by
  have hLength := (markLexeme mode c rest).size_pos
  cases rest with
  | nil =>
      rw [List.length_nil] at h
      omega
  | cons d later =>
      simp only [markLexeme, List.cons_append, List.head?_cons, Option.bind_some] at h ⊢
      split
      · rfl
      · next hPair =>
        rw [hPair] at h
        split
        · rfl
        · next hSingle =>
          rw [hSingle] at h
          split
          · next hName =>
            rw [if_pos hName] at h
            exact nameLexeme_append h tail
          · next hName =>
            rw [if_neg hName] at h
            split
            · next hBackslash =>
              rw [if_pos hBackslash] at h
              exact argumentLexeme_append h tail
            · rfl

/-- Three characters are enough to tell an opening delimiter with its trim mark. -/
theorem openingLexeme_append {cs : List Char} (h : 3 ≤ cs.length) (tail : List Char) :
    openingLexeme (cs ++ tail) = openingLexeme cs := by
  have hDrop : (cs ++ tail).drop 2 = cs.drop 2 ++ tail := List.drop_append_of_le_length (by omega)
  have hBehind : ['-'].length ≤ (cs.drop 2).length := by
    rw [List.length_drop, List.length_singleton]
    omega
  have hSize : (if startsWith ['-'] (cs.drop 2) then 3 else 2) ≤ cs.length := by
    split <;> omega
  have hOpen : openVariable.length ≤ cs.length := Nat.le_of_succ_le h
  simp only [openingLexeme, hDrop, startsWith_append_of_le hBehind, startsWith_append_of_le hOpen,
    List.take_append_of_le_length hSize]

theorem closing?_append_of_le {mode : Mode} {cs : List Char} (h : 3 ≤ cs.length) (tail : List Char) :
    closing? mode (cs ++ tail) = closing? mode cs := by
  have hDash (mark : Char) : ['-', mark, '\x7d'].length ≤ cs.length := h
  have hPlain (mark : Char) : [mark, '\x7d'].length ≤ cs.length := Nat.le_of_succ_le h
  simp only [closing?, startsWith_append_of_le (hDash _), startsWith_append_of_le (hPlain _)]

/-- A closing delimiter stays one. -/
theorem closing?_append {mode : Mode} {cs : List Char} {found : Lexeme}
    (h : closing? mode cs = some found) (tail : List Char) : closing? mode (cs ++ tail) = some found := by
  have hFront {part : List Char} (hPart : startsWith part cs = true) :
      startsWith part (cs ++ tail) = true :=
    List.isPrefixOf_iff_prefix.mpr ((List.isPrefixOf_iff_prefix.mp hPart).trans
      (List.prefix_append cs tail))
  unfold closing? at h ⊢
  extract_lets kind mark at h
  extract_lets
  split at h
  · next hTrimmed =>
    rw [if_pos (hFront hTrimmed)]
    exact h
  · split at h
    · next hPlain =>
      -- What begins with the mark does not begin with a dash.
      have hNoDash : ¬ startsWith ['-', mark, '\x7d'] (cs ++ tail) = true := by
        obtain ⟨rest, rfl⟩ := List.isPrefixOf_iff_prefix.mp hPlain
        have hMark : ('-' == mark) = false := by cases mode <;> decide
        simp [startsWith, List.isPrefixOf, hMark]
      rw [if_neg hNoDash, if_pos (hFront hPlain)]
      exact h
    · cases h

/-- Marks leave the mode of the scanner as it is. -/
theorem markLexeme_mode (mode : Mode) (c : Char) (rest : List Char) :
    (markLexeme mode c rest).mode = mode := by
  rw [markLexeme]
  split
  · rfl
  · split
    · rfl
    · split
      · rw [nameLexeme]
        dsimp only
        split <;> rfl
      · split <;> rfl

/-- Numbers leave the mode of the scanner as it is. -/
theorem numberLexeme_mode {mode : Mode} {c : Char} {rest : List Char} {found : Lexeme}
    (h : numberLexeme mode c rest = .ok found) : found.mode = mode := by
  simp only [numberLexeme] at h
  split at h
  · split at h
    · split at h <;> cases h
      rfl
    · cases h
  · split at h <;> cases h
    rfl

theorem openingLexeme_mode (cs : List Char) : (openingLexeme cs).mode ≠ .text := by
  simp only [openingLexeme]
  split <;> simp

/-- Nothing but a closing delimiter leads back to plain text. -/
theorem innerLexeme_mode {mode : Mode} {c : Char} {rest : List Char} {found : Lexeme}
    (hMode : mode ≠ .text) (hNone : closing? mode (c :: rest) = none)
    (h : innerLexeme mode c rest = .ok found) : found.mode ≠ .text := by
  rw [innerLexeme, hNone] at h
  dsimp only at h
  split at h
  · cases h
    exact openingLexeme_mode _
  · split at h
    · cases h
      rw [stringLexeme]
      split <;> exact hMode
    · split at h
      · rwa [numberLexeme_mode h]
      · cases h
        rwa [markLexeme_mode]

/-- A lexeme inside an expression or a tag is the same in front of more text. -/
theorem innerLexeme_append {mode : Mode} {c : Char} {rest : List Char} {found : Lexeme}
    (hMode : mode ≠ .text) (h : innerLexeme mode c rest = .ok found)
    (hSize : found.mode ≠ .text → found.size + 2 ≤ rest.length + 1) (tail : List Char) :
    innerLexeme mode c (rest ++ tail) = .ok found := by
  cases hClosing : closing? mode (c :: rest) with
  | some closing =>
      have hSame := closing?_append hClosing tail
      rw [List.cons_append] at hSame
      rw [innerLexeme, hSame, ← h, innerLexeme, hClosing]
  | none =>
      have hRoom := hSize (innerLexeme_mode hMode hClosing h)
      have hPos := found.size_pos
      have hLength : 3 ≤ (c :: rest).length := by
        rw [List.length_cons]
        omega
      have hSame : closing? mode (c :: rest ++ tail) = closing? mode (c :: rest) :=
        closing?_append_of_le hLength tail
      have hOpens := opensHere_append (Nat.le_of_succ_le hLength) tail
      have hOpening := openingLexeme_append hLength tail
      have hNumber : startsNumber c (rest ++ tail) = startsNumber c rest := by
        cases rest with
        | nil => simp at hLength
        | cons d later => rfl
      rw [List.cons_append] at hSame hOpens hOpening
      rw [innerLexeme, hClosing] at h
      rw [innerLexeme, hSame, hClosing, hOpens, hOpening, hNumber]
      dsimp only at h ⊢
      split
      · next hOpen =>
        rwa [if_pos hOpen] at h
      · next hOpen =>
        rw [if_neg hOpen] at h
        split
        · next hQuote =>
          rw [if_pos hQuote] at h
          cases h
          rw [stringLexeme_append hRoom]
        · next hQuote =>
          rw [if_neg hQuote] at h
          split
          · next hDigit =>
            rw [if_pos hDigit] at h
            exact numberLexeme_append h hRoom tail
          · next hDigit =>
            rw [if_neg hDigit] at h
            cases h
            rw [markLexeme_append hRoom]

/-! Plain text ends where a construct begins. -/

/-- No delimiter begins across the border of two texts if no brace stands at it. -/
theorem opensHere_append_of_last {c : Char} {rest : List Char}
    (h : (c :: rest).getLast? ≠ some '\x7b') (tail : List Char) :
    opensHere (c :: rest ++ tail) = opensHere (c :: rest) := by
  cases rest with
  | nil =>
      have hBrace : ('\x7b' == c) = false := by
        rw [beq_eq_false_iff_ne]
        rintro rfl
        exact h rfl
      simp [opensHere, openVariable, openTag, startsWith, List.isPrefixOf, hBrace]
  | cons d later =>
      have hLength : 2 ≤ (c :: d :: later).length := Nat.le_add_left 2 later.length
      exact opensHere_append hLength tail

/-- Plain text in front of an opening delimiter ends where it ended. -/
theorem plainText_append {cs tail : List Char} (hLast : cs.getLast? ≠ some '\x7b')
    (hOpen : opensHere tail = true) : plainText (cs ++ tail) = plainText cs := by
  induction cs with
  | nil =>
      cases tail with
      | nil => rfl
      | cons c later =>
          rw [List.nil_append]
          exact if_pos hOpen
  | cons c rest ih =>
      have hOpens := opensHere_append_of_last hLast tail
      rw [List.cons_append] at hOpens ⊢
      rw [plainText, hOpens, plainText]
      split
      · rfl
      · rw [ih]
        cases rest with
        | nil => simp
        | cons d later => rwa [List.getLast?_cons_cons] at hLast

end NoteTemplate.Token
