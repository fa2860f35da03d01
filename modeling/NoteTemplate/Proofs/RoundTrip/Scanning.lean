import NoteTemplate.Proofs.RoundTrip.Canonical

/-! The scanner inside an expression, piece by piece. A piece of text that ends
at a suitable place is taken apart in the same way whatever follows it, so that
the tokens of a text are the tokens of its pieces in a row. -/
namespace NoteTemplate.Token

open Text NoteTemplate.Expr

/-- One step of the scanner. -/
theorem scanFrom_step (mode : Mode) (position : Position) (cs : List Char) :
    scanFrom mode position cs =
      let start := position.advance (gap mode cs)
      match cs.drop (gap mode cs).length with
      | [] => .ok [⟨.endOfText, "", start, false, false⟩]
      | c :: rest =>
          match lexeme mode c rest with
          | .error f => .error f
          | .ok found =>
              (scanFrom found.mode (start.advance ((c :: rest).take found.size))
                ((c :: rest).drop found.size)).map
                (⟨found.kind, found.value, start, found.trimLeft, found.trimRight⟩ :: ·) := by
  rw [scanFrom]
  split
  · next h => simp only [h]
  · next c rest h =>
      simp only [h]
      cases lexeme mode c rest with
      | error f => rfl
      | ok found => rfl

/-- The kinds of plain text, of delimiters and of strings. -/
def Kind.isOuter : Kind → Bool
  | .text | .variableStart | .variableEnd | .tagStart | .tagEnd | .string | .openString => true
  | _ => false

theorem isOuter_openingLexeme (cs : List Char) : (openingLexeme cs).kind.isOuter = true := by
  simp only [openingLexeme]
  split <;> rfl

/-- A closing delimiter is a token outside of expressions. -/
theorem isOuter_closing? {mode : Mode} {cs : List Char} {found : Lexeme}
    (h : closing? mode cs = some found) : found.kind.isOuter = true := by
  have hKind : (if mode = .variable then Kind.variableEnd else Kind.tagEnd).isOuter = true := by
    cases mode <;> rfl
  unfold closing? at h
  extract_lets kind mark at h
  split at h
  · cases h
    exact hKind
  · split at h
    · cases h
      exact hKind
    · cases h

/-- What is found at the front of a text, besides plain text, delimiters and
strings. -/
theorem lexeme_cases {mode : Mode} {c : Char} {rest : List Char} {found : Lexeme}
    (h : lexeme mode c rest = .ok found) :
    found.kind.isOuter = true ∨ numberLexeme mode c rest = .ok found ∨
      isQuote c = false ∧ found = markLexeme mode c rest := by
  simp only [lexeme, innerLexeme] at h
  split at h
  · split at h <;> cases h
    · exact .inl (isOuter_openingLexeme _)
    · exact .inl rfl
  · split at h
    · next hClosing =>
      cases h
      exact .inl (isOuter_closing? hClosing)
    · split at h
      · cases h
        exact .inl (isOuter_openingLexeme _)
      · split at h
        · cases h
          simp only [stringLexeme]
          split <;> exact .inl rfl
        · next hQuote =>
          split at h
          · exact .inr (.inl h)
          · cases h
            exact .inr (.inr ⟨Bool.eq_false_iff.mpr hQuote, rfl⟩)

/-- A number that is scanned is a number token. -/
theorem numberLexeme_kind {mode : Mode} {c : Char} {rest : List Char} {found : Lexeme}
    (h : numberLexeme mode c rest = .ok found) : found.kind = .number := by
  simp only [numberLexeme] at h
  split at h
  · split at h
    · split at h <;> cases h
      rfl
    · cases h
  · split at h <;> cases h
    rfl

theorem scanFrom_blank {c : Char} (hGap : isGap c = true) (position : Position) (rest : List Char) :
    scanFrom .variable position (c :: rest) = scanFrom .variable (position.next c) rest := by
  have hGap : gap .variable (c :: rest) = c :: gap .variable rest := by
    simp [gap, hGap]
  rw [scanFrom_step, scanFrom_step .variable (position.next c), hGap]
  rfl

/-- One step of the scanner at a character that is no gap. -/
theorem scanFrom_token {c : Char} {rest : List Char} {found : Lexeme} (hGap : isGap c = false)
    (hFound : innerLexeme .variable c rest = .ok found) (position : Position) :
    scanFrom .variable position (c :: rest) =
      (scanFrom found.mode (position.advance ((c :: rest).take found.size))
        ((c :: rest).drop found.size)).map
        (⟨found.kind, found.value, position, found.trimLeft, found.trimRight⟩ :: ·) := by
  have hGap : gap .variable (c :: rest) = [] := by
    simp [gap, hGap]
  have hLexeme : lexeme .variable c rest = .ok found := hFound
  rw [scanFrom_step, hGap]
  simp only [List.length_nil, List.drop_zero, hLexeme, Position.advance_nil]

theorem startsWith_cons_cons (p c : Char) (ps cs : List Char) :
    startsWith (p :: ps) (c :: cs) = (p == c && startsWith ps cs) := rfl

/-- Two braces open an expression. A dash behind them would belong to them. -/
theorem scanFrom_opening {cs : List Char} (hDash : startsWith ['-'] cs = false)
    (position : Position) : scanFrom .text position ('\x7b' :: '\x7b' :: cs) =
      (scanFrom .variable (position.advance ['\x7b', '\x7b']) cs).map
        (⟨.variableStart, "\x7b\x7b", position, false, false⟩ :: ·) := by
  have hLexeme : lexeme .text '\x7b' ('\x7b' :: cs) =
      .ok (openingLexeme ('\x7b' :: '\x7b' :: cs)) := rfl
  rw [scanFrom_step]
  simp only [gap, if_true, List.length_nil, List.drop_zero, hLexeme]
  simp [openingLexeme, openVariable, startsWith_cons_cons, hDash]
  rfl

/-- Two braces close it. -/
theorem scanFrom_closing (position : Position) (cs : List Char) :
    scanFrom .variable position ('\x7d' :: '\x7d' :: cs) =
      (scanFrom .text (position.advance ['\x7d', '\x7d']) cs).map
        (⟨.variableEnd, "\x7d\x7d", position, false, false⟩ :: ·) := by
  have hClosing : innerLexeme .variable '\x7d' ('\x7d' :: cs) =
      .ok ⟨.variableEnd, "\x7d\x7d", 2, .text, false, false, by omega⟩ := rfl
  rw [scanFrom_token rfl hClosing]
  rfl

/-- In front of every suitable rest a text is scanned as tokens of the given
shapes, and the scanner goes on at the rest. -/
def Scans (suits : List Char → Prop) (cs : List Char) (shapes : List Shape) : Prop :=
  ∀ position rest, suits rest → ∃ tokens behind, tokens.map shape = shapes ∧
    scanFrom .variable position (cs ++ rest) = (scanFrom .variable behind rest).map (tokens ++ ·)

/-- Any rest at all. -/
def Anywhere (_ : List Char) : Prop := True

/-- Characters at which names and numbers end. -/
def isEdge (c : Char) : Bool := [' ', ')', ']', '[', '|', ',', ':'].contains c

/-- A rest at which names and numbers end. -/
def AtEdge (rest : List Char) : Prop := ∃ c later, rest = c :: later ∧ isEdge c = true

theorem atEdge_cons {c : Char} {rest : List Char} (h : isEdge c = true) : AtEdge (c :: rest) :=
  ⟨c, rest, rfl, h⟩

theorem Scans.mono {suits other : List Char → Prop} {cs : List Char} {shapes : List Shape}
    (h : Scans suits cs shapes) (hSuits : ∀ rest, other rest → suits rest) :
    Scans other cs shapes :=
  fun position rest hRest => h position rest (hSuits rest hRest)

theorem Scans.anywhere {suits : List Char → Prop} {cs : List Char} {shapes : List Shape}
    (h : Scans Anywhere cs shapes) : Scans suits cs shapes :=
  h.mono fun _ _ => trivial

/-- Texts are scanned one behind the other if the second one suits the first. -/
theorem Scans.append {suits other : List Char → Prop} {first second : List Char}
    {shapes more : List Shape} (hFirst : Scans suits first shapes)
    (hSecond : Scans other second more) (hSuits : ∀ rest, other rest → suits (second ++ rest)) :
    Scans other (first ++ second) (shapes ++ more) := by
  intro position rest hRest
  obtain ⟨tokens, middle, hTokens, hScan⟩ := hFirst position (second ++ rest) (hSuits rest hRest)
  obtain ⟨later, behind, hLater, hScanLater⟩ := hSecond middle rest hRest
  refine ⟨tokens ++ later, behind, by rw [List.map_append, hTokens, hLater], ?_⟩
  rw [List.append_assoc, hScan, hScanLater]
  cases scanFrom .variable behind rest with
  | error f => rfl
  | ok found => simp [Except.map]

/-- A blank in front of a text is no token. -/
theorem Scans.blank {suits : List Char → Prop} {cs : List Char} {shapes : List Shape}
    (h : Scans suits cs shapes) : Scans suits (' ' :: cs) shapes := by
  intro position rest hRest
  rw [List.cons_append, scanFrom_blank rfl]
  exact h (position.next ' ') rest hRest

/-- A text that is one lexeme in front of every suitable rest. -/
theorem Scans.of_lexeme {suits : List Char → Prop} {c : Char} {cs : List Char} {kind : Kind}
    {value : String} (hGap : isGap c = false)
    (h : ∀ rest, suits rest → ∃ found, innerLexeme .variable c (cs ++ rest) = .ok found ∧
      found.kind = kind ∧ found.value = value ∧ found.size = cs.length + 1 ∧
      found.mode = .variable) : Scans suits (c :: cs) [(kind, value)] := by
  intro position rest hRest
  obtain ⟨found, hFound, rfl, rfl, hSize, hMode⟩ := h rest hRest
  refine ⟨[⟨found.kind, found.value, position, found.trimLeft, found.trimRight⟩],
    position.advance (c :: cs), rfl, ?_⟩
  rw [List.cons_append, scanFrom_token hGap hFound, hMode, hSize, ← List.cons_append]
  rw [show cs.length + 1 = (c :: cs).length from rfl, List.take_left, List.drop_left]
  rfl

/-- No closing delimiter and no opening one begins with any other character. -/
theorem innerLexeme_of_ne {c : Char} (hDash : c ≠ '-') (hClose : c ≠ '\x7d') (hOpen : c ≠ '\x7b')
    (rest : List Char) : innerLexeme .variable c rest =
      if isQuote c then .ok (stringLexeme .variable c rest)
      else if startsNumber c rest then numberLexeme .variable c rest
      else .ok (markLexeme .variable c rest) := by
  have hNotClosing : closing? .variable (c :: rest) = none := by
    simp [closing?, startsWith_cons_cons, hDash.symm, hClose.symm]
  have hNotOpening : opensHere (c :: rest) = false := by
    simp [opensHere, openVariable, openTag, startsWith_cons_cons, hOpen.symm]
  rw [innerLexeme, hNotClosing]
  simp [hNotOpening]

/-- The place of a character among all. -/
theorem toNat_le_toNat {c d : Char} (h : c ≤ d) : c.toNat ≤ d.toNat := h

/-- In ASCII there are ten digits. -/
theorem isDigit_of_toNat {c : Char} (hLow : c.toNat < 48 ∨ 57 < c.toNat) (hHigh : c.toNat < 0x80) :
    isDigit c = false := by
  simp only [isDigit, isDecimalDigit, digitValue?, hHigh, if_true, Bool.or_eq_false_iff]
  constructor
  · rw [if_neg (by simp; omega)]
    rfl
  · simp
    omega

/-- A mark that is one token by itself. -/
theorem scans_mark {suits : List Char → Prop} {c : Char} {kind : Kind}
    (hSingle : singleKind? c = some kind) (hRange : c.toNat < 48 ∨ 57 < c.toNat)
    (hAscii : c.toNat < 0x80) (hPair : ∀ rest, suits rest → rest.head?.bind (pairKind? c) = none) :
    Scans suits [c] [(kind, String.ofList [c])] := by
  have hNe : ∀ d, singleKind? d = none → c ≠ d := by
    rintro d hNone rfl
    rw [hNone] at hSingle
    cases hSingle
  have hDash : c ≠ '-' := hNe '-' rfl
  refine Scans.of_lexeme ?_ fun rest hRest => ?_
  · simp [isGap, hNe ' ' rfl, hNe '\t' rfl, hNe '\r' rfl, hNe '\n' rfl]
  · rw [List.nil_append, innerLexeme_of_ne hDash (hNe '\x7d' rfl) (hNe '\x7b' rfl)]
    rw [if_neg (by simp [isQuote, hNe '"' rfl, hNe '\'' rfl])]
    rw [if_neg (by simp [startsNumber, hDash, isDigit_of_toNat hRange hAscii])]
    refine ⟨_, rfl, ?_⟩
    simp [markLexeme, hPair rest hRest, hSingle]

/-- An operator of two characters. -/
theorem scans_pair {suits : List Char → Prop} {a b : Char} {kind : Kind}
    (hPair : pairKind? a b = some kind) (hRange : a.toNat < 48 ∨ 57 < a.toNat)
    (hAscii : a.toNat < 0x80) : Scans suits [a, b] [(kind, String.ofList [a, b])] := by
  have hNe : ∀ d, pairKind? d b = none → a ≠ d := by
    rintro d hNone rfl
    rw [hNone] at hPair
    cases hPair
  have hDash : a ≠ '-' := hNe '-' (by simp [pairKind?])
  refine Scans.of_lexeme ?_ fun rest hRest => ?_
  · simp [isGap, hNe ' ' (by simp [pairKind?]), hNe '\t' (by simp [pairKind?]),
      hNe '\r' (by simp [pairKind?]), hNe '\n' (by simp [pairKind?])]
  · rw [List.singleton_append, innerLexeme_of_ne hDash (hNe '\x7d' (by simp [pairKind?]))
      (hNe '\x7b' (by simp [pairKind?]))]
    rw [if_neg (by simp [isQuote, hNe '"' (by simp [pairKind?]), hNe '\'' (by simp [pairKind?])])]
    rw [if_neg (by simp [startsNumber, hDash, isDigit_of_toNat hRange hAscii])]
    refine ⟨_, rfl, ?_⟩
    simp [markLexeme, hPair]

end NoteTemplate.Token
