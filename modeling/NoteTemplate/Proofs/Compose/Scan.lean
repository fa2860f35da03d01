import Mathlib.Logic.Basic
import NoteTemplate.Proofs.Compose.Lookahead
import NoteTemplate.Proofs.Compose.Moved
import NoteTemplate.Proofs.RoundTrip.Scanning

/-! The tokens of two texts in a row. When the scanner has come back to plain
text at the end of the first one, and the second one begins with a construct,
the tokens are those of the first text and, moved behind it, those of the
second one. -/
namespace NoteTemplate.Token

open Text

/-- Kinds of token behind which the scanner is in plain text. -/
def Kind.closes : Kind → Bool
  | .text | .variableEnd | .tagEnd => true
  | _ => false

/-- The mark of the end of a text. -/
def endAt (position : Position) : Token := ⟨.endOfText, "", position, false, false⟩

/-- The scanner, in a mode in front of a text, is in plain text behind it. -/
inductive EndsInText : Mode → List Char → Prop where
  | done : EndsInText .text []
  | step {mode : Mode} {cs rest : List Char} {c : Char} {found : Lexeme}
      (hGap : cs.drop (gap mode cs).length = c :: rest) (hLexeme : lexeme mode c rest = .ok found)
      (hLater : EndsInText found.mode ((c :: rest).drop found.size)) : EndsInText mode cs

/-! What a lexeme can be. -/

/-- The scanner takes no more characters than there are. -/
theorem length_plainText_le (cs : List Char) : (plainText cs).length ≤ cs.length := by
  induction cs with
  | nil => exact Nat.le_refl 0
  | cons c rest ih =>
      rw [plainText]
      split
      · exact Nat.zero_le _
      · exact Nat.succ_le_succ ih

/-- A closing delimiter has at least two characters and a closing kind. -/
theorem closing?_spec {mode : Mode} {cs : List Char} {found : Lexeme}
    (h : closing? mode cs = some found) :
    2 ≤ found.size ∧ found.size ≤ cs.length ∧ found.kind.closes = true := by
  have hLength {part : List Char} (hPart : startsWith part cs = true) : part.length ≤ cs.length :=
    (List.isPrefixOf_iff_prefix.mp hPart).length_le
  have hKind : (if mode = .variable then Kind.variableEnd else Kind.tagEnd).closes = true := by
    cases mode <;> rfl
  unfold closing? at h
  extract_lets kind mark at h
  split at h
  · next hTrimmed =>
    cases h
    exact ⟨Nat.le_succ 2, hLength hTrimmed, hKind⟩
  · split at h
    · next hPlain =>
      cases h
      exact ⟨Nat.le_refl 2, hLength hPlain, hKind⟩
    · cases h

/-- A lexeme behind which there is plain text is text or a closing delimiter. -/
theorem lexeme_closes {mode : Mode} {c : Char} {rest : List Char} {found : Lexeme}
    (h : lexeme mode c rest = .ok found) (hText : found.mode = .text) :
    found.size ≤ rest.length + 1 ∧ found.kind.closes = true ∧ (mode ≠ .text → 2 ≤ found.size) := by
  rw [lexeme] at h
  split at h
  · next hMode =>
    split at h
    · cases h
      exact absurd hText (openingLexeme_mode _)
    · cases h
      exact ⟨Nat.succ_le_succ (length_plainText_le rest), rfl, fun hNe => absurd hMode hNe⟩
  · next hMode =>
    cases hClosing : closing? mode (c :: rest) with
    | none => exact absurd hText (innerLexeme_mode hMode hClosing h)
    | some closing =>
        rw [innerLexeme, hClosing] at h
        cases h
        obtain ⟨hTwo, hLength, hKind⟩ := closing?_spec hClosing
        exact ⟨hLength, hKind, fun _ => hTwo⟩

theorem keyword?_kind {word : String} {kind : Kind} (h : keyword? word = some kind) :
    kind ≠ .endOfText ∧ kind ≠ .text := by
  obtain ⟨before, after, hWords, -⟩ := List.lookup_eq_some_iff.mp h
  have hMem : (word, kind) ∈ before ++ (word, kind) :: after := by simp
  rw [← hWords] at hMem
  constructor <;> rintro rfl <;> simp at hMem

/-- No mark is a text or the end of one. -/
theorem markLexeme_kind (mode : Mode) (c : Char) (rest : List Char) :
    (markLexeme mode c rest).kind ≠ .endOfText ∧ (markLexeme mode c rest).kind ≠ .text := by
  rw [markLexeme]
  split
  · next kind hPair =>
    cases rest with
    | nil => cases hPair
    | cons d later =>
        constructor <;> rintro (rfl : kind = _) <;>
          simp only [List.head?_cons, Option.bind_some, pairKind?, ite_eq_iff, reduceCtorEq, and_false,
            false_or, Option.some.injEq] at hPair
  · split
    · next kind hSingle =>
      constructor <;> rintro (rfl : kind = _) <;>
        simp only [singleKind?, ite_eq_iff, reduceCtorEq, and_false, false_or,
          Option.some.injEq] at hSingle
    · split
      · rw [nameLexeme]
        dsimp only
        split
        · exact ⟨Kind.noConfusion, Kind.noConfusion⟩
        · dsimp only
          cases hWord : keyword? (toLower (String.ofList (c :: nameTail rest))) with
          | none => exact ⟨Kind.noConfusion, Kind.noConfusion⟩
          | some kind => exact keyword?_kind hWord
      · split <;> exact ⟨Kind.noConfusion, Kind.noConfusion⟩

/-- Only the end of a text is marked as such. -/
theorem lexeme_kind {mode : Mode} {c : Char} {rest : List Char} {found : Lexeme}
    (h : lexeme mode c rest = .ok found) : found.kind ≠ .endOfText := by
  rcases lexeme_cases h with hOuter | hNumber | ⟨-, rfl⟩
  · intro hEnd
    rw [hEnd] at hOuter
    cases hOuter
  · rw [numberLexeme_kind hNumber]
    exact Kind.noConfusion
  · exact (markLexeme_kind mode c rest).1

/-! One text in front of another. -/

/-- Inside an expression or a tag, at least a closing delimiter is to come. -/
theorem EndsInText.room {mode : Mode} {cs : List Char} (h : EndsInText mode cs)
    (hMode : mode ≠ .text) : 2 ≤ cs.length := by
  induction h with
  | done => exact absurd rfl hMode
  | @step mode cs rest c found hGap hLexeme hLater ih =>
      have hLength := congrArg List.length hGap
      rw [List.length_drop, List.length_cons] at hLength
      by_cases hText : found.mode = .text
      · obtain ⟨hSize, -, hTwo⟩ := lexeme_closes hLexeme hText
        have hAtLeast := hTwo hMode
        omega
      · have hBehind := ih hText
        rw [List.length_drop, List.length_cons] at hBehind
        omega

theorem gap_append_drop (mode : Mode) (cs : List Char) :
    gap mode cs ++ cs.drop (gap mode cs).length = cs := by
  refine List.prefix_iff_eq_append.mp ?_
  rw [gap]
  split
  · exact List.nil_prefix
  · exact List.takeWhile_prefix _

/-- The blanks in front of a lexeme stay the same in front of more text. -/
theorem gap_append {mode : Mode} {cs rest : List Char} {c : Char}
    (h : cs.drop (gap mode cs).length = c :: rest) (tail : List Char) :
    gap mode (cs ++ tail) = gap mode cs := by
  rw [gap, gap]
  split
  · rfl
  · next hMode =>
    rw [gap, if_neg hMode] at h
    have hLength := congrArg List.length h
    rw [List.length_drop, List.length_cons] at hLength
    exact takeWhile_append_of_lt (by omega) tail

/-- A lexeme with plain text at the end of the text is the same when a construct
begins there. -/
theorem lexeme_append {mode : Mode} {c : Char} {rest tail : List Char} {found : Lexeme}
    (h : lexeme mode c rest = .ok found) (hLater : EndsInText found.mode ((c :: rest).drop found.size))
    (hLast : (c :: rest).getLast? ≠ some '\x7b') (hOpen : opensHere tail = true) :
    lexeme mode c (rest ++ tail) = .ok found := by
  have hRoom (hInner : found.mode ≠ .text) : found.size + 2 ≤ rest.length + 1 := by
    have hBehind := hLater.room hInner
    rw [List.length_drop, List.length_cons] at hBehind
    omega
  by_cases hMode : mode = .text
  · have hOpens := opensHere_append_of_last hLast tail
    rw [List.cons_append] at hOpens
    rw [lexeme, if_pos hMode] at h ⊢
    rw [hOpens]
    split at h
    · next hConstruct =>
      cases h
      have hSpace := hRoom (openingLexeme_mode _)
      have hPos := (openingLexeme (c :: rest)).size_pos
      have hLength : 3 ≤ (c :: rest).length := by
        rw [List.length_cons]
        omega
      have hSame := openingLexeme_append hLength tail
      rw [List.cons_append] at hSame
      rw [if_pos hConstruct, hSame]
    · next hPlain =>
      have hRest : rest.getLast? ≠ some '\x7b' := by
        cases rest with
        | nil => simp
        | cons d later => rwa [List.getLast?_cons_cons] at hLast
      rw [if_neg hPlain]
      simp only [plainText_append hRest hOpen]
      exact h
  · rw [lexeme, if_neg hMode] at h ⊢
    exact innerLexeme_append hMode h hRoom tail

/-- The tokens of a text with plain text at its end, alone and in front of a
construct. -/
structure Precedes (mode : Mode) (position : Position) (cs tail : List Char) (tokens : List Token) :
    Prop where
  alone : scanFrom mode position cs = .ok (tokens ++ [endAt (position.advance cs)])
  followed : scanFrom mode position (cs ++ tail) =
    (scanFrom .text (position.advance cs) tail).map (tokens ++ ·)
  closed : ∀ t ∈ tokens.getLast?, t.kind.closes = true
  nothing : tokens = [] → mode = .text

/-! The scanner at the end of a text, at what is no lexeme and at a lexeme. -/

theorem scanFrom_end {mode : Mode} {cs : List Char} (hGap : cs.drop (gap mode cs).length = [])
    (position : Position) : scanFrom mode position cs = .ok [endAt (position.advance cs)] := by
  have hWhole := gap_append_drop mode cs
  rw [hGap, List.append_nil] at hWhole
  rw [scanFrom_step, hGap, hWhole]
  rfl

theorem scanFrom_fault {mode : Mode} {cs rest : List Char} {c : Char} {f : Fault}
    (hGap : cs.drop (gap mode cs).length = c :: rest) (hLexeme : lexeme mode c rest = .error f)
    (position : Position) : scanFrom mode position cs = .error f := by
  rw [scanFrom_step]
  simp only [hGap, hLexeme]

/-- One step of the scanner inside of a delimiter: blanks, then a lexeme. -/
theorem scanFrom_lexeme {mode : Mode} {cs rest : List Char} {c : Char} {found : Lexeme}
    (hGap : cs.drop (gap mode cs).length = c :: rest) (hLexeme : lexeme mode c rest = .ok found)
    (position : Position) :
    scanFrom mode position cs =
      (scanFrom found.mode
        ((position.advance (gap mode cs)).advance ((c :: rest).take found.size))
        ((c :: rest).drop found.size)).map
        (⟨found.kind, found.value, position.advance (gap mode cs), found.trimLeft,
          found.trimRight⟩ :: ·) := by
  rw [scanFrom_step]
  simp only [hGap, hLexeme]

/-- The tokens of a text that ends outside of delimiters precede those of any text that
begins with one. -/
theorem EndsInText.precedes {mode : Mode} {cs tail : List Char} (h : EndsInText mode cs)
    (hLast : cs.getLast? ≠ some '\x7b') (hOpen : opensHere tail = true) (position : Position) :
    ∃ tokens, Precedes mode position cs tail tokens := by
  induction h generalizing position with
  | done =>
      refine ⟨[], scanFrom_end rfl position, ?_, by simp, fun _ => rfl⟩
      · rw [List.nil_append, Position.advance_nil]
        cases scanFrom .text position tail <;> rfl
  | @step mode cs rest c found hGap hLexeme hLater ih =>
      have hWhole : gap mode cs ++ c :: rest = cs := by
        rw [← hGap, gap_append_drop]
      have hRestLast : (c :: rest).getLast? ≠ some '\x7b' := by
        rw [← hWhole] at hLast
        simpa using hLast
      have hBehindLast : ((c :: rest).drop found.size).getLast? ≠ some '\x7b' := by
        rw [List.getLast?_drop]
        split
        · simp
        · exact hRestLast
      have hSize : found.size ≤ (c :: rest).length := by
        by_cases hText : found.mode = .text
        · exact (lexeme_closes hLexeme hText).1
        · have hRoom := hLater.room hText
          rw [List.length_drop] at hRoom
          omega
      have hGapBehind : (cs ++ tail).drop (gap mode (cs ++ tail)).length = c :: (rest ++ tail) := by
        have hLength := congrArg List.length hWhole
        rw [List.length_append] at hLength
        rw [gap_append hGap, List.drop_append_of_le_length (by omega), hGap, List.cons_append]
      obtain ⟨tokens, hTokens⟩ := ih hBehindLast
        ((position.advance (gap mode cs)).advance ((c :: rest).take found.size))
      have hEnd : ((position.advance (gap mode cs)).advance ((c :: rest).take found.size)).advance
          ((c :: rest).drop found.size) = position.advance cs := by
        rw [← Position.advance_append, List.take_append_drop, ← Position.advance_append, hWhole]
      refine ⟨⟨found.kind, found.value, position.advance (gap mode cs), found.trimLeft,
        found.trimRight⟩ :: tokens, ?_, ?_, ?_, fun hNil => by cases hNil⟩
      · rw [scanFrom_lexeme hGap hLexeme, hTokens.alone, hEnd]
        rfl
      · rw [scanFrom_lexeme hGapBehind (lexeme_append hLexeme hLater hRestLast hOpen), gap_append hGap,
          ← List.cons_append, List.take_append_of_le_length hSize, List.drop_append_of_le_length hSize,
          hTokens.followed, hEnd]
        cases scanFrom .text (position.advance cs) tail <;> rfl
      · intro t hMem
        cases tokens with
        | nil =>
            cases hMem
            exact (lexeme_closes hLexeme (hTokens.nothing rfl)).2.1
        | cons next later =>
            rw [List.getLast?_cons_cons] at hMem
            exact hTokens.closed t hMem

/-! A text by itself. -/

/-- The steps of a scanner that cuts a text into tokens, lexeme by lexeme. -/
inductive Yields : Mode → Position → List Char → List Token → Prop where
  | done {mode : Mode} {position : Position} {cs : List Char}
      (hGap : cs.drop (gap mode cs).length = []) :
      Yields mode position cs [endAt (position.advance cs)]
  | step {mode : Mode} {position : Position} {cs rest : List Char} {c : Char} {found : Lexeme}
      {later : List Token} (hGap : cs.drop (gap mode cs).length = c :: rest)
      (hLexeme : lexeme mode c rest = .ok found)
      (hLater : Yields found.mode
        ((position.advance (gap mode cs)).advance ((c :: rest).take found.size))
        ((c :: rest).drop found.size) later) :
      Yields mode position cs (⟨found.kind, found.value, position.advance (gap mode cs),
        found.trimLeft, found.trimRight⟩ :: later)

/-- The scanner goes as the relation says. -/
theorem yields_of_scanFrom (mode : Mode) (position : Position) (cs : List Char) :
    ∀ tokens, scanFrom mode position cs = .ok tokens → Yields mode position cs tokens := by
  induction mode, position, cs using scanFrom.induct with
  | case1 mode position cs blanks hGap =>
      intro tokens h
      rw [scanFrom_end hGap] at h
      cases h
      exact .done hGap
  | case2 mode position cs blanks start c rest hGap ih =>
      intro tokens h
      cases hLexeme : lexeme mode c rest with
      | error f =>
          rw [scanFrom_fault hGap hLexeme] at h
          cases h
      | ok found =>
          rw [scanFrom_lexeme hGap hLexeme] at h
          generalize hNext : scanFrom _ _ _ = outcome at h
          cases outcome with
          | error f => cases h
          | ok later =>
              cases h
              exact .step hGap hLexeme (ih found later hNext)

theorem Yields.of_scan {text : String} {tokens : List Token} (h : scan text = .ok tokens) :
    Yields .text Position.start text.toList tokens :=
  yields_of_scanFrom _ _ _ _ h

/-- The tokens of a text end with the mark of its end, and there is none before. -/
theorem Yields.ends {mode : Mode} {position : Position} {cs : List Char} {tokens : List Token}
    (h : Yields mode position cs tokens) :
    ∃ inner, tokens = inner ++ [endAt (position.advance cs)] ∧ ∀ t ∈ inner, t.kind ≠ .endOfText := by
  induction h with
  | done hGap => exact ⟨[], rfl, by simp⟩
  | @step mode position cs rest c found later hGap hLexeme hLater ih =>
      obtain ⟨inner, rfl, hInner⟩ := ih
      have hFirst : ∀ t ∈ (⟨found.kind, found.value, position.advance (gap mode cs),
          found.trimLeft, found.trimRight⟩ : Token) :: inner, t.kind ≠ .endOfText :=
        List.forall_mem_cons.mpr ⟨lexeme_kind hLexeme, hInner⟩
      refine ⟨_, ?_, hFirst⟩
      rw [← Position.advance_append, ← Position.advance_append, List.take_append_drop, ← hGap,
        gap_append_drop]
      rfl

/-- A text that begins somewhere else has the same tokens, moved there. -/
theorem scanFrom_moved (origin : Position) (mode : Mode) (position : Position) (cs : List Char) :
    0 < position.line → scanFrom mode (position.moved origin) cs =
      (scanFrom mode position cs).map (List.map (Token.moved origin)) := by
  induction mode, position, cs using scanFrom.induct with
  | case1 mode position cs blanks hGap =>
      intro hLine
      rw [scanFrom_end hGap, scanFrom_end hGap, Position.advance_moved hLine]
      rfl
  | case2 mode position cs blanks start c rest hGap ih =>
      intro hLine
      cases hLexeme : lexeme mode c rest with
      | error f =>
          rw [scanFrom_fault hGap hLexeme, scanFrom_fault hGap hLexeme]
          rfl
      | ok found =>
          have hStart := Position.advance_line_pos hLine (gap mode cs)
          rw [scanFrom_lexeme hGap hLexeme, scanFrom_lexeme hGap hLexeme,
            Position.advance_moved hLine, Position.advance_moved hStart,
            ih found (Position.advance_line_pos hStart _)]
          cases scanFrom found.mode _ _ <;> rfl

/-- A construct begins with its opening delimiter. -/
theorem scanFrom_opens {position : Position} {cs : List Char} {tokens : List Token}
    (hOpen : opensHere cs = true) (h : scanFrom .text position cs = .ok tokens) :
    ∃ t later, tokens = t :: later ∧ t.position = position ∧
      (t.kind = .variableStart ∨ t.kind = .tagStart) := by
  cases cs with
  | nil => cases hOpen
  | cons c rest =>
      have hLexeme : lexeme .text c rest = .ok (openingLexeme (c :: rest)) := by
        rw [lexeme, if_pos rfl, if_pos hOpen]
      rw [scanFrom_lexeme rfl hLexeme] at h
      generalize hNext : scanFrom _ _ _ = outcome at h
      cases outcome with
      | error f => cases h
      | ok later =>
          cases h
          refine ⟨_, later, rfl, rfl, ?_⟩
          dsimp only [openingLexeme]
          split
          · exact .inl rfl
          · exact .inr rfl

end NoteTemplate.Token
