import NoteTemplate.Proofs.Provenance.Exprs

/-! What bare words are made of. Besides names, a word has numbers and lone
characters in it, and a name goes on behind a colon with numbers and marks; none
of them has a quote, and none but a lone character is a closing brace. -/
namespace NoteTemplate

open Text

namespace Token

/-- What a token holds that words are made of and that is no name. -/
structure Plain (kind : Kind) (value : String) : Prop where
  mark : isNameMark kind = true → ∀ c ∈ value.toList, c ≠ '\x7d' ∧ isQuote c = false
  number : kind = .number → ∃ c rest, value.toList = c :: rest ∧ isBlank c = false ∧ c ≠ '['
  unknown : kind = .unknown → ∃ c, value = String.ofList [c] ∧ c ≠ '[' ∧ isQuote c = false

/-- Whether names and words have tokens of a kind in them, besides names. -/
def isWordMark (kind : Kind) : Bool := isNameMark kind || kind == .unknown

/-- Tokens that words are not made of are plain whatever they hold. -/
theorem plain_of_kind {kind : Kind} (value : String) (h : isWordMark kind = false) :
    Plain kind value := by
  rw [isWordMark, Bool.or_eq_false_iff] at h
  obtain ⟨hMark, hUnknown⟩ := h
  constructor
  · intro hTrue
    rw [hMark] at hTrue
    cases hTrue
  · rintro rfl
    cases hMark
  · rintro rfl
    cases hUnknown

/-- Characters of a number. -/
theorem numberTail_cases (cs : List Char) :
    ∀ c ∈ numberTail cs, isDecimalDigit c = true ∨ c = '.' := by
  intro c hMem
  have hDigits (ds : List Char) (hDigit : c ∈ ds.takeWhile isDecimalDigit) :
      isDecimalDigit c = true := List.all_eq_true.mp List.all_takeWhile c hDigit
  rw [numberTail] at hMem
  split at hMem
  · next rest _ =>
    rcases List.mem_append.mp hMem with hWhole | hPoint
    · exact .inl (hDigits cs hWhole)
    · rcases List.mem_cons.mp hPoint with hPoint | hFraction
      · exact .inr hPoint
      · exact .inl (hDigits rest hFraction)
  · exact .inl (hDigits cs hMem)

/-- Number tokens hold no quotes and no braces. -/
theorem numberLexeme_plain {mode : Mode} {c : Char} {rest : List Char} {found : Lexeme}
    (h : numberLexeme mode c rest = .ok found) : Plain found.kind found.value := by
  -- The characters of a number are digits, points and a minus in front.
  have hChar {d : Char} (hd : isDecimalDigit d = true ∨ d = '.' ∨ d = '-') :
      (d ≠ '\x7d' ∧ isQuote d = false) ∧ isBlank d = false ∧ d ≠ '[' := by
    rcases hd with hDigit | rfl | rfl
    · have hNe := ne_of_class hDigit
      refine ⟨⟨hNe _ (by decide), ?_⟩, isBlank_of_isDecimalDigit hDigit, hNe _ (by decide)⟩
      rw [isQuote, Bool.or_eq_false_iff, beq_eq_false_iff_ne, beq_eq_false_iff_ne]
      exact ⟨hNe _ (by decide), hNe _ (by decide)⟩
    · decide
    · decide
  have hPlain (hFirst : isDecimalDigit c = true ∨ c = '.' ∨ c = '-') :
      Plain .number (String.ofList (c :: numberTail rest)) := by
    refine ⟨fun _ d hMem => ?_, fun _ => ⟨c, numberTail rest, String.toList_ofList, ?_⟩,
      fun h => (by cases h)⟩
    · rw [String.toList_ofList] at hMem
      rcases List.mem_cons.mp hMem with rfl | hRest
      · exact (hChar hFirst).1
      · exact (hChar ((numberTail_cases rest d hRest).imp_right .inl)).1
    · exact (hChar hFirst).2
  simp only [numberLexeme] at h
  split at h
  · next hMinus =>
    split at h
    · split at h
      · cases h
        exact hPlain (.inr (.inr hMinus))
      · cases h
    · cases h
  · split at h
    · next hDigit =>
      cases h
      exact hPlain (.inl hDigit)
    · cases h

theorem plain_of_pairKind? {a b : Char} {kind : Kind} (h : pairKind? a b = some kind)
    (value : String) : Plain kind value := by
  refine plain_of_kind value ?_
  unfold pairKind? at h
  repeat (split at h; · cases h; rfl)
  cases h

/-- Marks of one character are plain unless they are quotes. -/
theorem plain_of_singleKind? {c : Char} {kind : Kind} (h : singleKind? c = some kind)
    (hQuote : isQuote c = false) : Plain kind (String.ofList [c]) := by
  have hBrace : c ≠ '\x7d' := by
    rintro rfl
    cases h
  refine ⟨fun _ d hMem => ?_, ?_, ?_⟩
  · rw [String.toList_ofList, List.mem_singleton] at hMem
    rw [hMem]
    exact ⟨hBrace, hQuote⟩
  · rintro rfl
    simp only [singleKind?, ite_eq_iff, reduceCtorEq, and_false, false_or, Option.some.injEq] at h
  · rintro rfl
    simp only [singleKind?, ite_eq_iff, reduceCtorEq, and_false, false_or, Option.some.injEq] at h

/-- Words of the language are no bare words. -/
theorem isWordMark_keyword? {word : String} {kind : Kind} (h : keyword? word = some kind) :
    isWordMark kind = false := by
  have hAll : ∀ entry ∈ [("if", Kind.ifWord), ("elseif", .elseifWord), ("else", .elseWord),
      ("endif", .endifWord), ("for", .forWord), ("in", .inWord), ("endfor", .endforWord),
      ("set", .setWord), ("and", .andWord), ("or", .orWord), ("not", .notWord),
      ("contains", .containsWord), ("true", .boolean), ("false", .boolean), ("null", .null)],
      isWordMark entry.2 = false := by
    decide
  obtain ⟨before, after, hEntries, -⟩ := List.lookup_eq_some_iff.mp h
  exact hAll (word, kind) (by rw [hEntries]; simp)

/-- Name tokens are plain unless they are selectors. -/
theorem nameLexeme_plain (mode : Mode) (c : Char) (rest : List Char) :
    Plain (nameLexeme mode c rest).kind (nameLexeme mode c rest).value := by
  rw [nameLexeme]
  dsimp only
  split
  · exact plain_of_kind _ rfl
  · cases hKeyword : keyword? (toLower (String.ofList (c :: nameTail rest))) with
    | none => exact plain_of_kind _ rfl
    | some kind => exact plain_of_kind _ (isWordMark_keyword? hKeyword)

/-- The tokens of marks are plain unless they begin with a quote. -/
theorem markLexeme_plain (mode : Mode) {c : Char} (hQuote : isQuote c = false)
    (rest : List Char) : Plain (markLexeme mode c rest).kind (markLexeme mode c rest).value := by
  rw [markLexeme]
  split
  · next kind hPair =>
    cases rest with
    | nil => cases hPair
    | cons d rest => exact plain_of_pairKind? hPair _
  · split
    · next kind hSingle => exact plain_of_singleKind? hSingle hQuote
    · next hSingle =>
      split
      · exact nameLexeme_plain mode c rest
      · split
        · exact plain_of_kind _ rfl
        · have hBracket : c ≠ '[' := by
            rintro rfl
            cases hSingle
          exact ⟨fun h => (by cases h), fun h => (by cases h), fun _ => ⟨c, rfl, hBracket, hQuote⟩⟩

theorem lexeme_plain {mode : Mode} {c : Char} {rest : List Char} {found : Lexeme}
    (h : lexeme mode c rest = .ok found) : Plain found.kind found.value := by
  rcases lexeme_cases h with hOuter | hNumber | ⟨hQuote, rfl⟩
  · refine plain_of_kind _ ?_
    cases hKind : found.kind <;> rw [hKind] at hOuter <;> first | rfl | cases hOuter
  · exact numberLexeme_plain hNumber
  · exact markLexeme_plain mode hQuote rest

/-- What holds of every lexeme holds of every token. -/
theorem Yields.forall {Q : Kind → String → Prop} (hEnd : Q .endOfText "")
    (hLexeme : ∀ {mode c rest found}, lexeme mode c rest = .ok found → Q found.kind found.value)
    {mode : Mode} {position : Position} {cs : List Char} {tokens : List Token}
    (h : Yields mode position cs tokens) : ∀ t ∈ tokens, Q t.kind t.value := by
  induction h with
  | done hGap => exact List.forall_mem_singleton.mpr hEnd
  | step hGap hFound hLater ih => exact List.forall_mem_cons.mpr ⟨hLexeme hFound, ih⟩

theorem scan_plain {text : String} {tokens : List Token} (h : scan text = .ok tokens) :
    ∀ t ∈ tokens, Plain t.kind t.value :=
  (Yields.of_scan h).forall (plain_of_kind _ rfl) lexeme_plain

end Token

end NoteTemplate
