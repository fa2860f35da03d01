import NoteTemplate.Proofs.Compose.Scan
import NoteTemplate.Proofs.Scope.Lookup

/-! What the scanner says of its tokens. Each token begins behind the one
before it, so that no two of them have the same place, and the tokens that
names are made of hold what names may hold. -/
namespace NoteTemplate

open Text

namespace Position

/-- Whether one place lies before another, by lines and columns. -/
def Precedes (p q : Position) : Prop := p.line < q.line ∨ p.line = q.line ∧ p.column < q.column

theorem Precedes.trans {p q r : Position} (hFirst : p.Precedes q) (hSecond : q.Precedes r) :
    p.Precedes r := by
  simp only [Precedes] at *
  omega

theorem precedes_next (p : Position) (c : Char) : p.Precedes (p.next c) := by
  rw [next]
  split
  · exact .inl (Nat.lt_succ_self _)
  · exact .inr ⟨rfl, Nat.lt_succ_self _⟩

/-- Reading on never leads back. -/
theorem advance_cases (p : Position) (cs : List Char) :
    cs = [] ∨ p.Precedes (p.advance cs) := by
  induction cs generalizing p with
  | nil => exact .inl rfl
  | cons c rest ih =>
      right
      show p.Precedes ((p.next c).advance rest)
      rcases ih (p.next c) with rfl | hLater
      · exact p.precedes_next c
      · exact (p.precedes_next c).trans hLater

theorem precedes_advance (p : Position) {cs : List Char} (h : cs ≠ []) :
    p.Precedes (p.advance cs) :=
  (p.advance_cases cs).resolve_left h

end Position

namespace Token

/-- The kinds of tokens, besides names, that go on a name behind a colon. -/
def isNameMark (kind : Kind) : Bool :=
  kind == .dot || kind == .colon || kind == .number || kind == .leftBracket || kind == .rightBracket

/-- What a token holds that a name may be made of. -/
structure Sound (kind : Kind) (value : String) : Prop where
  name : kind = .identifier → Readable value ∧ Assignable value
  mark : isNameMark kind = true → SolidEnd value

/-- Whether names are made of tokens of a kind. -/
def isNamed (kind : Kind) : Bool := kind == .identifier || isNameMark kind

/-- Tokens of other kinds than names and numbers are sound whatever they hold. -/
theorem sound_of_isNamed {kind : Kind} (value : String) (h : isNamed kind = false) :
    Sound kind value := by
  rw [isNamed, Bool.or_eq_false_iff] at h
  obtain ⟨hName, hMark⟩ := h
  constructor
  · rintro rfl
    cases hName
  · intro hTrue
    rw [hMark] at hTrue
    cases hTrue

/-- The code points of the blanks. -/
def blankCodes : List Nat :=
  [9, 10, 11, 12, 13, 28, 29, 30, 31, 32, 0x85, 0xA0, 0x1680, 0x2000, 0x2001, 0x2002, 0x2003,
    0x2004, 0x2005, 0x2006, 0x2007, 0x2008, 0x2009, 0x200A, 0x2028, 0x2029, 0x202F, 0x205F, 0x3000]

theorem toNat_mem_blankCodes {c : Char} (h : isBlank c = true) : c.toNat ∈ blankCodes := by
  simp only [isBlank, Bool.or_eq_true, Bool.and_eq_true, decide_eq_true_eq, beq_iff_eq] at h
  simp only [blankCodes, List.mem_cons, List.not_mem_nil, or_false]
  omega

/-- Digits are no blanks. -/
theorem isBlank_of_isDecimalDigit {c : Char} (h : isDecimalDigit c = true) : isBlank c = false := by
  rw [← Bool.not_eq_true]
  intro hBlank
  have hCode := toNat_mem_blankCodes hBlank
  have hAscii : ∀ n ∈ blankCodes, ¬ (48 ≤ n ∧ n ≤ 57) := by decide
  have hRows : ∀ n ∈ blankCodes, ∀ first ∈ digitZeros.toList, ¬ (first ≤ n ∧ n ≤ first + 9) := by
    decide
  simp only [isDecimalDigit, digitValue?] at h
  split at h
  · have hOutside := hAscii c.toNat hCode
    rw [if_neg (by simpa using hOutside)] at h
    cases h
  · rw [Option.isSome_map] at h
    obtain ⟨first, hFound⟩ := Option.isSome_iff_exists.mp h
    have hRow := Array.find?_some hFound
    have hMem := Array.mem_of_find?_eq_some hFound
    exact hRows c.toNat hCode first (Array.mem_toList_iff.mpr hMem) (by simpa using hRow)

/-- Characters of names are no blanks. -/
theorem isBlank_of_isNameChar {c : Char} (h : isNameChar c = true) : isBlank c = false := by
  simp only [isNameChar, isAsciiLetter, isAsciiDigit, Bool.or_eq_true, Bool.and_eq_true,
    decide_eq_true_eq, beq_iff_eq] at h
  have hBetween {low high : Char} (h : low ≤ c ∧ c ≤ high) (hLow : 32 < low.toNat)
      (hHigh : high.toNat < 0x80) : isBlank c = false :=
    isBlank_of_toNat (Nat.lt_of_lt_of_le hLow (toNat_le_toNat h.1))
      (Nat.lt_of_le_of_lt (toNat_le_toNat h.2) hHigh)
  rcases h with (((((hSmall | hCapital) | hDigit) | rfl) | rfl) | rfl) | rfl
  · exact hBetween hSmall (by decide) (by decide)
  · exact hBetween hCapital (by decide) (by decide)
  · exact hBetween hDigit (by decide) (by decide)
  all_goals decide

/-- The scanner takes no other characters for a name. -/
theorem nameTail_isNameChar (cs : List Char) : ∀ c ∈ nameTail cs, isNameChar c = true := by
  induction cs with
  | nil => simp [nameTail]
  | cons c rest ih =>
      rw [nameTail]
      split
      · simp
      · next hChar =>
        split
        · simp
        · intro d hMem
          rcases List.mem_cons.mp hMem with rfl | hRest
          · simpa using hChar
          · exact ih d hRest

/-- A page selector: the mark, and behind it what the scanner reads. -/
def Selected (name : String) : Prop :=
  ∃ mark cs, (mark = SelectorQuery.textMark ∨ mark = SelectorQuery.htmlMark) ∧
    name.toList = mark.toList ++ trimEnd (selectorBody {} cs)

/-- A selector among the tokens asks the page. -/
theorem Selected.isName {name : String} (h : Selected name) : SelectorQuery.isName name = true := by
  obtain ⟨mark, cs, rfl | rfl, hName⟩ := h
  · have hMark : startsWith SelectorQuery.textMark.toList SelectorQuery.textMark.toList = true := by
      decide
    rw [SelectorQuery.isName, hName, startsWith_append hMark, Bool.true_or]
  · have hMark : startsWith SelectorQuery.htmlMark.toList SelectorQuery.htmlMark.toList = true := by
      decide
    rw [SelectorQuery.isName, hName, startsWith_append hMark, Bool.or_true]

/-- A name token is a selector or consists of characters of names. -/
theorem nameLexeme_cases (mode : Mode) {c : Char} (hStart : isNameStart c = true)
    (rest : List Char) : Selected (nameLexeme mode c rest).value ∨
      Expr.isNameText (nameLexeme mode c rest).value.toList = true := by
  rw [nameLexeme]
  dsimp only
  split
  · next hSelector =>
    rw [Bool.and_eq_true, Bool.or_eq_true, beq_iff_eq, beq_iff_eq] at hSelector
    left
    rcases hSelector.1 with hText | hHtml
    · refine ⟨_, (rest.drop (nameTail rest).length).drop 1, .inl rfl, ?_⟩
      rw [hText, String.toList_append, String.toList_ofList]
      rfl
    · refine ⟨_, (rest.drop (nameTail rest).length).drop 1, .inr rfl, ?_⟩
      rw [hHtml, String.toList_append, String.toList_ofList]
      rfl
  · right
    rw [String.toList_ofList, Expr.isNameText, hStart, Bool.true_and, List.all_eq_true]
    exact nameTail_isNameChar rest

/-- Whatever stands behind it, a name is one that may stand in an expression and
in front of an assignment. -/
theorem nameLexeme_sound (mode : Mode) {c : Char} (hStart : isNameStart c = true)
    (rest : List Char) :
    Readable (nameLexeme mode c rest).value ∧ Assignable (nameLexeme mode c rest).value := by
  refine ⟨?_, (nameLexeme_cases mode hStart rest).imp Selected.isName id⟩
  have hSolid : SolidEnd (String.ofList (c :: nameTail rest)) := by
    refine solidEnd_of_forall fun d hMem => ?_
    rw [String.toList_ofList] at hMem
    rcases List.mem_cons.mp hMem with rfl | hRest
    · exact isBlank_of_isNameStart hStart
    · exact isBlank_of_isNameChar (nameTail_isNameChar rest d hRest)
  rw [nameLexeme]
  dsimp only
  split
  · have hColon : SolidEnd ":" := solidEnd_of_forall (List.forall_mem_singleton.mpr rfl)
    have hEnd := (hSolid.append hColon).append (solidEnd_trimEnd
      (selectorBody {} ((rest.drop (nameTail rest).length).drop 1)))
    exact ⟨⟨c, _, by rw [String.toList_append, String.toList_append, String.toList_ofList]; rfl,
      hStart⟩, hEnd⟩
  · exact ⟨⟨c, nameTail rest, String.toList_ofList, hStart⟩, hSolid⟩

/-- There are no blanks in a number. -/
theorem numberTail_solid (cs : List Char) : ∀ c ∈ numberTail cs, isBlank c = false := by
  intro c hMem
  have hDigits (ds : List Char) (hDigit : c ∈ ds.takeWhile isDecimalDigit) : isBlank c = false :=
    isBlank_of_isDecimalDigit (List.all_eq_true.mp List.all_takeWhile c hDigit)
  rw [numberTail] at hMem
  split at hMem
  · next rest _ =>
    rcases List.mem_append.mp hMem with hWhole | hPoint
    · exact hDigits cs hWhole
    · rcases List.mem_cons.mp hPoint with rfl | hFraction
      · decide
      · exact hDigits rest hFraction
  · exact hDigits cs hMem

/-- Number tokens are sound. -/
theorem numberLexeme_sound {mode : Mode} {c : Char} {rest : List Char} {found : Lexeme}
    (h : numberLexeme mode c rest = .ok found) : Sound found.kind found.value := by
  have hSolid (hFirst : isBlank c = false) : SolidEnd (String.ofList (c :: numberTail rest)) := by
    refine solidEnd_of_forall fun d hMem => ?_
    rw [String.toList_ofList] at hMem
    rcases List.mem_cons.mp hMem with rfl | hRest
    · exact hFirst
    · exact numberTail_solid rest d hRest
  simp only [numberLexeme] at h
  split at h
  · next hMinus =>
    split at h
    · split at h
      · cases h
        exact ⟨fun h => (by cases h), fun _ => hSolid (by rw [hMinus]; decide)⟩
      · cases h
    · cases h
  · split at h
    · next hDigit =>
      cases h
      exact ⟨fun h => (by cases h), fun _ => hSolid (isBlank_of_isDecimalDigit hDigit)⟩
    · cases h

theorem isNamed_pairKind? {a b : Char} {kind : Kind} (h : pairKind? a b = some kind) :
    isNamed kind = false := by
  unfold pairKind? at h
  repeat (split at h; · cases h; rfl)
  cases h

/-- A mark of one character is no name and no blank. -/
theorem singleKind?_cases {c : Char} {kind : Kind} (h : singleKind? c = some kind) :
    kind ≠ .identifier ∧ isBlank c = false := by
  constructor
  · rintro rfl
    simp only [singleKind?, ite_eq_iff, reduceCtorEq, and_false, false_or, Option.some.injEq] at h
  · rw [← Bool.not_eq_true]
    intro hBlank
    have hNe := ne_of_class hBlank
    rw [singleKind?, if_neg (hNe '>' rfl), if_neg (hNe '<' rfl), if_neg (hNe '!' rfl),
      if_neg (hNe '=' rfl), if_neg (hNe '|' rfl), if_neg (hNe '(' rfl), if_neg (hNe ')' rfl),
      if_neg (hNe '[' rfl), if_neg (hNe ']' rfl), if_neg (hNe ':' rfl), if_neg (hNe ',' rfl),
      if_neg (hNe '.' rfl)] at h
    cases h

/-- The tokens of marks, strings and names are sound. -/
theorem markLexeme_sound (mode : Mode) (c : Char) (rest : List Char) :
    Sound (markLexeme mode c rest).kind (markLexeme mode c rest).value := by
  rw [markLexeme]
  split
  · next kind hPair =>
    cases rest with
    | nil => cases hPair
    | cons d rest => exact sound_of_isNamed _ (isNamed_pairKind? hPair)
  · split
    · next kind hSingle =>
      obtain ⟨hName, hSolid⟩ := singleKind?_cases hSingle
      exact ⟨fun h => (hName h).elim, fun _ => solidEnd_of_forall (by simpa using hSolid)⟩
    · split
      · next hStart =>
        obtain ⟨hReadable, hAssignable⟩ := nameLexeme_sound mode hStart rest
        exact ⟨fun _ => ⟨hReadable, hAssignable⟩, fun _ => hReadable.ends⟩
      · split
        · exact sound_of_isNamed _ rfl
        · exact sound_of_isNamed _ rfl

/-- Every lexeme is sound. -/
theorem lexeme_sound {mode : Mode} {c : Char} {rest : List Char} {found : Lexeme}
    (h : lexeme mode c rest = .ok found) : Sound found.kind found.value := by
  rcases lexeme_cases h with hOuter | hNumber | ⟨-, rfl⟩
  · refine sound_of_isNamed _ ?_
    cases hKind : found.kind <;> rw [hKind] at hOuter <;> first | rfl | cases hOuter
  · exact numberLexeme_sound hNumber
  · exact markLexeme_sound mode c rest

/-- What holds of the tokens of a text that begins at a position. -/
structure Scanned (position : Position) (tokens : List Token) : Prop where
  sound : ∀ t ∈ tokens, Sound t.kind t.value
  behind : ∀ t ∈ tokens, position = t.position ∨ position.Precedes t.position
  ordered : tokens.Pairwise fun s t => s.position.Precedes t.position

/-- A token in front of those that are scanned behind it. -/
theorem Scanned.cons {position next : Position} {token : Token} {tokens : List Token}
    (hSound : Sound token.kind token.value)
    (hBehind : position = token.position ∨ position.Precedes token.position)
    (hNext : token.position.Precedes next) (h : Scanned next tokens) :
    Scanned position (token :: tokens) := by
  have hLater : ∀ t ∈ tokens, token.position.Precedes t.position := by
    intro t hMem
    rcases h.behind t hMem with hSame | hPrecedes
    · exact hSame ▸ hNext
    · exact hNext.trans hPrecedes
  refine ⟨List.forall_mem_cons.mpr ⟨hSound, h.sound⟩,
    List.forall_mem_cons.mpr ⟨hBehind, fun t hMem => ?_⟩, List.pairwise_cons.mpr ⟨hLater, h.ordered⟩⟩
  rcases hBehind with hSame | hPrecedes
  · exact .inr (hSame ▸ hLater t hMem)
  · exact .inr (hPrecedes.trans (hLater t hMem))

/-- By induction on how they were scanned: tokens are sound, and stand one behind the
other. -/
theorem Yields.scanned {mode : Mode} {position : Position} {cs : List Char} {tokens : List Token}
    (h : Yields mode position cs tokens) : Scanned position tokens := by
  have hStart (position : Position) (blanks : List Char) :
      position = position.advance blanks ∨ position.Precedes (position.advance blanks) := by
    rcases position.advance_cases blanks with hNone | hLater
    · exact .inl (by rw [hNone, Position.advance_nil])
    · exact .inr hLater
  induction h with
  | done hGap =>
      refine ⟨?_, ?_, List.pairwise_singleton _ _⟩
      · exact List.forall_mem_singleton.mpr (sound_of_isNamed _ rfl)
      · exact List.forall_mem_singleton.mpr (hStart _ _)
  | @step mode position cs rest c found later hGap hLexeme hLater ih =>
      have hTaken : (c :: rest).take found.size ≠ [] := by
        simp [Nat.ne_of_gt found.size_pos]
      exact ih.cons (lexeme_sound hLexeme) (hStart _ _) (Position.precedes_advance _ hTaken)

/-- The tokens of a template are sound, and no two of them begin at one place. -/
theorem scan_scanned {text : String} {tokens : List Token} (h : scan text = .ok tokens) :
    Scanned Position.start tokens :=
  (Yields.of_scan h).scanned

/-- No two tokens stand at one place. -/
theorem Scanned.nodup_places {position : Position} {tokens : List Token}
    (h : Scanned position tokens) : (tokens.map Token.place).Nodup := by
  rw [List.Nodup, List.pairwise_map]
  refine h.ordered.imp fun {s t} hPrecedes hSame => ?_
  rw [Token.place, Token.place, Place.mk.injEq] at hSame
  rcases hPrecedes with hLine | hColumn
  · exact Nat.ne_of_lt hLine hSame.1
  · exact Nat.ne_of_lt hColumn.2 hSame.2

end Token

end NoteTemplate
