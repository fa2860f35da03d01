import Mathlib.Data.List.Induction
import NoteTemplate.Proofs.Compose.Template
import NoteTemplate.Proofs.Deferred.WholeNames

/-! Tokens lie over the text that they were cut from, in its order. The value of a
token is what is written at its place, and only blanks are left out between a
token and the next one. Strings are the exception: the value of a string is not
what is written, and nothing of an open string but its quote is in its value. -/
namespace NoteTemplate

open Text

namespace Position

/-- The place of an offset. Line feeds before it count its line, and its column
is counted from the last one of them. -/
def ofOffset (cs : List Char) (offset : Nat) : Position :=
  let before := cs.take offset
  ⟨offset, 1 + before.count '\n', 1 + (before.reverse.takeWhile (· != '\n')).length⟩

/-- A scanner that goes over a text character by character counts in the same way. -/
theorem advance_start (cs more : List Char) : start.advance cs = ofOffset (cs ++ more) cs.length := by
  rw [ofOffset, List.take_left]
  induction cs using List.reverseRecOn with
  | nil => rfl
  | append_singleton cs c ih =>
      rw [advance_append, ih]
      by_cases hFeed : c = '\n'
      · subst hFeed
        simp [advance, next]
        omega
      · simp [advance, next, hFeed]
        omega

theorem offset_advance_start (cs : List Char) : (start.advance cs).offset = cs.length := by
  rw [advance_start cs []]
  rfl

end Position

namespace Token

/-- A token was cut from these characters. They begin with its value, and behind
the value only blanks are taken along. -/
structure Cuts (kind : Kind) (value : String) (taken : List Char) : Prop where
  written : kind ≠ .string → value.toList <+: taken
  blank : kind ≠ .string → kind ≠ .openString →
    ∀ c ∈ taken.drop value.toList.length, isBlank c = true
  plain : kind = .text → value ≠ "" ∧ ¬ openVariable <:+: value.toList ∧ ¬ openTag <:+: value.toList

/-! One lexeme. -/

/-- Plain text has no opening delimiter in it. -/
theorem plainText_plain (cs : List Char) :
    plainText cs <+: cs ∧ ¬ openVariable <:+: plainText cs ∧ ¬ openTag <:+: plainText cs := by
  induction cs with
  | nil => simp [plainText, openVariable, openTag]
  | cons c rest ih =>
      rw [plainText]
      split
      · simp [openVariable, openTag]
      · next hOpens =>
        have hPrefix : c :: plainText rest <+: c :: rest := List.cons_prefix_cons.mpr ⟨rfl, ih.1⟩
        refine ⟨hPrefix, ?_, ?_⟩
        · rw [List.infix_cons_iff]
          rintro (hHere | hLater)
          · refine hOpens ?_
            rw [opensHere, startsWith, List.isPrefixOf_iff_prefix.mpr (hHere.trans hPrefix), Bool.true_or]
          · exact ih.2.1 hLater
        · rw [List.infix_cons_iff]
          rintro (hHere | hLater)
          · refine hOpens ?_
            rw [opensHere, startsWith, startsWith,
              List.isPrefixOf_iff_prefix.mpr (hHere.trans hPrefix), Bool.or_true]
          · exact ih.2.2 hLater

/-- A number is taken off the front of a text. -/
theorem numberTail_isPrefix (cs : List Char) : numberTail cs <+: cs := by
  have hWhole := List.takeWhile_append_dropWhile (p := isDecimalDigit) (l := cs)
  rw [numberTail]
  split
  · next rest hPoint =>
    conv_rhs => rw [← hWhole, hPoint]
    exact (List.prefix_append_right_inj _).mpr
      (List.cons_prefix_cons.mpr ⟨rfl, List.takeWhile_prefix _⟩)
  · exact List.takeWhile_prefix _

/-- A name is taken off the front of a text. -/
theorem nameTail_isPrefix (cs : List Char) : nameTail cs <+: cs := by
  induction cs with
  | nil => exact List.prefix_rfl
  | cons c rest ih =>
      rw [nameTail]
      split
      · exact List.nil_prefix
      · split
        · exact List.nil_prefix
        · exact List.cons_prefix_cons.mpr ⟨rfl, ih⟩

/-- A token with a value that is written as it is, and blanks behind it. -/
theorem cuts_of_append {kind : Kind} {value : String} {taken blanks : List Char}
    (hKind : kind ≠ .text) (hTaken : taken = value.toList ++ blanks)
    (hBlanks : ∀ c ∈ blanks, isBlank c = true) : Cuts kind value taken := by
  subst hTaken
  refine ⟨fun _ => List.prefix_append _ _, fun _ _ => ?_, fun hText => absurd hText hKind⟩
  rwa [List.drop_left]

theorem cuts_of_eq {kind : Kind} {value : String} {taken : List Char} (hKind : kind ≠ .text)
    (hTaken : taken = value.toList) : Cuts kind value taken :=
  cuts_of_append hKind (by rw [hTaken, List.append_nil]) (by simp)

theorem cuts_string (value : String) (taken : List Char) : Cuts .string value taken :=
  ⟨fun h => absurd rfl h, fun h => absurd rfl h, fun h => by cases h⟩

/-- Plain text goes as far as the next opening delimiter. -/
theorem text_cuts {c : Char} {rest : List Char} (h : opensHere (c :: rest) = false) :
    Cuts .text (String.ofList (c :: plainText rest))
      ((c :: rest).take (c :: plainText rest).length) := by
  have hText : plainText (c :: rest) = c :: plainText rest := by
    rw [plainText, h, if_neg Bool.false_ne_true]
  obtain ⟨hPrefix, hVariable, hTag⟩ := plainText_plain (c :: rest)
  rw [hText] at hPrefix hVariable hTag
  rw [← List.prefix_iff_eq_take.mp hPrefix]
  refine ⟨fun _ => ?_, fun _ _ => ?_, fun _ => ⟨?_, ?_⟩⟩
  · simp
  · simp
  · simp
  · rw [String.toList_ofList]
    exact ⟨hVariable, hTag⟩

theorem openingLexeme_cuts (cs : List Char) : Cuts (openingLexeme cs).kind (openingLexeme cs).value
    (cs.take (openingLexeme cs).size) := by
  simp only [openingLexeme]
  split
  · exact cuts_of_eq Kind.noConfusion String.toList_ofList.symm
  · exact cuts_of_eq Kind.noConfusion String.toList_ofList.symm

/-- A closing delimiter is spelled as it stands in the text. -/
theorem closing?_cuts {mode : Mode} {cs : List Char} {found : Lexeme}
    (h : closing? mode cs = some found) : Cuts found.kind found.value (cs.take found.size) := by
  have hKind : (if mode = .variable then Kind.variableEnd else Kind.tagEnd) ≠ .text := by
    cases mode <;> exact Kind.noConfusion
  have hTake {part : List Char} (hPart : startsWith part cs = true) : cs.take part.length = part :=
    List.prefix_iff_eq_take.mp (List.isPrefixOf_iff_prefix.mp hPart) |>.symm
  unfold closing? at h
  extract_lets kind mark at h
  split at h
  · next hTrimmed =>
    cases h
    exact cuts_of_eq hKind ((hTake hTrimmed).trans String.toList_ofList.symm)
  · split at h
    · next hPlain =>
      cases h
      exact cuts_of_eq hKind ((hTake hPlain).trans String.toList_ofList.symm)
    · cases h

/-- A string token holds what its spelling in the text says. -/
theorem stringLexeme_cuts (mode : Mode) (quote : Char) (rest : List Char) :
    Cuts (stringLexeme mode quote rest).kind (stringLexeme mode quote rest).value
      ((quote :: rest).take (stringLexeme mode quote rest).size) := by
  simp only [stringLexeme]
  split
  · exact cuts_string _ _
  · refine ⟨fun _ => ?_, fun _ h => absurd rfl h, fun h => by cases h⟩
    rw [String.toList_ofList, List.take_succ_cons]
    exact List.cons_prefix_cons.mpr ⟨rfl, List.nil_prefix⟩

/-- A number is spelled as it stands in the text. -/
theorem numberLexeme_cuts {mode : Mode} {c : Char} {rest : List Char} {found : Lexeme}
    (h : numberLexeme mode c rest = .ok found) :
    Cuts found.kind found.value ((c :: rest).take found.size) := by
  have hTail : Cuts .number (String.ofList (c :: numberTail rest))
      ((c :: rest).take (c :: numberTail rest).length) := by
    refine cuts_of_eq Kind.noConfusion ?_
    rw [String.toList_ofList]
    exact (List.prefix_iff_eq_take.mp
      (List.cons_prefix_cons.mpr ⟨rfl, numberTail_isPrefix rest⟩)).symm
  simp only [numberLexeme] at h
  split at h
  · split at h
    · split at h <;> cases h
      exact hTail
    · cases h
  · split at h <;> cases h
    exact hTail

/-- What is taken of a page selector: its mark, and what the scanner reads behind
the colon. -/
theorem take_selector {rest : List Char}
    (hColon : startsWith [':'] (rest.drop (nameTail rest).length) = true) (c : Char) :
    let body := selectorBody {} ((rest.drop (nameTail rest).length).drop 1)
    (c :: rest).take ((nameTail rest).length + 2 + body.length) =
      c :: (nameTail rest ++ ':' :: body) := by
  intro body
  obtain ⟨more, hMore⟩ : ∃ more, rest.drop (nameTail rest).length = ':' :: more := by
    obtain ⟨more, hMore⟩ := List.isPrefixOf_iff_prefix.mp hColon
    exact ⟨more, hMore.symm⟩
  obtain ⟨after, hBody⟩ := selectorBody_isPrefix {} more
  have hFront : body ++ after = more := by
    simpa [body, hMore] using hBody
  have hWhole : c :: rest = c :: (nameTail rest ++ ':' :: body) ++ after := by
    conv_lhs => rw [← List.prefix_iff_eq_append.mp (nameTail_isPrefix rest), hMore, ← hFront]
    simp
  have hLength : (nameTail rest).length + 2 + body.length =
      (c :: (nameTail rest ++ ':' :: body)).length := by
    simp
    omega
  rw [hLength, hWhole, List.take_left]

/-- A name is spelled as it stands in the text, up to the blanks behind a selector. -/
theorem nameLexeme_cuts (mode : Mode) (c : Char) (rest : List Char)
    (hKind : (nameLexeme mode c rest).kind ≠ .text) :
    Cuts (nameLexeme mode c rest).kind (nameLexeme mode c rest).value
      ((c :: rest).take (nameLexeme mode c rest).size) := by
  rw [nameLexeme] at hKind ⊢
  dsimp only at hKind ⊢
  split
  · next hSelector =>
    rw [Bool.and_eq_true] at hSelector
    obtain ⟨blanks, hBody, hBlanks⟩ :=
      exists_trimEnd_append (selectorBody {} ((rest.drop (nameTail rest).length).drop 1))
    refine cuts_of_append Kind.noConfusion ?_ hBlanks
    rw [take_selector hSelector.2]
    conv_lhs => rw [hBody]
    simp
  · next hAlone =>
    rw [if_neg hAlone] at hKind
    refine cuts_of_eq hKind ?_
    rw [String.toList_ofList]
    exact (List.prefix_iff_eq_take.mp
      (List.cons_prefix_cons.mpr ⟨rfl, nameTail_isPrefix rest⟩)).symm

/-- A mark is spelled as it stands in the text. -/
theorem markLexeme_cuts (mode : Mode) (c : Char) (rest : List Char) :
    Cuts (markLexeme mode c rest).kind (markLexeme mode c rest).value
      ((c :: rest).take (markLexeme mode c rest).size) := by
  have hKind := (markLexeme_kind mode c rest).2
  rw [markLexeme] at hKind ⊢
  split
  · next kind hPair =>
    rw [hPair] at hKind
    exact cuts_of_eq hKind String.toList_ofList.symm
  · next hPair =>
    rw [hPair] at hKind
    dsimp only at hKind
    split
    · next kind hSingle =>
      rw [hSingle] at hKind
      exact cuts_of_eq hKind String.toList_ofList.symm
    · next hSingle =>
      rw [hSingle] at hKind
      dsimp only at hKind
      split
      · next hName =>
        rw [if_pos hName] at hKind
        exact nameLexeme_cuts mode c rest hKind
      · split
        · exact cuts_string _ _
        · exact cuts_of_eq Kind.noConfusion String.toList_ofList.symm

/-- Every lexeme begins with its value. -/
theorem lexeme_cuts {mode : Mode} {c : Char} {rest : List Char} {found : Lexeme}
    (h : lexeme mode c rest = .ok found) :
    Cuts found.kind found.value ((c :: rest).take found.size) := by
  rw [lexeme] at h
  split at h
  · split at h
    · cases h
      exact openingLexeme_cuts _
    · next hPlain =>
      cases h
      exact text_cuts (Bool.eq_false_iff.mpr hPlain)
  · rw [innerLexeme] at h
    split at h
    · next hClosing =>
      cases h
      exact closing?_cuts hClosing
    · split at h
      · cases h
        exact openingLexeme_cuts _
      · split at h
        · cases h
          exact stringLexeme_cuts mode c rest
        · split at h
          · exact numberLexeme_cuts h
          · cases h
            exact markLexeme_cuts mode c rest

/-! A whole text. -/

/-- Tokens lie over a text that has other characters in front of it: in turn blanks
and what a token was cut from, and at last blanks and the mark of the end. -/
inductive Lies : List Char → List Char → List Token → Prop where
  | done {front blanks : List Char} (hBlanks : ∀ c ∈ blanks, isBlank c = true) :
      Lies front blanks [endAt (Position.start.advance (front ++ blanks))]
  | token {front blanks taken rest : List Char} {t : Token} {later : List Token}
      (hBlanks : ∀ c ∈ blanks, isBlank c = true) (hTaken : taken ≠ [])
      (hPlace : t.position = Position.start.advance (front ++ blanks))
      (hCuts : Cuts t.kind t.value taken) (hLater : Lies (front ++ blanks ++ taken) rest later) :
      Lies front (blanks ++ taken ++ rest) (t :: later)

/-- Between tokens there are blanks only. -/
theorem isBlank_of_gap (mode : Mode) (cs : List Char) : ∀ c ∈ gap mode cs, isBlank c = true := by
  intro c hMem
  rw [gap] at hMem
  split at hMem
  · cases hMem
  · have hGap : isGap c = true := List.all_eq_true.mp List.all_takeWhile c hMem
    simp only [isGap, Bool.or_eq_true, beq_iff_eq] at hGap
    rcases hGap with ((rfl | rfl) | rfl) | rfl <;> rfl

/-- By induction on its steps, the scanner goes over the characters in their order
and leaves none out but blanks. -/
theorem Yields.lies {mode : Mode} {position : Position} {cs : List Char} {tokens : List Token}
    (h : Yields mode position cs tokens) :
    ∀ front, position = Position.start.advance front → Lies front cs tokens := by
  induction h with
  | @done mode position cs hGap =>
      intro front hPosition
      have hWhole := gap_append_drop mode cs
      rw [hGap, List.append_nil] at hWhole
      rw [hPosition, ← Position.advance_append]
      exact .done (hWhole ▸ isBlank_of_gap mode cs)
  | @step mode position cs rest c found later hGap hLexeme hLater ih =>
      intro front hPosition
      have hTaken : (c :: rest).take found.size ≠ [] := by
        simp [Nat.ne_of_gt found.size_pos]
      have hPlace : position.advance (gap mode cs) =
          Position.start.advance (front ++ gap mode cs) := by
        rw [Position.advance_append, ← hPosition]
      have hLies := ih (front ++ gap mode cs ++ (c :: rest).take found.size) (by
        rw [Position.advance_append, ← hPlace])
      have hWhole : gap mode cs ++ (c :: rest).take found.size ++ (c :: rest).drop found.size =
          cs := by
        rw [List.append_assoc, List.take_append_drop, ← hGap, gap_append_drop]
      rw [← hWhole]
      exact .token (isBlank_of_gap mode cs) hTaken (by rw [hWhole]; exact hPlace)
        (lexeme_cuts hLexeme) hLies

/-- Each token was cut from the text at its place. -/
theorem Lies.exists_cut {front cs : List Char} {tokens : List Token} (h : Lies front cs tokens) :
    ∀ t ∈ tokens, ∃ before taken after, front ++ cs = before ++ (taken ++ after) ∧
      t.position = Position.start.advance before ∧ Cuts t.kind t.value taken := by
  induction h with
  | @done front blanks hBlanks =>
      refine List.forall_mem_singleton.mpr ⟨front ++ blanks, [], [], by simp, rfl, ?_⟩
      exact cuts_of_eq Kind.noConfusion rfl
  | @token front blanks taken rest t later hBlanks hTaken hPlace hCuts hLater ih =>
      have hWhole : front ++ (blanks ++ taken ++ rest) = front ++ blanks ++ taken ++ rest := by
        simp
      rw [hWhole]
      exact List.forall_mem_cons.mpr
        ⟨⟨front ++ blanks, taken, rest, List.append_assoc _ _ _, hPlace, hCuts⟩, ih⟩

/-- The first token stands behind blanks. -/
theorem Lies.exists_first {front cs : List Char} {tokens : List Token} (h : Lies front cs tokens) :
    ∃ t later blanks rest, tokens = t :: later ∧ cs = blanks ++ rest ∧
      (∀ c ∈ blanks, isBlank c = true) ∧ t.position.offset = (front ++ blanks).length := by
  cases h with
  | done hBlanks =>
      exact ⟨_, [], cs, [], rfl, (List.append_nil _).symm, hBlanks, Position.offset_advance_start _⟩
  | token hBlanks hTaken hPlace hCuts hLater =>
      refine ⟨_, _, _, _, rfl, List.append_assoc _ _ _, hBlanks, ?_⟩
      rw [hPlace, Position.offset_advance_start]

theorem extract_append (before part after : List Char) :
    (before ++ (part ++ after)).extract before.length (before.length + part.length) = part := by
  rw [List.extract_eq_take_drop, List.drop_left, Nat.add_sub_cancel_left, List.take_left]

/-- The offset behind what is written for the value of a token. -/
def stop (t : Token) : Nat := t.position.offset + t.value.toList.length

/-- A token stands behind another one. Between them there is nothing but blanks
unless the first one is a string. -/
structure Behind (cs : List Char) (first second : Token) : Prop where
  ascends : first.position.offset < second.position.offset
  apart : first.kind ≠ .string → first.kind ≠ .openString → first.stop ≤ second.position.offset ∧
    ∀ c ∈ cs.extract first.stop second.position.offset, isBlank c = true

/-- By induction on the tokens, each stands behind the one before. -/
theorem Lies.chain {front cs : List Char} {tokens : List Token} (h : Lies front cs tokens) :
    tokens.IsChain (Behind (front ++ cs)) := by
  induction h with
  | done hBlanks => exact List.IsChain.singleton _
  | @token front blanks taken rest t later hBlanks hTaken hPlace hCuts hLater ih =>
      obtain ⟨next, others, more, last, rfl, rfl, hMore, hNext⟩ := hLater.exists_first
      have hOffset : t.position.offset = (front ++ blanks).length := by
        rw [hPlace, Position.offset_advance_start]
      rw [List.length_append, List.length_append] at hNext
      have hWhole : front ++ (blanks ++ taken ++ (more ++ last)) =
          front ++ blanks ++ taken ++ (more ++ last) := by
        simp
      rw [hWhole]
      refine List.isChain_cons_cons.mpr ⟨⟨?_, fun hString hOpen => ?_⟩, ih⟩
      · have hSome := List.length_pos_iff.mpr hTaken
        omega
      · obtain ⟨tail, rfl⟩ := hCuts.written hString
        have hBlank := hCuts.blank hString hOpen
        rw [List.drop_left] at hBlank
        have hStop : t.stop = (front ++ blanks ++ t.value.toList).length := by
          rw [stop, hOffset, ← List.length_append]
        have hNextOffset : next.position.offset =
            (front ++ blanks ++ t.value.toList).length + (tail ++ more).length := by
          rw [hNext]
          simp only [List.length_append]
          omega
        have hSplit : front ++ blanks ++ (t.value.toList ++ tail) ++ (more ++ last) =
            front ++ blanks ++ t.value.toList ++ (tail ++ more ++ last) := by
          simp
        rw [hStop, hNextOffset, hSplit, extract_append]
        refine ⟨Nat.le_add_right _ _, fun c hMem => ?_⟩
        rcases List.mem_append.mp hMem with hTail | hGap
        · exact hBlank c hTail
        · exact hMore c hGap

/-- Tokens lie over a text in its order, each at the place that it names. -/
structure Tiles (cs : List Char) (tokens : List Token) : Prop where
  ends : ∃ inner last, tokens = inner ++ [last] ∧ last.kind = .endOfText ∧
    last.position.offset = cs.length ∧ ∀ t ∈ inner, t.kind ≠ .endOfText
  ascending : tokens.Pairwise fun first second => first.position.offset < second.position.offset
  written : ∀ t ∈ tokens, t.kind ≠ .string → cs.extract t.position.offset t.stop = t.value.toList
  placed : ∀ t ∈ tokens, t.position = Position.ofOffset cs t.position.offset
  plain : ∀ t ∈ tokens, t.kind = .text →
    t.value ≠ "" ∧ ¬ openVariable <:+: t.value.toList ∧ ¬ openTag <:+: t.value.toList
  apart : tokens.IsChain (Behind cs)

/-- The tokens of a text lie over it. -/
theorem scan_tiles {text : String} {tokens : List Token} (h : scan text = .ok tokens) :
    Tiles text.toList tokens := by
  have hLies : Lies [] text.toList tokens := (Yields.of_scan h).lies [] rfl
  have hCut : ∀ t ∈ tokens, ∃ before taken after, text.toList = before ++ (taken ++ after) ∧
      t.position = Position.start.advance before ∧ Cuts t.kind t.value taken := hLies.exists_cut
  have hChain : tokens.IsChain (Behind text.toList) := hLies.chain
  refine ⟨?_, ?_, fun t hMem hKind => ?_, fun t hMem => ?_, fun t hMem hKind => ?_, hChain⟩
  · obtain ⟨inner, rfl, hInner⟩ := (Yields.of_scan h).ends
    exact ⟨inner, _, rfl, rfl, Position.offset_advance_start _, hInner⟩
  · have hTrans : Trans (fun a b : Token => a.position.offset < b.position.offset)
        (fun a b : Token => a.position.offset < b.position.offset)
        fun a b : Token => a.position.offset < b.position.offset := ⟨Nat.lt_trans⟩
    exact (hChain.imp fun _ _ hBehind => hBehind.ascends).pairwise
  · obtain ⟨before, taken, after, hText, hPlace, hCuts⟩ := hCut t hMem
    obtain ⟨tail, rfl⟩ := hCuts.written hKind
    rw [stop, hPlace, Position.offset_advance_start, hText, List.append_assoc, extract_append]
  · obtain ⟨before, taken, after, hText, hPlace, -⟩ := hCut t hMem
    rw [hPlace, Position.offset_advance_start, hText]
    exact Position.advance_start before (taken ++ after)
  · obtain ⟨before, taken, after, -, -, hCuts⟩ := hCut t hMem
    exact hCuts.plain hKind

/-- Blanks behind a selector are left out, and so is an open string but its quote. -/
theorem scan_tiles_selector : ∃ tokens,
    scan "\x7b\x7b- selector:h1 \t|x\x7d\x7d\n\x7b% \"y" = .ok tokens ∧ tokens.length = 9 ∧
      Tiles "\x7b\x7b- selector:h1 \t|x\x7d\x7d\n\x7b% \"y".toList tokens := by
  have hScan : scan "\x7b\x7b- selector:h1 \t|x\x7d\x7d\n\x7b% \"y" = .ok
      [⟨.variableStart, "\x7b\x7b-", ⟨0, 1, 1⟩, true, false⟩,
        ⟨.identifier, "selector:h1", ⟨4, 1, 5⟩, false, false⟩, ⟨.pipe, "|", ⟨17, 1, 18⟩, false, false⟩,
        ⟨.identifier, "x", ⟨18, 1, 19⟩, false, false⟩,
        ⟨.variableEnd, "\x7d\x7d", ⟨19, 1, 20⟩, false, false⟩,
        ⟨.text, "\n", ⟨21, 1, 22⟩, false, false⟩, ⟨.tagStart, "\x7b%", ⟨22, 2, 1⟩, false, false⟩,
        ⟨.openString, "\"", ⟨25, 2, 4⟩, false, false⟩,
        ⟨.endOfText, "", ⟨27, 2, 6⟩, false, false⟩] := by
    decide +kernel
  exact ⟨_, hScan, rfl, scan_tiles hScan⟩

end Token

end NoteTemplate
