import NoteTemplate.Proofs.Deferred.Link
import NoteTemplate.Proofs.Deferred.Whole
import NoteTemplate.Proofs.Provenance.Nodes
import NoteTemplate.Proofs.Provenance.Words

/-! Names in the source of a placeholder. The scanner of page selectors and the
search for the end of a placeholder agree on what stands in a string, as long as
no quote outside of a string has a backslash in front of it. A selector goes on
over two closing braces only inside of a string, and all other quotes in a name
belong to whole strings. -/
namespace NoteTemplate

open Text Token Search

namespace Token

/-- No string is open behind a text, and no quote outside of a string has a
backslash in front of it. -/
def SelectorState.closes (s : SelectorState) : List Char → Bool
  | [] => s.quote.isNone
  | c :: rest =>
    if c = '\\' && s.takesAlong rest then
      match rest with
      | _ :: rest => s.quote.isSome && s.closes rest
      | [] => false
    else (s.next c).closes rest

namespace SelectorState

/-- Where the search stands when the scanner of a selector stands there. -/
def search (s : SelectorState) : Search :=
  match s.quote with
  | some quote => .inside quote
  | none => .outside

/-- What opened the string in which a scanner stands is a quote. -/
def Quoted (s : SelectorState) : Prop := ∀ quote ∈ s.quote, isQuote quote = true

/-- A character opens or closes a string of a selector only if it is a quote. -/
theorem quote_next (s : SelectorState) (c : Char) : (s.next c).quote =
    match s.quote with
    | some quote => if c = quote then none else some quote
    | none => if isQuote c then some c else none := by
  cases hOpen : s.quote with
  | some quote =>
      simp only [next, hOpen]
      split
      · rfl
      · exact hOpen
  | none =>
      simp only [next, hOpen]
      split
      · rfl
      · repeat (split; · rfl)
        exact hOpen

/-- Only quotes are ever open. -/
theorem Quoted.next {s : SelectorState} (h : s.Quoted) (c : Char) : (s.next c).Quoted := by
  intro quote hQuote
  rw [quote_next] at hQuote
  split at hQuote
  · next open' hOpen =>
    split at hQuote
    · cases hQuote
    · exact h quote (hOpen ▸ hQuote)
  · split at hQuote
    · next hFirst =>
      cases hQuote
      exact hFirst
    · cases hQuote

/-- Inside a string the search moves on with the scanner, except behind a backslash. -/
theorem search_next_of_some {s : SelectorState} {quote c : Char} (hOpen : s.quote = some quote)
    (hBackslash : c ≠ '\\') : s.search.next c = (s.next c).search := by
  rw [search, search, quote_next, hOpen]
  dsimp only
  rw [Search.next, if_neg hBackslash]
  split <;> rfl

/-- Outside of strings the search moves on with the scanner, except behind a
closing brace. -/
theorem search_next_of_none {s : SelectorState} {c : Char} (hClosed : s.quote = none)
    (hBrace : c ≠ '\x7d') : s.search.next c = (s.next c).search := by
  rw [search, search, quote_next, hClosed]
  dsimp only
  rw [Search.next, if_neg hBrace]
  split <;> rfl

/-- A backslash that stands for itself and a brace with none behind it keep the
search where the scanner is. -/
theorem past_search_cons {s : SelectorState} {c : Char} {rest : List Char}
    (hEscape : c = '\\' → s.takesAlong rest = false)
    (hBrace : c = '\x7d' → s.quote = none → ∃ d later, rest = d :: later ∧ d ≠ '\x7d') :
    s.search.past (c :: rest) = (s.next c).search.past rest := by
  rw [past_cons]
  cases hOpen : s.quote with
  | some quote =>
      have hBackslash : c ≠ '\\' := fun hSame => by
        have hAlone := hEscape hSame
        rw [takesAlong, hOpen] at hAlone
        cases hAlone
      rw [search_next_of_some hOpen hBackslash]
  | none =>
      by_cases hSame : c = '\x7d'
      · obtain ⟨d, later, rfl, hOther⟩ := hBrace hSame hOpen
        have hBehind : (s.next c).search = .outside := by
          rw [search, quote_next, hOpen, hSame]
          rfl
        rw [hBehind, search, hOpen, hSame, past_cons, past_cons]
        exact congrArg (past · later) (next_brace hOther)
      · rw [search_next_of_none hOpen hSame]

/-- A character behind a backslash in a string is passed along with it. -/
theorem past_search_escaped {s : SelectorState} {quote e : Char} {rest : List Char}
    (hQuoted : s.Quoted) (hOpen : s.quote = some quote) :
    s.search.past ('\\' :: e :: rest) = s.search.past rest := by
  have hOther : '\\' ≠ quote := by
    rintro rfl
    exact absurd (hQuoted _ hOpen) (by decide)
  rw [search, hOpen]
  dsimp only
  rw [past_cons, Search.next, if_neg hOther, if_pos rfl, past_cons]
  rfl

theorem closes_of_taken {s : SelectorState} {e : Char} {rest : List Char}
    (hTakes : s.takesAlong (e :: rest) = true) (h : s.closes ('\\' :: e :: rest) = true) :
    (∃ quote, s.quote = some quote) ∧ s.closes rest = true := by
  rw [closes, hTakes] at h
  obtain ⟨hSome, hRest⟩ := Bool.and_eq_true_iff.mp h
  exact ⟨Option.isSome_iff_exists.mp hSome, hRest⟩

/-- Where no character is taken along, the strings close behind the first one. -/
theorem closes_of_alone {s : SelectorState} {c : Char} {rest : List Char}
    (hAlone : ¬ (decide (c = '\\') && s.takesAlong rest) = true) (h : s.closes (c :: rest) = true) :
    (s.next c).closes rest = true := by
  rw [closes.eq_def] at h
  dsimp only at h
  rwa [if_neg hAlone] at h

theorem past_search_nil {s : SelectorState} (h : s.closes [] = true) : s.search.past [] = .outside := by
  rw [closes, Option.isNone_iff_eq_none] at h
  rw [past_nil, search, h]

/-- Characters that open and close nothing keep the scanner where it is. -/
theorem next_of_isPlain {s : SelectorState} {c : Char} (hClosed : s.quote = none)
    (h : isPlain c = true) : s.next c = s := by
  simp only [isPlain, Param.isMark, Bool.and_eq_true, Bool.not_eq_true', Bool.or_eq_false_iff,
    decide_eq_false_iff_not, bne_iff_ne] at h
  simp [next, hClosed, h]

/-- No selector ends inside of plain characters. -/
theorem closes_append {s : SelectorState} (hClosed : s.quote = none) {front : List Char}
    (h : ∀ c ∈ front, isPlain c = true) (cs : List Char) :
    s.closes (front ++ cs) = s.closes cs := by
  induction front with
  | nil => rfl
  | cons c front ih =>
      obtain ⟨hFirst, hRest⟩ := List.forall_mem_cons.mp h
      have hBackslash : c ≠ '\\' := by
        rintro rfl
        cases hFirst
      rw [List.cons_append, closes.eq_def]
      simp only [hBackslash, decide_false, Bool.false_and, Bool.false_eq_true, if_false]
      rw [next_of_isPlain hClosed hFirst, ih hRest]

end SelectorState

/-- The scanner takes a selector off the front of a text. -/
theorem selectorBody_isPrefix (s : SelectorState) (cs : List Char) : selectorBody s cs <+: cs := by
  fun_induction selectorBody s cs with
  | case1 s => exact List.prefix_rfl
  | case2 s c rest hStop => exact List.nil_prefix
  | case3 s c e rest hStop hEscape ih =>
      exact List.cons_prefix_cons.mpr ⟨rfl, List.cons_prefix_cons.mpr ⟨rfl, ih⟩⟩
  | case4 s c hStop hEscape => exact List.prefix_rfl
  | case5 s c rest hStop hEscape ih => exact List.cons_prefix_cons.mpr ⟨rfl, ih⟩

/-- What is taken along with a character is seen from a longer text as well. -/
theorem takesAlong_mono {s : SelectorState} {part cs : List Char} (hPart : part <+: cs)
    (h : s.takesAlong part = true) : s.takesAlong cs = true := by
  obtain ⟨more, rfl⟩ := hPart
  cases part with
  | nil =>
      rw [SelectorState.takesAlong, List.head?_nil, Option.map_none, Option.getD_none,
        Bool.or_false] at h
      rw [SelectorState.takesAlong, h, Bool.true_or]
  | cons d part => exact h

/-- A selector that does not stop at a closing brace has no other one behind it. -/
theorem ne_brace_of_not_stopsAt {s : SelectorState} {d : Char} {rest : List Char}
    (h : ¬ s.stopsAt ('\x7d' :: d :: rest) = true) : d ≠ '\x7d' := by
  rintro rfl
  refine h ?_
  rfl

theorem getLast?_tail_ne {c d : Char} {cs : List Char} (h : (c :: cs).getLast? ≠ some d) :
    cs.getLast? ≠ some d := by
  intro hLast
  rw [List.getLast?_cons, hLast] at h
  exact h rfl

/-- What is scanned of a selector leads the search through its strings. -/
theorem past_selectorBody {s : SelectorState} {cs part : List Char} (hQuoted : s.Quoted)
    (hPart : part <+: selectorBody s cs) (hCloses : s.closes part = true)
    (hEnd : part.getLast? ≠ some '\x7d') : s.search.past part = .outside := by
  fun_induction selectorBody s cs generalizing part with
  | case1 s =>
      rw [List.prefix_nil.mp hPart] at hCloses ⊢
      exact SelectorState.past_search_nil hCloses
  | case2 s c rest hStop =>
      rw [List.prefix_nil.mp hPart] at hCloses ⊢
      exact SelectorState.past_search_nil hCloses
  | case3 s c e rest hStop hEscape ih =>
      rcases List.prefix_cons_iff.mp hPart with rfl | ⟨part, rfl, hInner⟩
      · exact SelectorState.past_search_nil hCloses
      rw [Bool.and_eq_true, decide_eq_true_eq] at hEscape
      obtain ⟨rfl, hTakes⟩ := hEscape
      rcases List.prefix_cons_iff.mp hInner with rfl | ⟨part, rfl, hRest⟩
      · -- The backslash is the last character, so that it takes none along.
        have hAlone : s.takesAlong [] = false := by
          rw [← Bool.not_eq_true]
          intro hTrue
          rw [SelectorState.closes, hTrue] at hCloses
          cases hCloses
        rw [SelectorState.past_search_cons (fun _ => hAlone) (fun h => absurd h (by decide))]
        exact SelectorState.past_search_nil (SelectorState.closes_of_alone (by simp [hAlone]) hCloses)
      · have hTakes : s.takesAlong (e :: part) = true := hTakes
        obtain ⟨⟨quote, hOpen⟩, hCloses⟩ := SelectorState.closes_of_taken hTakes hCloses
        rw [SelectorState.past_search_escaped hQuoted hOpen]
        exact ih hQuoted hRest hCloses (getLast?_tail_ne (getLast?_tail_ne hEnd))
  | case4 s c hStop hEscape =>
      rcases List.prefix_cons_iff.mp hPart with rfl | ⟨part, rfl, hInner⟩
      · exact SelectorState.past_search_nil hCloses
      · rw [List.prefix_nil.mp hInner, SelectorState.closes, hEscape] at hCloses
        cases hCloses
  | case5 s c rest hStop hEscape ih =>
      rcases List.prefix_cons_iff.mp hPart with rfl | ⟨part, rfl, hInner⟩
      · exact SelectorState.past_search_nil hCloses
      have hFront := hInner.trans (selectorBody_isPrefix (s.next c) rest)
      have hAlone : ¬ (decide (c = '\\') && s.takesAlong part) = true := by
        rw [Bool.and_eq_true] at hEscape ⊢
        exact fun h => hEscape ⟨h.1, takesAlong_mono hFront h.2⟩
      have hBehind := ih (hQuoted.next c) hInner (SelectorState.closes_of_alone hAlone hCloses)
        (getLast?_tail_ne hEnd)
      rw [SelectorState.past_search_cons]
      · exact hBehind
      · rintro rfl
        simpa using hAlone
      · rintro rfl -
        cases part with
        | nil => exact absurd rfl hEnd
        | cons d part =>
            obtain ⟨more, rfl⟩ := hFront
            exact ⟨d, part, rfl, ne_brace_of_not_stopsAt hStop⟩

/-! Which lexemes are names. -/

/-- Of the marks, only a name is an identifier. -/
theorem markLexeme_of_identifier {mode : Mode} {c : Char} {rest : List Char}
    (h : (markLexeme mode c rest).kind = .identifier) :
    isNameStart c = true ∧ markLexeme mode c rest = nameLexeme mode c rest := by
  rw [markLexeme] at h ⊢
  split at h
  · next kind hPair =>
    cases rest with
    | nil => cases hPair
    | cons d rest =>
        have hNamed := isNamed_pairKind? hPair
        rw [show kind = .identifier from h] at hNamed
        cases hNamed
  · next hPair =>
    split at h
    · next kind hSingle => exact absurd h (singleKind?_cases hSingle).1
    · next hSingle =>
      split at h
      · next hStart =>
        refine ⟨hStart, ?_⟩
        rw [if_pos hStart]
      · split at h <;> cases h

/-- Only names are scanned as names. -/
theorem lexeme_of_identifier {mode : Mode} {c : Char} {rest : List Char} {found : Lexeme}
    (h : lexeme mode c rest = .ok found) (hKind : found.kind = .identifier) :
    isNameStart c = true ∧ found = nameLexeme mode c rest := by
  rcases lexeme_cases h with hOuter | hNumber | ⟨-, rfl⟩
  · rw [hKind] at hOuter
    cases hOuter
  · rw [numberLexeme_kind hNumber] at hKind
    cases hKind
  · exact markLexeme_of_identifier hKind

/-- A name in a template is a page selector or has name characters only. -/
theorem scan_named {text : String} {tokens : List Token} (h : scan text = .ok tokens) :
    ∀ t ∈ tokens, t.kind = .identifier →
      Selected t.value ∨ Expr.isNameText t.value.toList = true := by
  refine (Yields.of_scan h).forall (Q := fun kind value => kind = .identifier →
    Selected value ∨ Expr.isNameText value.toList = true) (fun h => nomatch h) ?_
  intro mode c rest found hFound hKind
  obtain ⟨hStart, rfl⟩ := lexeme_of_identifier hFound hKind
  exact nameLexeme_cases mode hStart rest

end Token

/-- A page selector that leaves no string open, with no quote outside of a string
behind a backslash, and no closing brace at its end. -/
structure Closed (name : String) : Prop where
  strings : SelectorState.closes {} name.toList = true
  last : name.toList.getLast? ≠ some '\x7d'

instance (name : String) : Decidable (Closed name) :=
  decidable_of_iff (SelectorState.closes {} name.toList = true ∧ name.toList.getLast? ≠ some '\x7d')
    ⟨fun h => ⟨h.1, h.2⟩, fun h => ⟨h.strings, h.last⟩⟩

/-- The search goes past a page selector whose strings are closed. -/
theorem Token.Selected.whole {name : String} (h : Selected name) (hClosed : Closed name) :
    Whole name.toList := by
  obtain ⟨mark, cs, hMark, hName⟩ := h
  obtain ⟨hStrings, hLast⟩ := hClosed
  rw [hName] at hStrings hLast ⊢
  have hFront : ∀ c ∈ mark.toList, isPlain c = true := by
    rcases hMark with rfl | rfl <;> exact List.all_eq_true.mp (by decide)
  rw [SelectorState.closes_append rfl hFront] at hStrings
  have hBody : Whole (trimEnd (selectorBody {} cs)) := by
    refine past_selectorBody (s := {}) (fun _ h => nomatch h) (trimEndBy_isPrefix isBlank _)
      hStrings fun hBrace => hLast ?_
    rw [List.getLast?_append, hBrace, Option.some_or]
  exact (sealed_of_forall hFront).whole.append hBody

/-- A bare word is gone past if there is no closing brace in it. -/
def WholeWord (word : String) : Prop := '\x7d' ∉ word.toList → Whole word.toList

theorem whole_of_isNameText {name : String} (h : Expr.isNameText name.toList = true) :
    Whole name.toList :=
  (Link.fragment_name h).closed.whole

section Spelling

variable {text : String} {tokens : List Token} (hScan : scan text = .ok tokens)
  (hSelectors : ∀ t ∈ tokens, t.kind = .identifier → SelectorQuery.isName t.value = true →
    Closed t.value)

include hScan hSelectors

theorem whole_of_identifier {t : Token} (hMem : t ∈ tokens) (hKind : t.kind = .identifier) :
    Whole t.value.toList := by
  rcases scan_named hScan t hMem hKind with hSelected | hName
  · exact hSelected.whole (hSelectors t hMem hKind hSelected.isName)
  · exact whole_of_isNameText hName

/-- The tokens that a prefixed name is glued from are whole. -/
theorem whole_of_isNamePart {t : Token} (hMem : t ∈ tokens) (hPart : Tokens.isNamePart t = true) :
    Whole t.value.toList := by
  have hMark (h : isNameMark t.kind = true) : Whole t.value.toList :=
    whole_of_forall ((scan_plain hScan t hMem).mark h)
  cases hKind : t.kind <;> simp only [Tokens.isNamePart, hKind, Bool.false_eq_true] at hPart
  case identifier => exact whole_of_identifier hScan hSelectors hMem hKind
  case unknown =>
    rw [beq_iff_eq.mp hPart]
    decide
  all_goals exact hMark (by rw [hKind]; rfl)

/-- The tokens that a bare word is glued from are whole if they hold no closing brace.
-/
theorem whole_of_isWordPart {t : Token} (hMem : t ∈ tokens)
    (hPart : Tokens.isWordPart t.kind = true) (hBrace : '\x7d' ∉ t.value.toList) :
    Whole t.value.toList := by
  have hPlain := scan_plain hScan t hMem
  rcases Tokens.isWordPart_cases hPart with hKind | hKind | hKind
  · exact whole_of_identifier hScan hSelectors hMem hKind
  · exact whole_of_forall (hPlain.mark (by rw [hKind]; rfl))
  · obtain ⟨c, hValue, -, hQuote⟩ := hPlain.unknown hKind
    rw [hValue, String.toList_ofList] at hBrace ⊢
    have hOther : c ≠ '\x7d' := fun h => hBrace (h ▸ List.mem_singleton_self _)
    exact whole_of_forall (List.forall_mem_singleton.mpr ⟨hOther, hQuote⟩)

/-- The search goes past all names of a template whose page selectors are closed,
and past its words without braces. -/
theorem spelling_whole : Tokens.Spelling tokens (fun name => Whole name.toList) WholeWord where
  name t hMem hKind := whole_of_identifier hScan hSelectors hMem hKind
  prefixed t hMem hKind previous ts hTokens := by
    have hColon : Whole ":".toList := by decide
    refine Tokens.prefixedName_induct (P := fun name => Whole name.toList)
      (R := fun part => Whole part.toList) ?_
      (fun s => (fragment_quote s).closed.whole) Whole.append_text ?_ previous
    · exact fun u hPart => whole_of_isNamePart hScan hSelectors (hTokens hPart)
    · exact (whole_of_identifier hScan hSelectors hMem hKind).append_text hColon
  word first words hTokens hParts hBrace := by
    refine whole_join (List.forall_mem_map.mpr fun t hMem => ?_)
    refine whole_of_isWordPart hScan hSelectors (hTokens hMem) (hParts t hMem) fun hInside => ?_
    refine hBrace ?_
    rw [String.toList_join, List.mem_flatMap]
    exact ⟨t.value, List.mem_map_of_mem hMem, hInside⟩

end Spelling

end NoteTemplate
