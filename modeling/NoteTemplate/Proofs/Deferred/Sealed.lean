import NoteTemplate.Proofs.Param.Splitting
import NoteTemplate.Datum
import NoteTemplate.Placeholder

/-! Texts that a placeholder holds without being torn apart. Quotes and
parentheses that are opened in such a text are closed in it, and a bar stands in
it only between quotes. Whoever looks for the bars of a chain, or for the end of
the placeholder, goes past the text as a whole. -/
namespace NoteTemplate

open Param Placeholder Token

/-- A character that has no meaning of its own in a placeholder. -/
def isPlain (c : Char) : Bool := !isMark c && c != '\\' && c != '|'

/-- Text whose quotes and parentheses are closed in it, and whose bars stand
between quotes. -/
inductive Sealed : List Char → Prop where
  | nil : Sealed []
  | plain {c : Char} {cs : List Char} : isPlain c = true → Sealed cs → Sealed (c :: cs)
  | quoted {cs : List Char} (s : String) : Sealed cs → Sealed ((quote s).toList ++ cs)
  | enclosed {inside cs : List Char} :
      Sealed inside → Sealed cs → Sealed ('(' :: (inside ++ ')' :: cs))

theorem sealed_of_forall {cs : List Char} (h : ∀ c ∈ cs, isPlain c = true) : Sealed cs := by
  induction cs with
  | nil => exact .nil
  | cons c cs ih => exact .plain (h c (by simp)) (ih fun d hd => h d (by simp [hd]))

/-- Texts that end outside of quotes can be put in a row. -/
theorem Sealed.append {first second : List Char} (hFirst : Sealed first) (hSecond : Sealed second) :
    Sealed (first ++ second) := by
  induction hFirst with
  | nil => exact hSecond
  | plain hPlain _ ih => exact .plain hPlain ih
  | quoted s _ ih =>
      rw [List.append_assoc]
      exact .quoted s ih
  | enclosed hInside _ _ ih =>
      rw [List.cons_append, List.append_assoc, List.cons_append]
      exact .enclosed hInside ih

theorem sealed_quote (s : String) : Sealed (quote s).toList := by
  simpa using Sealed.quoted s .nil

theorem Sealed.inParens {inside : List Char} (h : Sealed inside) :
    Sealed ('(' :: (inside ++ [')'])) :=
  .enclosed h .nil

/-- The splitting at bars goes past a sealed text. -/
theorem Sealed.passes {cs : List Char} (h : Sealed cs) : Passes '|' cs := by
  induction h with
  | nil => exact passes_nil
  | @plain c cs hPlain _ ih =>
      have hMark : isMark c = false := by
        simp only [isPlain, Bool.and_eq_true, Bool.not_eq_true'] at hPlain
        exact hPlain.1.1
      have hNe := ne_of_class hPlain
      exact (passes_singleton (hNe '\\' rfl) hMark (hNe '|' rfl).symm).append ih
  | quoted s _ ih => exact (passes_quote '|' s).append ih
  | @enclosed inside cs _ _ ihInside ih =>
      have hText : '(' :: (inside ++ ')' :: cs) = '(' :: (inside ++ [')']) ++ cs := by simp
      rw [hText]
      exact ihInside.inParens.append ih

/-- Sealed text with no blank at its ends. -/
structure Fragment (s : String) : Prop where
  closed : Sealed s.toList
  solid : Solid s

/-- A part of a chain as it stands between two bars. -/
structure ChainPart (part : String) : Prop extends Fragment part where
  some : part ≠ ""

theorem toList_bar (first second : String) (parts : List String) :
    (String.intercalate "|" (first :: second :: parts)).toList =
      first.toList ++ '|' :: (String.intercalate "|" (second :: parts)).toList := by
  rw [String.intercalate_cons_cons, String.toList_append, String.toList_append, List.append_assoc]
  rfl

theorem ChainPart.isPart {part : String} (h : ChainPart part) : Part '|' part :=
  ⟨h.closed.passes, h.solid, h.some⟩

/-- The parts of a chain are found again between its bars. -/
theorem split_chain {first : String} {parts : List String}
    (hParts : ∀ part ∈ first :: parts, ChainPart part) :
    Param.split '|' (String.intercalate "|" (first :: parts)) = first :: parts := by
  have hNoBlanks : ∀ c ∈ ([] : List Char), Text.isBlank c = true := by simp
  exact split_intercalate separates_bar hNoBlanks (List.cons_ne_nil _ _) fun part hMem =>
    (hParts part hMem).isPart

/-! Looking for the end of a placeholder. -/

/-- A character of which the search for the end takes no notice. -/
theorem body?_cons {c : Char} (hBrace : c ≠ '\x7d') (hQuote : isQuote c = false) (rest : List Char) :
    body? (c :: rest) = (body? rest).map fun (body, behind) => (c :: body, behind) := by
  rw [body?.eq_def]
  simp [hBrace, hQuote]

/-- A quoted text ends at its closing quote, whatever follows it. -/
theorem quotedRun?_of_quoted {quote : Char} {inside : List Char} (h : Quoted quote inside)
    (hQuote : isQuote quote = true) (rest : List Char) :
    quotedRun? quote (inside ++ quote :: rest) = some (inside ++ [quote], rest) := by
  induction h with
  | nil =>
      rw [List.nil_append, quotedRun?.eq_def]
      simp
  | plain hOther hPlain _ ih =>
      rw [List.cons_append, quotedRun?.eq_def]
      simp [ih, hOther, hPlain]
  | escaped c _ ih =>
      have hOther : '\\' ≠ quote := (ne_of_class hQuote '\\' rfl).symm
      rw [List.cons_append, List.cons_append, quotedRun?.eq_def]
      simp [ih, hOther]

/-- The end of a placeholder is not looked for inside of a quoted text. -/
theorem body?_quote (s : String) (rest : List Char) :
    body? ((quote s).toList ++ rest) =
      (body? rest).map fun (body, behind) => ((quote s).toList ++ body, behind) := by
  have hRun := quotedRun?_of_quoted (quoted_backslashed s.toList) rfl rest
  rw [quote_toList, List.cons_append, List.append_assoc, List.singleton_append, body?.eq_def]
  simp only [show ('"' : Char) ≠ '\x7d' by decide, if_false, show isQuote '"' = true from rfl,
    if_true]
  split
  · next run after hFound =>
      rw [hRun, Option.some.injEq, Prod.mk.injEq] at hFound
      rw [← hFound.1, ← hFound.2]
  · next hFound =>
      rw [hRun] at hFound
      cases hFound

/-- The search for the end of a placeholder goes past a sealed text. -/
theorem Sealed.body?_append {cs : List Char} (h : Sealed cs) (rest : List Char) :
    body? (cs ++ rest) = (body? rest).map fun (body, behind) => (cs ++ body, behind) := by
  induction h generalizing rest with
  | nil => simp
  | @plain c cs hPlain _ ih =>
      have hNe := ne_of_class hPlain
      have hQuote : isQuote c = false := by simp [isQuote, hNe '"' rfl, hNe '\'' rfl]
      rw [List.cons_append, body?_cons (hNe '\x7d' rfl) hQuote, ih]
      simp [Function.comp_def]
  | quoted s _ ih =>
      rw [List.append_assoc, body?_quote, ih]
      simp [Function.comp_def]
  | @enclosed inside cs _ _ ihInside ih =>
      rw [List.cons_append, List.append_assoc, List.cons_append, body?_cons (by decide) (by decide),
        ihInside, body?_cons (by decide) (by decide), ih]
      simp [Function.comp_def]

/-- The end of a placeholder is not found inside of a chain of sealed parts. -/
theorem body?_intercalate {first : String} {parts : List String}
    (hParts : ∀ part ∈ first :: parts, Sealed part.toList) (rest : List Char) :
    body? ((String.intercalate "|" (first :: parts)).toList ++ rest) =
      (body? rest).map fun (body, behind) =>
        ((String.intercalate "|" (first :: parts)).toList ++ body, behind) := by
  induction parts generalizing first with
  | nil =>
      rw [String.intercalate_singleton]
      exact (hParts first (by simp)).body?_append rest
  | cons second parts ih =>
      have hLater : ∀ part ∈ second :: parts, Sealed part.toList :=
        fun part hMem => hParts part (List.mem_cons_of_mem first hMem)
      rw [toList_bar, List.append_assoc, (hParts first (by simp)).body?_append, List.cons_append,
        body?_cons (by decide) (by decide), ih hLater]
      simp [Function.comp_def]

/-- A placeholder at the front of a text is its first piece. -/
theorem pieces_of_atFront? {cs body behind : List Char} (h : atFront? cs = some (body, behind)) :
    pieces cs = .placeholder body :: pieces behind := by
  cases cs with
  | nil => cases h
  | cons c rest =>
      rw [pieces]
      split
      · next found later hFound =>
          rw [h] at hFound
          cases hFound
          rfl
      · next hNone =>
          rw [h] at hNone
          cases hNone

/-- A placeholder of sealed parts is all there is in its text. -/
theorem pieces_placeholder {first : String} {parts : List String}
    (hParts : ∀ part ∈ first :: parts, Sealed part.toList) :
    pieces (Datum.placeholder (String.intercalate "|" (first :: parts))).toList =
      [.placeholder (String.intercalate "|" (first :: parts)).toList] := by
  have hEnd : body? ['\x7d', '\x7d'] = some ([], []) := by
    rw [body?.eq_def]
    rfl
  have hFront : atFront? (Datum.placeholder (String.intercalate "|" (first :: parts))).toList =
      some ((String.intercalate "|" (first :: parts)).toList, []) := by
    rw [Datum.placeholder, Value.wrapped, String.toList_append, String.toList_append,
      List.append_assoc]
    show body? (_ ++ ['\x7d', '\x7d']) = _
    rw [body?_intercalate hParts, hEnd]
    simp
  rw [pieces_of_atFront? hFront, pieces]

/-- What a placeholder of parts asks for: the first part, and the chain of the
others. -/
theorem request_intercalate {first : String} {parts : List String}
    (hParts : ∀ part ∈ first :: parts, ChainPart part) :
    request (String.intercalate "|" (first :: parts)) = ⟨first, String.intercalate "|" parts⟩ := by
  rw [request, split_chain hParts]

end NoteTemplate
