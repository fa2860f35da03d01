import NoteTemplate.Proofs.Deferred.ParamText

/-! Texts that the search for the end of a placeholder goes past. The search sees
three things in a text: where it stands in quotes, where it stands behind a
closing brace, and where it is over. A placeholder is found as a whole exactly if
the search stands behind its source as it does in front. -/
namespace NoteTemplate

open Placeholder Token

namespace Placeholder

/-- Nothing of a text is lost when a quoted run is taken off its front. -/
theorem eq_of_quotedRun? {quote : Char} {cs run after : List Char}
    (h : quotedRun? quote cs = some (run, after)) : cs = run ++ after := by
  fun_induction quotedRun? quote cs generalizing run with
  | case1 => cases h
  | case2 rest =>
      cases h
      rfl
  | case3 _ e rest ih =>
      simp only [Option.map_eq_some_iff, Prod.exists, Prod.mk.injEq] at h
      obtain ⟨inner, outer, hRun, rfl, rfl⟩ := h
      rw [ih hRun, List.cons_append, List.cons_append]
  | case4 => cases h
  | case5 c rest _ _ ih =>
      simp only [Option.map_eq_some_iff, Prod.exists, Prod.mk.injEq] at h
      obtain ⟨inner, outer, hRun, rfl, rfl⟩ := h
      rw [ih hRun, List.cons_append]

/-- A placeholder that was found consists of its inside and two braces. -/
theorem eq_of_body? {cs body behind : List Char} (h : body? cs = some (body, behind)) :
    cs = body ++ '\x7d' :: '\x7d' :: behind := by
  fun_induction body? cs generalizing body with
  | case1 => cases h
  | case2 after =>
      cases h
      rfl
  | case3 d after _ ih =>
      simp only [Option.map_eq_some_iff, Prod.exists, Prod.mk.injEq] at h
      obtain ⟨inner, outer, hBody, rfl, rfl⟩ := h
      rw [ih hBody, List.cons_append]
  | case4 => cases h
  | case5 c rest _ _ run after hRun _ ih =>
      simp only [Option.map_eq_some_iff, Prod.exists, Prod.mk.injEq] at h
      obtain ⟨inner, outer, hBody, rfl, rfl⟩ := h
      rw [eq_of_quotedRun? hRun, ih hBody, List.cons_append, List.cons_append, List.append_assoc]
  | case6 => cases h
  | case7 c rest _ _ ih =>
      simp only [Option.map_eq_some_iff, Prod.exists, Prod.mk.injEq] at h
      obtain ⟨inner, outer, hBody, rfl, rfl⟩ := h
      rw [ih hBody, List.cons_append]

end Placeholder

/-- Where the search for the end of a placeholder stands. -/
inductive Search where
  | outside
  /-- Outside of quotes, behind a closing brace. -/
  | brace
  | inside (quote : Char)
  /-- Inside of quotes, behind a backslash. -/
  | escape (quote : Char)
  | ended
deriving DecidableEq

namespace Search

/-- The search behind one more character. -/
def next : Search → Char → Search
  | outside, c => if c = '\x7d' then brace else if isQuote c then inside c else outside
  | brace, c => if c = '\x7d' then ended else if isQuote c then inside c else outside
  | inside quote, c =>
    if c = quote then outside else if c = '\\' then escape quote else inside quote
  | escape quote, _ => inside quote
  | ended, _ => ended

/-- The search behind a text. -/
def past (s : Search) (cs : List Char) : Search := cs.foldl next s

@[simp] theorem past_nil (s : Search) : s.past [] = s := rfl

@[simp] theorem past_cons (s : Search) (c : Char) (cs : List Char) :
    s.past (c :: cs) = (s.next c).past cs := rfl

theorem past_append (s : Search) (first second : List Char) :
    s.past (first ++ second) = (s.past first).past second :=
  List.foldl_append

theorem past_ended (cs : List Char) : ended.past cs = ended := by
  induction cs with
  | nil => rfl
  | cons c cs ih => exact ih

theorem next_outside {c : Char} (hBrace : c ≠ '\x7d') (hQuote : isQuote c = false) :
    outside.next c = outside := by
  rw [next, if_neg hBrace, if_neg (by rw [hQuote]; exact Bool.false_ne_true)]

theorem next_quote {c : Char} (hBrace : c ≠ '\x7d') (hQuote : isQuote c = true) :
    outside.next c = inside c := by
  rw [next, if_neg hBrace, if_pos hQuote]

/-- Only behind a second brace it matters that there was a first one. -/
theorem next_brace {c : Char} (hBrace : c ≠ '\x7d') : brace.next c = outside.next c := by
  rw [next, next, if_neg hBrace, if_neg hBrace]

/-- Behind the end of a string the search goes on outside of it. -/
theorem past_inside_of_some {quote : Char} {cs run after : List Char}
    (h : quotedRun? quote cs = some (run, after)) : (inside quote).past cs = outside.past after := by
  fun_induction quotedRun? quote cs generalizing run with
  | case1 => cases h
  | case2 rest =>
      cases h
      rw [past_cons, next, if_pos rfl]
  | case3 e rest hQuote ih =>
      simp only [Option.map_eq_some_iff, Prod.exists, Prod.mk.injEq] at h
      obtain ⟨inner, outer, hRun, -, rfl⟩ := h
      rw [past_cons, next, if_neg hQuote, if_pos rfl, past_cons, next, ih hRun]
  | case4 => cases h
  | case5 c rest hQuote hBackslash ih =>
      simp only [Option.map_eq_some_iff, Prod.exists, Prod.mk.injEq] at h
      obtain ⟨inner, outer, hRun, -, rfl⟩ := h
      rw [past_cons, next, if_neg hQuote, if_neg hBackslash, ih hRun]

/-- A string that does not end keeps the search inside. -/
theorem past_inside_of_none {quote : Char} {cs : List Char} (h : quotedRun? quote cs = none) :
    (inside quote).past cs ≠ outside := by
  fun_induction quotedRun? quote cs with
  | case1 =>
      intro hSame
      cases hSame
  | case2 rest => cases h
  | case3 e rest hQuote ih =>
      rw [Option.map_eq_none_iff] at h
      rw [past_cons, next, if_neg hQuote, if_pos rfl, past_cons, next]
      exact ih h
  | case4 hQuote =>
      rw [past_cons, next, if_neg hQuote, if_pos rfl]
      intro hSame
      cases hSame
  | case5 c rest hQuote hBackslash ih =>
      rw [Option.map_eq_none_iff] at h
      rw [past_cons, next, if_neg hQuote, if_neg hBackslash]
      exact ih h

end Search

open Search

/-- Text that the search for the end of a placeholder goes past: behind it the
search stands outside of quotes, and behind no closing brace. -/
def Whole (cs : List Char) : Prop := outside.past cs = outside

instance (cs : List Char) : Decidable (Whole cs) := inferInstanceAs (Decidable (_ = _))

theorem whole_nil : Whole [] := rfl

theorem Whole.append {first second : List Char} (hFirst : Whole first) (hSecond : Whole second) :
    Whole (first ++ second) := by
  rw [Whole, past_append, hFirst]
  exact hSecond

theorem whole_cons {c : Char} (hBrace : c ≠ '\x7d') (hQuote : isQuote c = false) {cs : List Char} :
    Whole (c :: cs) ↔ Whole cs := by
  rw [Whole, past_cons, next_outside hBrace hQuote, Whole]

theorem whole_of_forall {cs : List Char} (h : ∀ c ∈ cs, c ≠ '\x7d' ∧ isQuote c = false) :
    Whole cs := by
  induction cs with
  | nil => exact whole_nil
  | cons c cs ih =>
      obtain ⟨⟨hBrace, hQuote⟩, hRest⟩ := List.forall_mem_cons.mp h
      exact (whole_cons hBrace hQuote).mpr (ih hRest)

/-- A quoted run that has ended is not changed by what follows. -/
theorem quotedRun?_append {quote : Char} {cs run after : List Char}
    (h : quotedRun? quote cs = some (run, after)) (rest : List Char) :
    quotedRun? quote (cs ++ rest) = some (run, after ++ rest) := by
  fun_induction quotedRun? quote cs generalizing run with
  | case1 => cases h
  | case2 later =>
      cases h
      rw [List.cons_append, quotedRun?.eq_def]
      simp
  | case3 e later hQuote ih =>
      simp only [Option.map_eq_some_iff, Prod.exists, Prod.mk.injEq] at h
      obtain ⟨inner, outer, hRun, rfl, rfl⟩ := h
      rw [List.cons_append, List.cons_append, quotedRun?.eq_def]
      simp [hQuote, ih hRun]
  | case4 => cases h
  | case5 c later hQuote hBackslash ih =>
      simp only [Option.map_eq_some_iff, Prod.exists, Prod.mk.injEq] at h
      obtain ⟨inner, outer, hRun, rfl, rfl⟩ := h
      rw [List.cons_append, quotedRun?.eq_def]
      simp [hQuote, hBackslash, ih hRun]

/-- The inside of a placeholder goes on behind a string. -/
theorem body?_string {c : Char} (hBrace : c ≠ '\x7d') (hQuote : isQuote c = true)
    {cs run after : List Char} (h : quotedRun? c cs = some (run, after)) :
    body? (c :: cs) = (body? after).map fun (body, behind) => (c :: run ++ body, behind) := by
  rw [body?.eq_def]
  simp only [if_neg hBrace, if_pos hQuote]
  split
  · next hFound =>
    rw [h] at hFound
    cases hFound
    rfl
  · next hNone =>
    rw [h] at hNone
    cases hNone

/-- The search goes past such a text, whatever follows. -/
theorem Whole.body?_append {cs : List Char} (h : Whole cs) (rest : List Char) :
    body? (cs ++ rest) = (body? rest).map fun (body, behind) => (cs ++ body, behind) := by
  induction cs using body?.induct with
  | case1 => simp
  | case2 after =>
      have hOver : Search.past .ended after = outside := h
      rw [past_ended] at hOver
      cases hOver
  | case3 d after hBrace ih =>
      have hInner : Whole (d :: after) := by
        rw [Whole, past_cons, ← next_brace hBrace]
        exact h
      rw [List.cons_append, List.cons_append, body?.eq_def]
      simp only [if_true, if_neg hBrace]
      rw [← List.cons_append, ih hInner]
      simp [Function.comp_def]
  | case4 => cases h
  | case5 c after hBrace hQuote run later hRun hShorter ih =>
      rw [Whole, past_cons, next_quote hBrace hQuote, past_inside_of_some hRun] at h
      rw [List.cons_append, body?_string hBrace hQuote (quotedRun?_append hRun rest), ih h]
      simp [eq_of_quotedRun? hRun, Function.comp_def]
  | case6 c after hBrace hQuote hNone =>
      rw [Whole, past_cons, next_quote hBrace hQuote] at h
      exact absurd h (past_inside_of_none hNone)
  | case7 c after hBrace hQuote ih =>
      rw [Bool.not_eq_true] at hQuote
      rw [List.cons_append, body?_cons hBrace hQuote, ih ((whole_cons hBrace hQuote).mp h)]
      simp [Function.comp_def]

/-- The rest of a string is one by itself. -/
theorem quotedRun?_alone {quote : Char} {cs run after : List Char}
    (h : quotedRun? quote cs = some (run, after)) : quotedRun? quote run = some (run, []) := by
  fun_induction quotedRun? quote cs generalizing run with
  | case1 => cases h
  | case2 later =>
      cases h
      rw [quotedRun?.eq_def]
      simp
  | case3 e later hQuote ih =>
      simp only [Option.map_eq_some_iff, Prod.exists, Prod.mk.injEq] at h
      obtain ⟨inner, outer, hRun, rfl, rfl⟩ := h
      rw [quotedRun?.eq_def]
      simp [hQuote, ih hRun]
  | case4 => cases h
  | case5 c later hQuote hBackslash ih =>
      simp only [Option.map_eq_some_iff, Prod.exists, Prod.mk.injEq] at h
      obtain ⟨inner, outer, hRun, rfl, rfl⟩ := h
      rw [quotedRun?.eq_def]
      simp [hQuote, hBackslash, ih hRun]

/-- What the search finds is such a text. -/
theorem whole_of_body? {cs body behind : List Char} (h : body? cs = some (body, behind)) :
    Whole body := by
  fun_induction body? cs generalizing body with
  | case1 => cases h
  | case2 after =>
      cases h
      exact whole_nil
  | case3 d after hBrace ih =>
      simp only [Option.map_eq_some_iff, Prod.exists, Prod.mk.injEq] at h
      obtain ⟨inner, outer, hBody, rfl, rfl⟩ := h
      -- What follows the brace begins with another character.
      cases inner with
      | nil => exact absurd (List.cons.inj (eq_of_body? hBody)).1 hBrace
      | cons e inner =>
          obtain rfl : d = e := (List.cons.inj (eq_of_body? hBody)).1
          show (Search.brace.next d).past inner = outside
          rw [next_brace hBrace]
          exact ih hBody
  | case4 => cases h
  | case5 c rest hBrace hQuote run after hRun _ ih =>
      simp only [Option.map_eq_some_iff, Prod.exists, Prod.mk.injEq] at h
      obtain ⟨inner, outer, hBody, rfl, rfl⟩ := h
      have hString := quotedRun?_append (quotedRun?_alone hRun) inner
      rw [List.cons_append, Whole, past_cons, next_quote hBrace hQuote,
        past_inside_of_some hString]
      exact ih hBody
  | case6 => cases h
  | case7 c rest hBrace hQuote ih =>
      simp only [Option.map_eq_some_iff, Prod.exists, Prod.mk.injEq] at h
      obtain ⟨inner, outer, hBody, rfl, rfl⟩ := h
      exact (whole_cons hBrace (Bool.not_eq_true _ ▸ hQuote)).mpr (ih hBody)

theorem toList_placeholder (source : String) (rest : List Char) :
    (Datum.placeholder source).toList ++ rest =
      '\x7b' :: '\x7b' :: (source.toList ++ '\x7d' :: '\x7d' :: rest) := by
  simp [Datum.placeholder, Value.wrapped]

/-- A placeholder is found as a whole exactly if its source is a text that the
search goes past. -/
theorem atFront?_placeholder_iff (source : String) (rest : List Char) :
    atFront? ((Datum.placeholder source).toList ++ rest) = some (source.toList, rest) ↔
      Whole source.toList := by
  rw [toList_placeholder, atFront?]
  constructor
  · exact whole_of_body?
  · intro h
    have hEnd : body? ('\x7d' :: '\x7d' :: rest) = some ([], rest) := by
      rw [body?.eq_def]
      rfl
    rw [h.body?_append, hEnd]
    simp

/-! Texts of which placeholders are made. -/

theorem Sealed.whole {cs : List Char} (h : Sealed cs) : Whole cs := by
  have hEnd : body? ['\x7d', '\x7d'] = some ([], []) := by
    rw [body?.eq_def]
    rfl
  have hBody := h.body?_append ['\x7d', '\x7d']
  rw [hEnd] at hBody
  exact List.append_nil cs ▸ whole_of_body? hBody

theorem Whole.append_text {s t : String} (hFirst : Whole s.toList) (hSecond : Whole t.toList) :
    Whole (s ++ t).toList := by
  rw [String.toList_append]
  exact hFirst.append hSecond

/-- Whole texts can be put in a row. -/
theorem whole_join {parts : List String} (h : ∀ part ∈ parts, Whole part.toList) :
    Whole (String.join parts).toList := by
  induction parts with
  | nil => exact whole_nil
  | cons part rest ih =>
      obtain ⟨hPart, hRest⟩ := List.forall_mem_cons.mp h
      rw [String.join_cons]
      exact hPart.append_text (ih hRest)

/-- Whole texts can be put in a row with a whole separator. -/
theorem whole_intercalate {separator : String} (hSeparator : Whole separator.toList)
    {parts : List String} (h : ∀ part ∈ parts, Whole part.toList) :
    Whole (String.intercalate separator parts).toList := by
  induction parts with
  | nil => exact whole_nil
  | cons part rest ih =>
      obtain ⟨hPart, hRest⟩ := List.forall_mem_cons.mp h
      cases rest with
      | nil => rwa [String.intercalate_singleton]
      | cons next rest =>
          rw [String.intercalate_cons_cons]
          exact (hPart.append_text hSeparator).append_text (ih hRest)

theorem whole_separator (separator : Separator) : Whole separator.text.toList :=
  (fragment_separator separator).closed.whole

/-- Whole arguments stay whole with their separators between them. -/
theorem whole_interleave (separators : List Separator) {parts : List String}
    (h : ∀ part ∈ parts, Whole part.toList) : Whole (interleave separators parts).toList := by
  cases parts with
  | nil => exact whole_nil
  | cons part rest =>
      obtain ⟨hPart, hRest⟩ := List.forall_mem_cons.mp h
      refine hPart.append_text (whole_join fun text hMem => ?_)
      obtain ⟨⟨separator, later⟩, hPair, rfl⟩ := List.mem_map.mp hMem
      exact (whole_separator separator).append_text (hRest later (List.of_mem_zip hPair).2)

/-- The arguments of a filter, in either of their forms. -/
theorem whole_layoutArgs (separators : List Separator) (parenthesized : Bool) {parts : List String}
    (h : ∀ part ∈ parts, Whole part.toList) :
    Whole (layoutArgs separators parenthesized parts).toList := by
  cases parenthesized with
  | false => exact whole_interleave separators h
  | true =>
      have hOpen : Whole "(".toList := by decide
      have hClose : Whole ")".toList := by decide
      have hComma : Whole ", ".toList := by decide
      exact (hOpen.append_text (whole_intercalate hComma h)).append_text hClose

theorem hexDigit_ne {n : Nat} (h : n < 16) :
    Value.Json.hexDigit n ≠ '"' ∧ Value.Json.hexDigit n ≠ '\\' := by
  have hAll : ∀ d : Fin 16, Value.Json.hexDigit d ≠ '"' ∧ Value.Json.hexDigit d ≠ '\\' := by decide
  exact hAll ⟨n, h⟩

/-- An escaped character of a JSON string does not end the string. -/
theorem past_escapeChar (c : Char) :
    (Search.inside '"').past (Value.Json.escapeChar c) = .inside '"' := by
  have hPlain {d : Char} (hQuote : d ≠ '"') (hBackslash : d ≠ '\\') :
      (Search.inside '"').next d = .inside '"' := by
    rw [Search.next, if_neg hQuote, if_neg hBackslash]
  have hDigit (n : Nat) : (Search.inside '"').next (Value.Json.hexDigit (n % 16)) = .inside '"' :=
    have hNe := hexDigit_ne (Nat.mod_lt n (by omega : 16 > 0))
    hPlain hNe.1 hNe.2
  rw [Value.Json.escapeChar]
  split
  · rfl
  · next hQuote =>
    split
    · rfl
    · next hBackslash =>
      repeat (split; · rfl)
      split
      · show (Search.inside '"').past (Value.Json.hexQuad c.toNat) = _
        simp only [Value.Json.hexQuad, past_cons, past_nil, hDigit]
      · rw [past_cons, hPlain hQuote hBackslash, past_nil]

/-- A text in a JSON text. -/
theorem whole_quoted (cs : List Char) : Whole (Value.Json.quoted cs) := by
  have hInside : (Search.inside '"').past (cs.flatMap Value.Json.escapeChar) = .inside '"' := by
    induction cs with
    | nil => rfl
    | cons c cs ih => rw [List.flatMap_cons, past_append, past_escapeChar, ih]
  show (Search.inside '"').past (cs.flatMap Value.Json.escapeChar ++ ['"']) = outside
  rw [past_append, hInside]
  rfl

/-- Whole JSON texts can be put in a row with a whole separator. -/
theorem whole_separated {texts : List (List Char)} {separator : List Char}
    (hSeparator : Whole separator) (h : ∀ text ∈ texts, Whole text) :
    Whole (Value.Json.separated separator texts) := by
  induction texts with
  | nil => exact whole_nil
  | cons text rest ih =>
      obtain ⟨hText, hRest⟩ := List.forall_mem_cons.mp h
      cases rest with
      | nil => exact hText
      | cons next rest => exact (hText.append hSeparator).append (ih hRest)

mutual

/-- Whether a value is an object or has one in it. -/
def Value.hasObject : Value → Bool
  | .arr items => anyObject items
  | .obj _ => true
  | _ => false

/-- The same for the items of an array. -/
def Value.anyObject : List Value → Bool
  | [] => false
  | item :: rest => hasObject item || anyObject rest

end

theorem Numeric.whole {s : String} (h : Numeric s) : Whole s.toList := h.fragment.closed.whole

mutual

/-- The JSON text of a value without objects. -/
theorem whole_write : ∀ v : Value, v.hasObject = false → Whole (Value.Json.write Value.Json.compact v)
  | .null, _ => by
      rw [Value.Json.write]
      decide
  | .bool b, _ => by
      rw [Value.Json.write]
      cases b <;> decide
  | .int n, _ => by
      rw [Value.Json.write]
      exact (numeric_intText n).whole
  | .float x, _ => by
      rw [Value.Json.write]
      exact (numeric_decimal (numeric_literal rfl) (numeric_literal rfl) x).whole
  | .str s, _ => by
      rw [Value.Json.write]
      exact whole_quoted s.toList
  | .arr items, h => by
      rw [Value.Json.write]
      have hComma : Whole Value.Json.compact.comma.toList := by decide
      have hItems := whole_separated hComma (whole_writeItems items h)
      exact (whole_cons (by decide) (by decide)).mpr (hItems.append (by decide))
  | .obj fields, h => by cases h

theorem whole_writeItems : ∀ items : List Value, Value.anyObject items = false →
    ∀ text ∈ Value.Json.writeItems Value.Json.compact items, Whole text
  | [], _ => by simp [Value.Json.writeItems]
  | item :: rest, h => by
      rw [Value.anyObject, Bool.or_eq_false_iff] at h
      rw [Value.Json.writeItems]
      exact List.forall_mem_cons.mpr ⟨whole_write item h.1, whole_writeItems rest h.2⟩

end

/-- An argument without objects, as it is written in a parameter text. -/
theorem whole_paramText {v : Value} (h : v.hasObject = false) : Whole v.paramText.toList := by
  cases v with
  | arr items =>
      show Whole (String.ofList (Value.Json.write Value.Json.compact (.arr items))).toList
      rw [String.toList_ofList]
      exact whole_write _ h
  | obj fields => cases h
  | null => exact (fragment_paramText rfl).closed.whole
  | bool b => exact (fragment_paramText rfl).closed.whole
  | int n => exact (fragment_paramText rfl).closed.whole
  | float x => exact (fragment_paramText rfl).closed.whole
  | str s => exact (fragment_paramText rfl).closed.whole

end NoteTemplate
