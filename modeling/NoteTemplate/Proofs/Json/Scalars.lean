import Mathlib
import NoteTemplate.Proofs.Value.Integer
import NoteTemplate.Value.Text

/-! Reading back what is written for a text or an integer. Every escape gives its
character, and the digits of an integer are read up to what closes it. -/
namespace NoteTemplate.Value.Json

open Text

theorem hexDigitValue?_hexDigit {n : Nat} (h : n < 16) : hexDigitValue? (hexDigit n) = some n := by
  have hAll : ∀ k < 16, hexDigitValue? (hexDigit k) = some k := by decide
  exact hAll n h

/-- Four hexadecimal digits are read as the number that they write. -/
theorem readHexQuad?_hexQuad {n : Nat} (h : n < 65536) (rest : List Char) :
    readHexQuad? (hexQuad n ++ rest) = some (n, rest) := by
  simp only [hexQuad, List.cons_append, List.nil_append, readHexQuad?]
  rw [hexDigitValue?_hexDigit (by omega), hexDigitValue?_hexDigit (by omega),
    hexDigitValue?_hexDigit (by omega), hexDigitValue?_hexDigit (by omega)]
  simp
  omega

/-- A control character is read back from its code. -/
theorem readUnit?_hexQuad {c : Char} (h : c.toNat < 32) (rest : List Char) :
    readUnit? (hexQuad c.toNat ++ rest) = some (c, rest) := by
  have hSingle : isLeading c.toNat = false := by
    simp only [isLeading, Bool.and_eq_false_iff, decide_eq_false_iff_not]
    omega
  simp [readUnit?, readHexQuad?_hexQuad (show c.toNat < 65536 by omega), hSingle, Char.ofNat_toNat]

/-- A short escape is read as the character that it stands for. -/
theorem readString?_shortEscape (fuel : Nat) {e c : Char} (hLetter : e ≠ 'u')
    (hEscape : shortEscape? e = some c) (rest : List Char) :
    readString? (fuel + 1) ('\\' :: e :: rest) =
      (readString? fuel rest).map fun (text, rest) => (c :: text, rest) := by
  have hFirst : readString? (fuel + 1) ('\\' :: e :: rest) = do
      let unit ← shortEscape? e
      let (text, rest) ← readString? fuel rest
      return (unit :: text, rest) := by
    simp [readString?]
  rw [hFirst, hEscape]
  cases readString? fuel rest <;> rfl

/-- One step of reading takes what is written for one character. -/
theorem readString?_escapeChar (fuel : Nat) (c : Char) (rest : List Char) :
    readString? (fuel + 1) (escapeChar c ++ rest) =
      (readString? fuel rest).map fun (text, rest) => (c :: text, rest) := by
  have hCode {n : Nat} (h : c.toNat = n) : Char.ofNat n = c := by rw [← h, Char.ofNat_toNat]
  rw [escapeChar]
  split_ifs with hQuote hBackslash hNewline hReturn hTab hBackspace hFeed hControl
  · subst hQuote
    exact readString?_shortEscape fuel (by decide) rfl rest
  · subst hBackslash
    exact readString?_shortEscape fuel (by decide) rfl rest
  · subst hNewline
    exact readString?_shortEscape fuel (by decide) rfl rest
  · subst hReturn
    exact readString?_shortEscape fuel (by decide) rfl rest
  · subst hTab
    exact readString?_shortEscape fuel (by decide) rfl rest
  · have hEscape : shortEscape? 'b' = some c := congrArg some (hCode hBackspace)
    exact readString?_shortEscape fuel (by decide) hEscape rest
  · have hEscape : shortEscape? 'f' = some c := congrArg some (hCode hFeed)
    exact readString?_shortEscape fuel (by decide) hEscape rest
  · have hFirst : readString? (fuel + 1) ('\\' :: 'u' :: (hexQuad c.toNat ++ rest)) =
        (readUnit? (hexQuad c.toNat ++ rest)).bind fun unit =>
          (readString? fuel unit.2).bind fun found => some (unit.1 :: found.1, found.2) := by
      simp [readString?]
    rw [List.cons_append, List.cons_append, hFirst, readUnit?_hexQuad hControl, Option.bind_some]
    cases readString? fuel rest <;> rfl
  · simp [readString?, hQuote, hBackslash, hControl]

/-- Every character is written with at least one. -/
theorem length_le_length_escaped (cs : List Char) : cs.length ≤ (cs.flatMap escapeChar).length := by
  induction cs with
  | nil => simp
  | cons c cs ih =>
      have hSome : 0 < (escapeChar c).length := by
        rw [escapeChar]
        split_ifs <;> simp
      rw [List.flatMap_cons, List.length_append, List.length_cons]
      omega

/-- A text is read back up to the quote that closes it. -/
theorem readString?_escaped (cs rest : List Char) {fuel : Nat} (hFuel : cs.length < fuel) :
    readString? fuel (cs.flatMap escapeChar ++ '"' :: rest) = some (cs, rest) := by
  induction cs generalizing fuel with
  | nil =>
      obtain ⟨steps, rfl⟩ := Nat.exists_eq_add_of_lt hFuel
      simp [readString?]
  | cons c cs ih =>
      obtain ⟨steps, rfl⟩ : ∃ steps, fuel = steps + 1 := Nat.exists_eq_succ_of_ne_zero (by omega)
      rw [List.flatMap_cons, List.append_assoc, readString?_escapeChar,
        ih (by rw [List.length_cons] at hFuel; omega)]
      rfl

/-- What follows a number does not belong to it. -/
def Closes (rest : List Char) : Prop := ∀ c ∈ rest.head?, c = ',' ∨ c = ']' ∨ c = '\x7d'

/-- The digits of a positive number do not begin with a zero. -/
theorem head_toDigits {n : Nat} (hPos : 0 < n) : ∀ c ∈ (Nat.toDigits 10 n).head?, c ≠ '0' := by
  induction n using Nat.strongRecOn with
  | _ n ih =>
      intro c hHead
      by_cases hOne : n < 10
      · rw [Nat.toDigits_of_lt_base hOne, List.head?_cons, Option.mem_some_iff] at hHead
        have hAll : ∀ d < 10, 0 < d → Nat.digitChar d ≠ '0' := by decide
        exact hHead ▸ hAll n hOne hPos
      · refine ih (n / 10) (by omega) (by omega) c ?_
        rw [Nat.toDigits_of_base_le (by omega) (by omega)] at hHead
        cases hDigits : Nat.toDigits 10 (n / 10) with
        | nil => exact absurd hDigits Nat.toDigits_ne_nil
        | cons first digits =>
            rw [hDigits] at hHead
            exact hHead

theorem Closes.not_isAsciiDigit {rest : List Char} (h : Closes rest) :
    ∀ c ∈ rest.head?, isAsciiDigit c = false := by
  intro c hHead
  rcases h c hHead with rfl | rfl | rfl <;> rfl

theorem Closes.takeFraction_eq {rest : List Char} (h : Closes rest) : takeFraction rest = none := by
  cases rest with
  | nil => rfl
  | cons c rest => rcases h c rfl with rfl | rfl | rfl <;> rfl

theorem Closes.takeExponent_eq {rest : List Char} (h : Closes rest) : takeExponent rest = none := by
  cases rest with
  | nil => rfl
  | cons c rest => rcases h c rfl with rfl | rfl | rfl <;> rfl

section
variable {digits rest : List Char} (hDigits : ∀ c ∈ digits, isAsciiDigit c = true)
  (hRest : ∀ c ∈ rest.head?, isAsciiDigit c = false)
include hDigits hRest

theorem takeWhile_digits_append : (digits ++ rest).takeWhile isAsciiDigit = digits := by
  rw [List.takeWhile_append_of_pos hDigits]
  cases rest with
  | nil => simp
  | cons c rest => rw [List.takeWhile_cons_of_neg (by simp [hRest c rfl]), List.append_nil]

theorem dropWhile_digits_append : (digits ++ rest).dropWhile isAsciiDigit = rest := by
  rw [List.dropWhile_append_of_pos hDigits]
  exact dropWhile_eq_self hRest

end

theorem isAsciiDigit_of_mem_toDigits {n : Nat} :
    ∀ c ∈ Nat.toDigits 10 n, isAsciiDigit c = true := by
  rw [← List.all_eq_true]
  exact all_isAsciiDigit fun c hc => Nat.isDigit_of_mem_toDigits (by omega) (by omega) hc

/-- Digits that begin with another one than zero. -/
structure Leading (digits : List Char) : Prop where
  all : ∀ c ∈ digits, isAsciiDigit c = true
  first : ∃ first more, digits = first :: more ∧ first ≠ '0'

/-- The digits of a whole number, in which no zero stands before others. -/
def IsWhole (digits : List Char) : Prop := digits = ['0'] ∨ Leading digits

theorem leading_toDigits {n : Nat} (hPos : 0 < n) : Leading (Nat.toDigits 10 n) := by
  refine ⟨isAsciiDigit_of_mem_toDigits, ?_⟩
  cases hDigits : Nat.toDigits 10 n with
  | nil => exact absurd hDigits Nat.toDigits_ne_nil
  | cons first more => exact ⟨first, more, rfl, head_toDigits hPos first (by rw [hDigits]; rfl)⟩

theorem isWhole_toDigits (n : Nat) : IsWhole (Nat.toDigits 10 n) := by
  rcases Nat.eq_zero_or_pos n with rfl | hPos
  · exact .inl (Nat.toDigits_zero 10)
  · exact .inr (leading_toDigits hPos)

/-- A whole number is taken up to what is no digit. -/
theorem takeWhole?_append {whole rest : List Char} (h : IsWhole whole)
    (hRest : ∀ c ∈ rest.head?, isAsciiDigit c = false) :
    takeWhole? (whole ++ rest) = some (whole, rest) := by
  rcases h with rfl | ⟨hAll, first, more, rfl, hFirst⟩
  · rfl
  · rw [List.forall_mem_cons] at hAll
    simp only [List.cons_append, takeWhole?, hFirst, if_false, hAll.1, if_true,
      takeWhile_digits_append hAll.2 hRest, dropWhile_digits_append hAll.2 hRest]

/-- Digits up to what closes them are read as an integer, or not at all when there
are too many. -/
theorem readNumber?_toDigits (negative : Bool) (n : Nat) {rest : List Char} (h : Closes rest) :
    readNumber? negative (Nat.toDigits 10 n ++ rest) =
      if n < Decimal.digitLimit then some (.int (if negative then -n else n), rest) else none := by
  have hLength := length_toDigits_le_maxDigits n
  simp only [readNumber?, takeWhole?_append (isWhole_toDigits n) h.not_isAsciiDigit,
    Option.bind_eq_bind, Option.bind_some, h.takeFraction_eq, h.takeExponent_eq,
    digitsValue_toDigits]
  by_cases hFew : n < Decimal.digitLimit
  · rw [if_pos hFew, if_neg (Nat.not_lt.mpr (hLength.mpr hFew))]
    rfl
  · rw [if_neg hFew, if_pos (Nat.lt_of_not_le fun hShort => hFew (hLength.mp hShort))]

end NoteTemplate.Value.Json
