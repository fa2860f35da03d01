import NoteTemplate.Expr.OfTokens
import NoteTemplate.Proofs.Text.Solid

/-! An integer and the digits it is written with. Reading the digits gives the
integer back, unless there are too many of them. -/
namespace NoteTemplate.Value

open Text

/-- An integer is written as its sign, if it is negative, and its digits. -/
theorem intText_toList (n : Int) : (Value.text (.int n)).toList =
    (if n < 0 then ['-'] else []) ++ Nat.toDigits 10 n.natAbs := by
  simp only [Value.text, Value.Json.intText]
  split <;> simp

theorem trimBy_of_forall {p : Char → Bool} {cs : List Char} (h : ∀ c ∈ cs, p c = false) :
    trimBy p cs = cs := by
  have hFront : cs.dropWhile p = cs := dropWhile_eq_self fun c hHead => h c (List.mem_of_head? hHead)
  have hBack : cs.reverse.dropWhile p = cs.reverse :=
    dropWhile_eq_self fun c hHead => h c (List.mem_reverse.mp (List.mem_of_head? hHead))
  rw [trimBy, trimEndBy, trimStartBy, hFront, hBack, List.reverse_reverse]

/-- An integer is written with digits and a minus. -/
theorem mem_intText {n : Int} {c : Char} (h : c ∈ (Value.text (.int n)).toList) :
    c = '-' ∨ c.isDigit = true := by
  rw [intText_toList] at h
  rcases List.mem_append.mp h with hSign | hDigit
  · left
    split at hSign
    · simpa using hSign
    · cases hSign
  · exact .inr (Nat.isDigit_of_mem_toDigits (by omega) (by omega) hDigit)

theorem isDigit_toNat {c : Char} (h : c.isDigit = true) : 48 ≤ c.toNat ∧ c.toNat ≤ 57 := by
  simp only [Char.isDigit, Bool.and_eq_true, decide_eq_true_eq] at h
  exact h

/-- Digits and a minus are the same in every form. -/
theorem normalForm_of_forall {s : String} (h : ∀ c ∈ s.toList, c = '-' ∨ c.isDigit = true) :
    Decimal.normalForm s = s.toList := by
  have hAscii : ∀ c ∈ s.toList, Decimal.asciiForm c = c := by
    intro c hc
    rcases h c hc with rfl | hDigit
    · rfl
    · have hRange := isDigit_toNat hDigit
      rw [Decimal.asciiForm, if_pos (by omega)]
  rw [Decimal.normalForm, List.map_congr_left hAscii, List.map_id']
  refine trimBy_of_forall fun c hc => ?_
  rcases h c hc with rfl | hDigit
  · rfl
  · have hRange := isDigit_toNat hDigit
    have hSpace : c ≠ ' ' := by
      rintro rfl
      cases hDigit
    simp [Decimal.isAsciiSpace, hSpace]
    omega

/-- There are no underscores to drop between digits alone. -/
theorem dropUnderscores_digits (previous : Bool) {cs : List Char} (h : ∀ c ∈ cs, c.isDigit = true) :
    Decimal.dropUnderscores previous cs = some cs := by
  induction cs generalizing previous with
  | nil => rfl
  | cons c cs ih =>
      have hNe : c ≠ '_' := by
        rintro rfl
        exact absurd (h '_' (by simp)) (by decide)
      rw [Decimal.dropUnderscores.eq_4 _ _ _ (by simp [hNe]) (by simp [hNe]),
        ih _ fun d hd => h d (by simp [hd])]
      rfl

/-- The digits of a number write the number. -/
theorem digitsValue_toDigits (n : Nat) : digitsValue (Nat.toDigits 10 n) = n := by
  have hFold (cs : List Char) (h : ∀ c ∈ cs, c.isDigit = true) (start : Nat) :
      cs.foldl (fun total c => total * 10 + (digitValue? c).getD 0) start =
        Nat.ofDigitChars 10 cs start := by
    induction cs generalizing start with
    | nil => rfl
    | cons c cs ih =>
        have hRange := isDigit_toNat (h c (by simp))
        have hValue : (digitValue? c).getD 0 = c.toNat - '0'.toNat := by
          simp [digitValue?, hRange, show c.toNat < 128 by omega]
        rw [List.foldl_cons, ih (fun d hd => h d (by simp [hd])), Nat.ofDigitChars_cons, hValue,
          Nat.mul_comm]
  rw [digitsValue, hFold _ fun c hc => Nat.isDigit_of_mem_toDigits (by omega) (by omega) hc]
  exact Nat.ofDigitChars_ten_toDigits

/-- Digits have no sign in front of them. -/
theorem takeSign_digits {cs : List Char} (h : ∀ c ∈ cs, c.isDigit = true) :
    Decimal.takeSign cs = (false, cs) := by
  rw [Decimal.takeSign.eq_def]
  split
  · exact absurd (h '-' (by simp)) (by decide)
  · exact absurd (h '+' (by simp)) (by decide)
  · rfl

/-- The digits of a number are digits of ASCII. -/
theorem all_isAsciiDigit {cs : List Char} (h : ∀ c ∈ cs, c.isDigit = true) :
    cs.all isAsciiDigit = true := by
  rw [List.all_eq_true]
  intro c hc
  have hRange := h c hc
  simp only [Char.isDigit, Bool.and_eq_true, decide_eq_true_eq] at hRange
  rw [isAsciiDigit, Bool.and_eq_true, decide_eq_true_eq, decide_eq_true_eq]
  exact hRange

theorem isNumeralPart_of_digits {cs : List Char} (h : ∀ c ∈ cs, c.isDigit = true) :
    ∀ c ∈ cs, Decimal.isNumeralPart c = true := by
  intro c hc
  rw [Decimal.isNumeralPart, List.all_eq_true.mp (all_isAsciiDigit h) c hc, Bool.true_or]

/-- Behind the sign there are only digits: they are read if they are not too many. -/
theorem readInt_of_takeSign {s : String} {negative : Bool} {digits : List Char}
    (hNormal : Decimal.takeSign (Decimal.normalForm s) = (negative, digits)) (hSome : digits ≠ [])
    (h : ∀ c ∈ digits, c.isDigit = true) :
    Decimal.readInt s =
      if Decimal.maxDigits < digits.length then .error (.numeralTooLong digits.length)
      else .ok (if negative then -(digitsValue digits : Int) else digitsValue digits) := by
  have hParts := isNumeralPart_of_digits h
  have hFront : (digits ++ []).takeWhile Decimal.isNumeralPart = digits ++ [] :=
    List.takeWhile_append_of_pos hParts
  rw [List.append_nil] at hFront
  rw [Decimal.readInt, hNormal]
  simp only [hFront, dropUnderscores_digits false h, if_neg hSome, List.all_eq_true.mpr hParts, if_true]

/-- Digits are read as the number that they write, if they are not too many. -/
theorem readInt_digits {s : String} (hSome : s ≠ "") (h : ∀ c ∈ s.toList, c.isDigit = true) :
    Decimal.readInt s =
      if Decimal.maxDigits < s.length then .error (.numeralTooLong s.length)
      else .ok (digitsValue s.toList : Int) := by
  have hNormal : Decimal.takeSign (Decimal.normalForm s) = (false, s.toList) := by
    rw [normalForm_of_forall fun c hc => .inr (h c hc), takeSign_digits h]
  exact readInt_of_takeSign hNormal (fun hNil => hSome (String.toList_eq_nil_iff.mp hNil)) h

/-- A number has few enough digits if it is below the limit. -/
theorem length_toDigits_le_maxDigits (n : Nat) :
    (Nat.toDigits 10 n).length ≤ Decimal.maxDigits ↔ n < Decimal.digitLimit := by
  have hBelow {k : Nat} (hSome : 0 < k) : (Nat.toDigits 10 n).length ≤ k ↔ n < Nat.pow 10 k :=
    Nat.length_toDigits_le_iff (by decide) hSome
  unfold Decimal.digitLimit
  exact hBelow (by decide)

/-- An integer is read back from its digits, if they are not too many. -/
theorem readInt_intText (n : Int) :
    Decimal.readInt (Value.text (.int n)) =
      if n.natAbs < Decimal.digitLimit then .ok n
      else .error (.numeralTooLong (Nat.toDigits 10 n.natAbs).length) := by
  have hDigits : ∀ c ∈ Nat.toDigits 10 n.natAbs, c.isDigit = true := fun c hc =>
    Nat.isDigit_of_mem_toDigits (by omega) (by omega) hc
  have hSign : Decimal.takeSign (Decimal.normalForm (Value.text (.int n))) =
      (decide (n < 0), Nat.toDigits 10 n.natAbs) := by
    rw [normalForm_of_forall fun c hc => mem_intText hc, intText_toList]
    by_cases hNegative : n < 0
    · simp [hNegative, Decimal.takeSign]
    · simp only [hNegative, if_false, List.nil_append, decide_false]
      exact takeSign_digits hDigits
  have hLength := length_toDigits_le_maxDigits n.natAbs
  rw [readInt_of_takeSign hSign Nat.toDigits_ne_nil hDigits, digitsValue_toDigits]
  by_cases hFew : n.natAbs < Decimal.digitLimit
  · rw [if_neg (Nat.not_lt.mpr (hLength.mpr hFew)), if_pos hFew]
    simp only [decide_eq_true_eq]
    split <;> exact congrArg Except.ok (by omega)
  · rw [if_pos (Nat.lt_of_not_le fun hShort => hFew (hLength.mp hShort)), if_neg hFew]

end NoteTemplate.Value
