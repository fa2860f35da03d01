import NoteTemplate.Proofs.Decimal.Bits
import NoteTemplate.Proofs.Json.ReadBack

/-! The texts of floating-point numbers. Whatever layout a decimal is written in, it is
read as a decimal with the same value, and the shortest digits of a number are read as
this number. So a value is found again in its JSON text, whatever numbers are in it. -/
namespace NoteTemplate.Value.Json

open Text Decimal

/-- Digits in front count as many times as the ones behind them can say. -/
theorem digitsValue_append (front back : List Char) :
    digitsValue (front ++ back) = digitsValue front * 10 ^ back.length + digitsValue back := by
  induction back using List.reverseRecOn with
  | nil => simp [digitsValue]
  | append_singleton back c ih =>
      have hLast (digits : List Char) :
          digitsValue (digits ++ [c]) = digitsValue digits * 10 + (digitValue? c).getD 0 := by
        simp [digitsValue]
      rw [← List.append_assoc, hLast, hLast, ih, List.length_append, List.length_singleton,
        pow_succ]
      ring

theorem digitsValue_zeros (k : ℕ) : digitsValue (List.replicate k '0') = 0 := by
  induction k with
  | zero => rfl
  | succ k ih =>
      have hZero : digitsValue ['0'] = 0 := rfl
      rw [List.replicate_succ', digitsValue_append, ih, hZero, Nat.zero_mul]

theorem isAsciiDigit_of_mem_zeros {k : ℕ} {c : Char} (h : c ∈ List.replicate k '0') :
    isAsciiDigit c = true := by
  rw [List.eq_of_mem_replicate h]
  rfl

/-- A number without a leading zero keeps it so when zeros are dropped behind it. -/
theorem Leading.of_append_zeros {digits kept : List Char} (h : Leading digits) {zeros : ℕ}
    (hSplit : digits = kept ++ List.replicate zeros '0') : Leading kept := by
  obtain ⟨first, more, hDigits, hFirst⟩ := h.first
  rw [hSplit] at hDigits
  refine ⟨fun c hMem => h.all c ?_, ?_⟩
  · rw [hSplit]
    exact List.mem_append_left _ hMem
  · cases kept with
    | nil =>
        have hMem : first ∈ List.replicate zeros '0' := by
          rw [List.nil_append] at hDigits
          rw [hDigits]
          exact List.mem_cons_self
        exact absurd (List.eq_of_mem_replicate hMem) hFirst
    | cons c rest => exact ⟨c, rest, rfl, (List.cons.inj hDigits).1 ▸ hFirst⟩

/-- The digits of a number without the zeros behind them. -/
theorem exists_kept {n : ℕ} (hZero : n ≠ 0) : ∃ (kept : List Char) (zeros : ℕ),
    ((Nat.repr n).toList.reverse.dropWhile (· == '0')).reverse = kept ∧ Leading kept ∧
      (Nat.repr n).toList.length = kept.length + zeros ∧ n = digitsValue kept * 10 ^ zeros := by
  have hDigits : (Nat.repr n).toList = Nat.toDigits 10 n := by simp
  have hLeading := leading_toDigits (Nat.pos_of_ne_zero hZero)
  rw [hDigits]
  set zeros := (Nat.toDigits 10 n).reverse.takeWhile (· == '0') with hZeros
  set kept := (Nat.toDigits 10 n).reverse.dropWhile (· == '0') with hKept
  have hAll : zeros = List.replicate zeros.length '0' :=
    List.eq_replicate_of_mem fun c hMem => by simpa using List.mem_takeWhile_imp hMem
  have hSplit : Nat.toDigits 10 n = kept.reverse ++ List.replicate zeros.length '0' := by
    rw [← List.reverse_reverse (Nat.toDigits 10 n),
      ← List.takeWhile_append_dropWhile (p := (· == '0')) (l := (Nat.toDigits 10 n).reverse),
      List.reverse_append, ← hZeros, ← hKept]
    conv_lhs => rw [hAll]
    rw [List.reverse_replicate]
  refine ⟨_, zeros.length, rfl, hLeading.of_append_zeros hSplit, ?_, ?_⟩
  · rw [hSplit, List.length_append, List.length_replicate]
  · have hRead := digitsValue_toDigits n
    rw [hSplit, digitsValue_append, digitsValue_zeros, List.length_replicate,
      Nat.add_zero] at hRead
    exact hRead.symm

/-- An exponent with its sign. -/
def exponentText (e : ℤ) : List Char :=
  'e' :: (if e < 0 then '-' else '+') :: (padLeft 2 (Nat.repr e.natAbs)).toList

/-- The digits of an exponent. -/
theorem padLeft_repr (width n : ℕ) :
    (∀ c ∈ (padLeft width (Nat.repr n)).toList, isAsciiDigit c = true) ∧
      (padLeft width (Nat.repr n)).toList ≠ [] ∧
      digitsValue (padLeft width (Nat.repr n)).toList = n := by
  have hText : (padLeft width (Nat.repr n)).toList =
      List.replicate (width - (Nat.repr n).length) '0' ++ Nat.toDigits 10 n := by
    simp [padLeft]
  rw [hText]
  refine ⟨fun c hMem => ?_, fun hNil => ?_, ?_⟩
  · rcases List.mem_append.mp hMem with hZero | hDigit
    · exact isAsciiDigit_of_mem_zeros hZero
    · exact isAsciiDigit_of_mem_toDigits c hDigit
  · exact Nat.toDigits_ne_nil (List.append_eq_nil_iff.mp hNil).2
  · rw [digitsValue_append, digitsValue_zeros, digitsValue_toDigits, Nat.zero_mul, Nat.zero_add]

/-- An exponent is read up to what closes it. -/
theorem takeExponent_exponentText (e : ℤ) {rest : List Char} (h : Closes rest) :
    takeExponent (exponentText e ++ rest) = some (e, rest) := by
  obtain ⟨hDigits, hSome, hValue⟩ := padLeft_repr 2 e.natAbs
  have hTake := takeWhile_digits_append hDigits h.not_isAsciiDigit
  have hDrop := dropWhile_digits_append hDigits h.not_isAsciiDigit
  by_cases hNegative : e < 0
  · simp [exponentText, takeExponent, takeSign, hNegative, hTake, hDrop, hSome, hValue,
      abs_of_neg hNegative]
  · have hPositive : 0 ≤ e := not_lt.mp hNegative
    simp [exponentText, takeExponent, takeSign, hNegative, hTake, hDrop, hSome, hValue, hPositive]

/-- A text that is read as a decimal, up to what closes it. -/
structure Writes (cs : List Char) (n : ℕ) (e : ℤ) : Prop where
  begins : ∃ first more, cs = first :: more ∧ isAsciiDigit first = true
  reads : ∀ negative rest, Closes rest → readNumber? negative (cs ++ rest) =
    some (.float (Decimal.ofScientific negative n e), rest)

theorem IsWhole.begins {whole : List Char} (h : IsWhole whole) (behind : List Char) :
    ∃ first more, whole ++ behind = first :: more ∧ isAsciiDigit first = true := by
  rcases h with rfl | ⟨hAll, first, more, rfl, -⟩
  · exact ⟨'0', behind, rfl, rfl⟩
  · exact ⟨first, more ++ behind, rfl, hAll first List.mem_cons_self⟩

section
variable {whole fraction : List Char} (hWhole : IsWhole whole)
  (hFraction : ∀ c ∈ fraction, isAsciiDigit c = true) (hSome : fraction ≠ [])
include hWhole

/-- A whole number with an exponent is read as the float that it writes. -/
theorem readNumber?_exponent (negative : Bool) {behind rest : List Char} {e : ℤ}
    (hMark : ∃ more, behind = 'e' :: more) (hExponent : takeExponent behind = some (e, rest)) :
    readNumber? negative (whole ++ behind) =
      some (.float (Decimal.ofScientific negative (digitsValue whole) e), rest) := by
  obtain ⟨more, rfl⟩ := hMark
  have hEnds : ∀ c ∈ ('e' :: more).head?, isAsciiDigit c = false := by simp [isAsciiDigit]
  simp only [readNumber?, takeWhole?_append hWhole hEnds, Option.bind_eq_bind, Option.bind_some,
    takeFraction, hExponent, Parts.toFloat, List.append_nil, List.length_nil]
  simp

theorem writes_exponent (e : ℤ) : Writes (whole ++ exponentText e) (digitsValue whole) e := by
  refine ⟨hWhole.begins _, fun negative rest h => ?_⟩
  rw [List.append_assoc]
  exact readNumber?_exponent hWhole negative ⟨_, rfl⟩ (takeExponent_exponentText e h)

include hFraction hSome

/-- A fraction, with or without an exponent, is read as the float that it writes. -/
theorem readNumber?_fraction (negative : Bool) {behind rest : List Char} {e : ℤ}
    (hEnds : ∀ c ∈ behind.head?, isAsciiDigit c = false)
    (hExponent : (takeExponent behind).getD (0, behind) = (e, rest)) :
    readNumber? negative (whole ++ '.' :: (fraction ++ behind)) =
      some (.float (Decimal.ofScientific negative (digitsValue (whole ++ fraction))
        (e - fraction.length)), rest) := by
  have hPoint : ∀ c ∈ ('.' :: (fraction ++ behind)).head?, isAsciiDigit c = false := by
    simp [isAsciiDigit]
  simp only [readNumber?, takeWhole?_append hWhole hPoint, Option.bind_eq_bind, Option.bind_some,
    takeFraction, takeWhile_digits_append hFraction hEnds, dropWhile_digits_append hFraction hEnds,
    hSome, if_false, hExponent, Parts.toFloat]
  rfl

/-- A fraction writes its digits, shifted by as many places as stand behind the point.
-/
theorem writes_fraction : Writes (whole ++ '.' :: fraction) (digitsValue (whole ++ fraction))
    (-fraction.length) := by
  refine ⟨hWhole.begins _, fun negative rest h => ?_⟩
  have hNone : (takeExponent rest).getD (0, rest) = (0, rest) := by
    rw [h.takeExponent_eq]
    rfl
  rw [List.append_assoc, List.cons_append, readNumber?_fraction hWhole hFraction hSome negative
    h.not_isAsciiDigit hNone, zero_sub]

/-- An exponent shifts a fraction further. -/
theorem writes_fraction_exponent (e : ℤ) : Writes (whole ++ '.' :: fraction ++ exponentText e)
    (digitsValue (whole ++ fraction)) (e - fraction.length) := by
  have hBegins := hWhole.begins ('.' :: fraction ++ exponentText e)
  rw [← List.append_assoc] at hBegins
  refine ⟨hBegins, fun negative rest h => ?_⟩
  have hEnds : ∀ c ∈ (exponentText e ++ rest).head?, isAsciiDigit c = false := by
    simp [exponentText, isAsciiDigit]
  have hExponent : (takeExponent (exponentText e ++ rest)).getD (0, exponentText e ++ rest) =
      (e, rest) := by
    rw [takeExponent_exponentText e h]
    rfl
  rw [List.append_assoc, List.append_assoc, List.cons_append,
    readNumber?_fraction hWhole hFraction hSome negative hEnds hExponent]

end

/-- A text that is read as a decimal with a value. -/
def Denotes (cs : List Char) (x : ℚ) : Prop :=
  ∃ n e, Writes cs n e ∧ n ≠ 0 ∧ (n : ℚ) * 10 ^ e = x

theorem Leading.length_pos {kept : List Char} (h : Leading kept) : 0 < kept.length := by
  obtain ⟨first, more, rfl, -⟩ := h.first
  exact Nat.succ_pos _

theorem Leading.append {kept : List Char} (h : Leading kept) {behind : List Char}
    (hBehind : ∀ c ∈ behind, isAsciiDigit c = true) : Leading (kept ++ behind) := by
  obtain ⟨first, more, rfl, hFirst⟩ := h.first
  refine ⟨fun c hMem => ?_, first, more ++ behind, rfl, hFirst⟩
  rcases List.mem_append.mp hMem with hMem | hMem
  · exact h.all c hMem
  · exact hBehind c hMem

theorem Leading.take {kept : List Char} (h : Leading kept) {k : ℕ} (hPos : 0 < k) :
    Leading (kept.take k) := by
  obtain ⟨steps, rfl⟩ := Nat.exists_eq_add_of_lt hPos
  obtain ⟨first, more, rfl, hFirst⟩ := h.first
  exact ⟨fun c hMem => h.all c (List.mem_of_mem_take hMem), first, _, List.take_succ_cons, hFirst⟩

section
variable {kept : List Char} (hKept : Leading kept) (hValue : digitsValue kept ≠ 0)
include hKept hValue

/-- A point and zeros stand in front of the digits. -/
theorem denotes_small (k : ℕ) : Denotes ('0' :: '.' :: (List.replicate k '0' ++ kept))
    (digitsValue kept * 10 ^ (-(k + kept.length : ℕ) : ℤ)) := by
  have hFraction : ∀ c ∈ List.replicate k '0' ++ kept, isAsciiDigit c = true := by
    intro c hMem
    rcases List.mem_append.mp hMem with hZero | hDigit
    · exact isAsciiDigit_of_mem_zeros hZero
    · exact hKept.all c hDigit
  have hSome : List.replicate k '0' ++ kept ≠ [] := by
    intro hNil
    rw [(List.append_eq_nil_iff.mp hNil).2] at hValue
    exact hValue rfl
  have hDigits : digitsValue (['0'] ++ (List.replicate k '0' ++ kept)) = digitsValue kept := by
    rw [← List.append_assoc, digitsValue_append, ← List.replicate_one,
      List.replicate_append_replicate, digitsValue_zeros, Nat.zero_mul, Nat.zero_add]
  have hWrites := writes_fraction (.inl rfl) hFraction hSome
  rw [hDigits, List.length_append, List.length_replicate] at hWrites
  exact ⟨_, _, hWrites, hValue, rfl⟩

/-- Zeros, a point and one more zero stand behind the digits. -/
theorem denotes_large (k : ℕ) : Denotes (kept ++ List.replicate k '0' ++ ['.', '0'])
    (digitsValue kept * 10 ^ (k : ℤ)) := by
  have hLong : IsWhole (kept ++ List.replicate k '0') :=
    .inr (hKept.append fun _ => isAsciiDigit_of_mem_zeros)
  have hDigits : digitsValue (kept ++ List.replicate k '0' ++ ['0']) =
      digitsValue kept * 10 ^ (k + 1) := by
    rw [List.append_assoc, ← List.replicate_succ', digitsValue_append, digitsValue_zeros,
      List.length_replicate, Nat.add_zero]
  have hPlace : ∀ c ∈ ['0'], isAsciiDigit c = true := by simp [isAsciiDigit]
  have hWrites := writes_fraction hLong hPlace (List.cons_ne_nil _ _)
  rw [hDigits] at hWrites
  refine ⟨_, _, hWrites, Nat.mul_ne_zero hValue (Nat.pow_pos (by decide)).ne', ?_⟩
  rw [List.length_singleton, zpow_neg, zpow_natCast, zpow_natCast]
  push_cast
  field_simp
  ring

/-- A point stands between the digits. -/
theorem denotes_split {k : ℕ} (hPos : 0 < k) (hLess : k < kept.length) :
    Denotes (kept.take k ++ '.' :: kept.drop k)
      (digitsValue kept * 10 ^ (-(kept.length - k : ℕ) : ℤ)) := by
  have hBehind : kept.drop k ≠ [] := mt List.drop_eq_nil_iff.mp (Nat.not_le.mpr hLess)
  have hWrites := writes_fraction (.inr (hKept.take hPos))
    (fun c hMem => hKept.all c (List.mem_of_mem_drop hMem)) hBehind
  rw [List.take_append_drop, List.length_drop] at hWrites
  exact ⟨_, _, hWrites, hValue, rfl⟩

/-- A point stands behind the first digit if there are others, and an exponent behind them. -/
theorem denotes_scientific (e : ℤ) :
    Denotes (kept.take 1 ++ (if kept.length ≤ 1 then [] else '.' :: kept.drop 1) ++ exponentText e)
      (digitsValue kept * 10 ^ (e - (kept.length - 1 : ℕ))) := by
  split
  · next hOne =>
    rw [List.take_of_length_le hOne, List.append_nil, Nat.sub_eq_zero_of_le hOne, Nat.cast_zero,
      sub_zero]
    exact ⟨_, _, writes_exponent (.inr hKept) e, hValue, rfl⟩
  · next hMany =>
    have hWrites := writes_fraction_exponent (.inr (hKept.take one_pos))
      (fun c hMem => hKept.all c (List.mem_of_mem_drop hMem)) (mt List.drop_eq_nil_iff.mp hMany) e
    rw [List.take_append_drop, List.length_drop] at hWrites
    exact ⟨_, _, hWrites, hValue, rfl⟩

end

/-- What is written for a decimal is read as a decimal with its value. -/
theorem denotes_render {d : Digits} (hZero : d.digits ≠ 0) :
    Denotes (plainLayout.render d).toList (d.digits * 10 ^ d.exponent) := by
  obtain ⟨kept, zeros, hKept, hLeading, hLength, hValue⟩ := exists_kept hZero
  have hSome : digitsValue kept ≠ 0 := by
    rw [hValue] at hZero
    exact left_ne_zero_of_mul hZero
  have hSame : (d.digits * 10 ^ d.exponent : ℚ) = digitsValue kept * 10 ^ (zeros + d.exponent) := by
    rw [hValue, zpow_add₀ (by norm_num), zpow_natCast]
    push_cast
    ring
  rw [hSame]
  simp only [Layout.render, hKept, hLength, plainLayout]
  obtain ⟨point, hPoint⟩ : ∃ point : ℤ, point = (kept.length + zeros : ℕ) + d.exponent := ⟨_, rfl⟩
  rw [← hPoint]
  have hShift : zeros + d.exponent = point - kept.length := by omega
  rw [hShift]
  -- The layout depends on where the point is: in front of the digits, behind them, between
  -- them, or too far away from them.
  split
  · split
    · next hSmall =>
      have hPlace : point - kept.length = -((-point).toNat + kept.length : ℕ) := by omega
      rw [hPlace]
      convert denotes_small hLeading hSome (-point).toNat using 1
      simp
    · split
      · next hLarge =>
        have hPlace : point - kept.length = (point.toNat - kept.length : ℕ) := by omega
        rw [hPlace]
        convert denotes_large hLeading hSome (point.toNat - kept.length) using 1
        simp
      · have hPlace : point - kept.length = -(kept.length - point.toNat : ℕ) := by omega
        rw [hPlace]
        convert denotes_split hLeading hSome (k := point.toNat) (by omega) (by omega) using 1
        simp
  · have hPlace : point - kept.length = point - 1 - (kept.length - 1 : ℕ) := by
      have hPos := hLeading.length_pos
      omega
    rw [hPlace]
    convert denotes_scientific hLeading hSome (point - 1) using 1
    by_cases hOne : kept.length ≤ 1 <;> by_cases hNegative : point - 1 < 0 <;>
      simp [exponentText, hOne, hNegative]

/-- A decimal is read with or without a minus before it. -/
theorem Writes.readValue? {cs : List Char} {n : ℕ} {e : ℤ} (h : Writes cs n e) (negative : Bool)
    (fuel : ℕ) {rest : List Char} (hCloses : Closes rest) :
    readValue? (fuel + 1) ((if negative then ['-'] else []) ++ cs ++ rest) =
      some (.float (Decimal.ofScientific negative n e), rest) := by
  obtain ⟨first, more, rfl, hFirst⟩ := h.begins
  cases negative
  · exact (readValue?_of_isAsciiDigit fuel hFirst (more ++ rest)).trans (h.reads false rest hCloses)
  · exact (readValue?_minus fuel hFirst (more ++ rest)).trans (h.reads true rest hCloses)

theorem floatText_of_none {x : Float} (h : Binary.ofFloat? x = none) : floatText x =
    if x.isNaN then "NaN" else if signBit x then "-Infinity" else "Infinity" := by
  rw [floatText, render, h]
  rfl

/-- A finite number is written as its sign and the shortest digits in the plain layout.
-/
theorem floatText_of_some {x : Float} {b : Binary} (h : Binary.ofFloat? x = some b) :
    (floatText x).toList = (if b.negative then ['-'] else []) ++
      if b.mantissa = 0 then ['0', '.', '0'] else (plainLayout.render (shortest b)).toList := by
  have hText : floatText x =
      if b.mantissa == 0 then (if b.negative then "-" else "") ++ "0" ++ plainLayout.wholeMark
      else (if b.negative then "-" else "") ++ plainLayout.render (shortest b) := by
    rw [floatText, render, h]
  have hSign : (if b.negative then "-" else "").toList = if b.negative then ['-'] else [] := by
    cases b.negative <;> rfl
  rw [hText]
  by_cases hZero : b.mantissa = 0
  · rw [if_pos (beq_iff_eq.mpr hZero), if_pos hZero, String.toList_append, String.toList_append,
      hSign, List.append_assoc]
    rfl
  · rw [if_neg (mt beq_iff_eq.mp hZero), if_neg hZero, String.toList_append, hSign]

end NoteTemplate.Value.Json

namespace NoteTemplate.Value

open Text Json Decimal

/-- A decimal that is read as a number, with a minus or without. -/
theorem readsBack_of_writes (spacing : Spacing) {x : Float} {negative : Bool} {cs : List Char}
    {n : ℕ} {e : ℤ} (h : Writes cs n e)
    (hText : (Json.floatText x).toList = (if negative then ['-'] else []) ++ cs)
    (hValue : Decimal.ofScientific negative n e = x) : ReadsBack spacing (.float x) := by
  have hWrite : write spacing (.float x) = (if negative then ['-'] else []) ++ cs := hText
  have hBegins : Begins (write spacing (.float x)) := by
    rw [hWrite]
    cases negative
    · obtain ⟨first, more, rfl, hFirst⟩ := h.begins
      exact begins_digit hFirst more
    · exact ⟨'-', cs, rfl, by decide⟩
  refine ⟨hBegins, fun fuel rest hFuel hCloses => ?_⟩
  obtain ⟨steps, rfl⟩ := hBegins.exists_succ hFuel
  rw [hWrite, h.readValue? negative steps hCloses, hValue]

/-- A name that a number is written as. -/
theorem readsBack_of_name (spacing : Spacing) {x : Float} {name : String}
    (hText : Json.floatText x = name) (hBegins : Begins name.toList)
    (hRead : ∀ steps rest, readValue? (steps + 1) (name.toList ++ rest) = some (.float x, rest)) :
    ReadsBack spacing (.float x) := by
  have hWrite : write spacing (.float x) = name.toList := congrArg String.toList hText
  rw [← hWrite] at hBegins
  refine ⟨hBegins, fun fuel rest hFuel _ => ?_⟩
  obtain ⟨steps, rfl⟩ := hBegins.exists_succ hFuel
  rw [hWrite, hRead]

/-- Every floating-point number is found again in its text. -/
theorem readsBack_float (spacing : Spacing) (x : Float) : ReadsBack spacing (.float x) := by
  have hDecodes := decodes x
  generalize hValue : Binary.ofFloat? x = value at hDecodes
  cases hDecodes with
  | nan =>
      have hText := floatText_of_none hValue
      exact readsBack_of_name spacing hText ⟨'N', _, rfl, by decide⟩ fun _ _ => rfl
  | infinity negative =>
      have hText := floatText_of_none hValue
      cases negative
      · exact readsBack_of_name spacing hText ⟨'I', _, rfl, by decide⟩ fun _ _ => rfl
      · exact readsBack_of_name spacing hText ⟨'-', _, rfl, by decide⟩ fun _ _ => rfl
  | zero negative =>
      have hDigit : ∀ c ∈ ['0'], isAsciiDigit c = true := by simp [isAsciiDigit]
      refine readsBack_of_writes spacing (writes_fraction (.inl rfl) hDigit (List.cons_ne_nil _ _))
        (floatText_of_some hValue) ?_
      cases negative <;> rfl
  | @finite b h =>
      obtain ⟨hSome, hInterval⟩ := shortest_spec h
      obtain ⟨n, e, hWrites, hZero, hSame⟩ := denotes_render hSome
      rw [← hSame] at hInterval
      refine readsBack_of_writes spacing hWrites ?_
        (ofScientific_of_inInterval hZero h.legal hInterval b.negative)
      rw [floatText_of_some hValue, if_neg h.legal.pos.ne']

/-- A value that is found again in its JSON text, whatever floating-point numbers are in it. -/
inductive Legible : Value → Prop where
  | null : Legible .null
  | bool (b : Bool) : Legible (.bool b)
  | int {n : Int} (hLength : n.natAbs < Decimal.digitLimit) : Legible (.int n)
  | float (x : Float) : Legible (.float x)
  | str (s : String) : Legible (.str s)
  | arr {items : List Value} (hItems : ∀ item ∈ items, Legible item) : Legible (.arr items)
  | obj {fields : List (String × Value)} (hKeys : (fields.map (·.1)).Nodup)
      (hFields : ∀ field ∈ fields, Legible field.2) : Legible (.obj fields)

/-- By induction on the value: everything legible is read back in either spacing. -/
theorem Legible.readsBack {v : Value} (h : Legible v) {spacing : Spacing}
    (hSpacing : spacing.Sound) : ReadsBack spacing v := by
  induction h with
  | null => exact readsBack_null spacing
  | bool b => exact readsBack_bool spacing b
  | int hLength => exact readsBack_int spacing hLength
  | float x => exact readsBack_float spacing x
  | str s => exact readsBack_str spacing s
  | arr _ ih => exact readsBack_arr hSpacing ih
  | obj hKeys _ ih => exact readsBack_obj hSpacing hKeys ih

/-- A legible value is the value of its JSON text. -/
theorem Legible.ofJson?_toJson {v : Value} (h : Legible v) : ofJson? v.toJson = some v := by
  rw [ofJson?, toJson, String.toList_ofList]
  exact (h.readsBack sound_compact).read?_write

end NoteTemplate.Value
