import NoteTemplate.Proofs.Decimal.Rounding

/-! The interval of numbers that a floating-point number stands for. All of them are
rounded to it, whatever way the rounding is told about them: by a mantissa of any
length and what the bits behind it say. -/
namespace NoteTemplate.Decimal

open Float.Model Float.Model.UnpackedFloat

/-- An integer is the nearest one to a number, and the even one of two. -/
structure RoundsTo (x : ℚ) (n : ℕ) : Prop where
  close : |x - n| ≤ 1 / 2
  even : |x - n| = 1 / 2 → n % 2 = 0

/-- There is only one nearest integer, because of two neighbours one is odd. -/
theorem RoundsTo.unique {x : ℚ} {m n : ℕ} (hm : RoundsTo x m) (hn : RoundsTo x n) : m = n := by
  have hClose {m n : ℕ} (hm : RoundsTo x m) (hn : RoundsTo x n) : m ≤ n := by
    by_contra hLess
    have hNext : (n : ℚ) + 1 ≤ m := by exact_mod_cast Nat.lt_of_not_le hLess
    have hFirst := abs_le.mp hm.close
    have hSecond := abs_le.mp hn.close
    have hUp : |x - n| = 1 / 2 := by
      rw [abs_of_nonneg (by linarith)]
      linarith
    have hDown : |x - m| = 1 / 2 := by
      rw [abs_of_nonpos (by linarith)]
      linarith
    have hBoth : (m : ℚ) = n + 1 := by linarith
    have hSucc : m = n + 1 := by exact_mod_cast hBoth
    have := hm.even hDown
    have := hn.even hUp
    omega
  exact Nat.le_antisymm (hClose hm hn) (hClose hn hm)

/-- A mantissa and the two bits behind it tell a number from all that are rounded
otherwise. The first bit is the half, the second one says whether there is more. -/
def Represents (em : ExtendedMantissa) (x : ℚ) : Prop :=
  ∃ rest : ℚ, 0 ≤ rest ∧ rest < 1 / 2 ∧ (em.stickyBit = true ↔ rest ≠ 0) ∧
    x = em.mantissa + em.roundBit.toNat / 2 + rest

theorem represents_exact (m : ℕ) :
    Represents (ExtendedMantissa.ofMantissaAndAccuracy m .exact) m :=
  ⟨0, le_refl 0, by norm_num, by simp [ExtendedMantissa.ofMantissaAndAccuracy],
    by simp [ExtendedMantissa.ofMantissaAndAccuracy]⟩

/-- The mantissa with its rounding bits lies less than one below the number. -/
theorem Represents.bounds {em : ExtendedMantissa} {x : ℚ} (h : Represents em x) :
    (em.mantissa : ℚ) ≤ x ∧ x < em.mantissa + 1 := by
  obtain ⟨rest, hLow, hHigh, -, rfl⟩ := h
  cases em.roundBit
  · simp only [Bool.toNat_false, Nat.cast_zero]
    constructor <;> linarith
  · simp only [Bool.toNat_true, Nat.cast_one]
    constructor <;> linarith

/-- Moving a mantissa by one bit halves the number. The bit that falls off becomes the
half, and the half before becomes a part of the rest. -/
theorem Represents.shiftRightOne {em : ExtendedMantissa} {x : ℚ} (h : Represents em x) :
    Represents em.shiftRightOne (x / 2) := by
  obtain ⟨rest, hLow, hHigh, hSticky, rfl⟩ := h
  have hSplit : (em.mantissa : ℚ) = 2 * (em.mantissa / 2 : ℕ) + (em.mantissa % 2 : ℕ) := by
    exact_mod_cast (Nat.div_add_mod em.mantissa 2).symm
  have hBit : em.shiftRightOne.roundBit.toNat = em.mantissa % 2 := by
    rcases Nat.mod_two_eq_zero_or_one em.mantissa with hEven | hOdd
    · simp [ExtendedMantissa.shiftRightOne, hEven]
    · simp [ExtendedMantissa.shiftRightOne, hOdd]
  have hHalf : (em.roundBit.toNat : ℚ) ≤ 1 := by exact_mod_cast em.roundBit.toNat_le
  have hNonneg : (0 : ℚ) ≤ em.roundBit.toNat := Nat.cast_nonneg _
  refine ⟨em.roundBit.toNat / 4 + rest / 2, by linarith, by linarith, ?_, ?_⟩
  · simp only [ExtendedMantissa.shiftRightOne, Bool.or_eq_true, hSticky]
    cases em.roundBit
    · simp
    · simp only [Bool.toNat_true, Nat.cast_one, true_or, true_iff]
      linarith
  · rw [hBit, hSplit]
    simp only [ExtendedMantissa.shiftRightOne]
    ring

/-- A shift by some bits divides the number by a power of two. -/
theorem Represents.shiftRight {em : ExtendedMantissa} {x : ℚ} (h : Represents em x) (k : ℕ) :
    Represents (em >>> k) (x / 2 ^ k) := by
  induction k with
  | zero =>
      rw [pow_zero, div_one]
      exact h
  | succ k ih =>
      have hStep : em >>> (k + 1) = (em >>> k).shiftRightOne := rfl
      rw [hStep, pow_succ, ← div_div]
      exact ih.shiftRightOne

/-- Shifting divides the mantissa. -/
theorem mantissa_shiftRight (em : ExtendedMantissa) (k : ℕ) :
    (em >>> k).mantissa = em.mantissa / 2 ^ k := by
  induction k with
  | zero => exact (Nat.div_one _).symm
  | succ k ih =>
      have hStep : em >>> (k + 1) = (em >>> k).shiftRightOne := rfl
      rw [hStep, Nat.pow_succ, ← Nat.div_div_eq_div_mul, ← ih]
      rfl

theorem roundsTo_add {n : ℕ} {rest : ℚ} (hLow : -(1 / 2) ≤ rest) (hHigh : rest ≤ 1 / 2)
    (hEven : |rest| = 1 / 2 → n % 2 = 0) : RoundsTo (n + rest) n := by
  have hDistance : (n : ℚ) + rest - n = rest := add_sub_cancel_left _ _
  exact ⟨by rw [hDistance]; exact abs_le.mpr ⟨hLow, hHigh⟩, by rwa [hDistance]⟩

/-- The two bits decide the rounding. -/
theorem Represents.rounds {em : ExtendedMantissa} {x : ℚ} (h : Represents em x) :
    RoundsTo x em.roundedMantissa := by
  obtain ⟨m, round, sticky⟩ := em
  obtain ⟨rest, hLow, hHigh, hSticky, rfl⟩ := h
  simp only at hSticky ⊢
  cases round
  · have hDown : (ExtendedMantissa.mk m false sticky).roundedMantissa = m := by cases sticky <;> rfl
    rw [hDown, Bool.toNat_false, Nat.cast_zero, zero_div, add_zero]
    refine roundsTo_add (by linarith) hHigh.le fun hTie => ?_
    rw [abs_of_nonneg hLow] at hTie
    exact absurd hTie hHigh.ne
  · cases sticky
    · have hNone : rest = 0 := by simpa using hSticky
      have hEven : (ExtendedMantissa.mk m true false).roundedMantissa = m + m % 2 := rfl
      rw [hEven, hNone]
      rcases Nat.mod_two_eq_zero_or_one m with hBit | hBit
      · rw [hBit, Bool.toNat_true, Nat.cast_one, add_zero, add_zero]
        exact roundsTo_add (by norm_num) le_rfl fun _ => hBit
      · have hSame : (m : ℚ) + (1 : ℕ) / 2 + 0 = ((m + 1 : ℕ) : ℚ) + -(1 / 2) := by
          push_cast
          ring
        rw [hBit, Bool.toNat_true, hSame]
        exact roundsTo_add le_rfl (by norm_num) fun _ => by omega
    · have hSome : 0 < rest := lt_of_le_of_ne hLow (Ne.symm (hSticky.mp rfl))
      have hUp : (ExtendedMantissa.mk m true true).roundedMantissa = m + 1 := rfl
      have hSame : (m : ℚ) + (1 : ℕ) / 2 + rest = ((m + 1 : ℕ) : ℚ) + (rest - 1 / 2) := by
        push_cast
        ring
      rw [hUp, Bool.toNat_true, hSame]
      refine roundsTo_add (by linarith) (by linarith) fun hTie => ?_
      rw [abs_of_neg (by linarith)] at hTie
      linarith

/-- The mantissas and exponents of positive finite numbers: 53 digits, or fewer of them
at the least exponent. -/
structure Legal (m : ℕ) (e : ℤ) : Prop where
  pos : 0 < m
  few : m < 2 ^ 53
  low : -1074 ≤ e
  high : e < 972
  full : 2 ^ 52 ≤ m ∨ e = -1074

/-- A number lies in the interval of a floating-point number. Below a power of two the
neighbour is only half as far away as above. -/
structure InInterval (m : ℕ) (e : ℤ) (x : ℚ) : Prop where
  rounds : RoundsTo (x / 2 ^ e) m
  near : m = 2 ^ 52 → -1074 < e → (m : ℚ) - 1 / 4 ≤ x / 2 ^ e

/-- The exponent to which a mantissa is shifted. -/
def target (m : ℕ) (e : ℤ) : ℤ := Format.binary64.targetExponent (totalExponent m e)

theorem target_eq (m : ℕ) (e : ℤ) : target m e = max (m.log2 + e - 52) (-1074) := by
  simp only [target, Format.targetExponent, totalExponent, Format.mantissaBits, Format.minExponent]
  omega

/-- A number that is stored as it is needs no other exponent. -/
theorem target_of_legal {m : ℕ} {e : ℤ} (h : Legal m e) : target m e = e := by
  rw [target_eq]
  have hLog : m.log2 < 53 := (Nat.log2_lt h.pos.ne').mpr h.few
  have hLow := h.low
  rcases h.full with hFull | rfl
  · have hExact : 52 ≤ m.log2 := (Nat.le_log2 h.pos.ne').mpr hFull
    omega
  · omega

theorem div_two_zpow (x : ℚ) (e f : ℤ) : x / 2 ^ e = x / 2 ^ f * 2 ^ (f - e) := by
  rw [zpow_sub₀ two_ne_zero]
  field_simp

theorem mantissa_ofMantissaAndAccuracy (m : ℕ) (accuracy : Accuracy) :
    (ExtendedMantissa.ofMantissaAndAccuracy m accuracy).mantissa = m := by
  cases accuracy with
  | exact => rfl
  | inexact order => cases order <;> rfl

theorem shiftToTargetExponent_exact (m : ℕ) {e : ℤ} (h : e ≤ target m e) :
    (shiftToTargetExponent Format.binary64 m e .exact).1.mantissa =
        m / 2 ^ (target m e - e).toNat ∧
      (shiftToTargetExponent Format.binary64 m e .exact).2 = target m e := by
  have hSum : e + ((target m e - e).toNat : ℤ) = target m e := by omega
  exact ⟨mantissa_shiftRight _ _, hSum⟩

theorem shift_of_legal {m : ℕ} {e : ℤ} (h : Legal m e) :
    (shiftToTargetExponent Format.binary64 m e .exact).1.mantissa = m ∧
      (shiftToTargetExponent Format.binary64 m e .exact).2 = e := by
  have hTarget := target_of_legal h
  have hShift := shiftToTargetExponent_exact m hTarget.ge
  rwa [hTarget, sub_self, Int.toNat_zero, Nat.pow_zero, Nat.div_one] at hShift

/-- A carry out of the mantissa goes into the exponent. -/
theorem shift_of_carry {e : ℤ} (h : -1074 < e) :
    (shiftToTargetExponent Format.binary64 (2 ^ 53) (e - 1) .exact).1.mantissa = 2 ^ 52 ∧
      (shiftToTargetExponent Format.binary64 (2 ^ 53) (e - 1) .exact).2 = e := by
  have hTarget : target (2 ^ 53) (e - 1) = e := by
    rw [target_eq, Nat.log2_two_pow]
    omega
  have hShift := shiftToTargetExponent_exact (2 ^ 53) (hTarget.ge.trans' (by omega))
  rwa [hTarget, sub_sub_cancel, Int.toNat_one, Nat.pow_one] at hShift

section
variable {x : ℚ} {m : ℕ} {e : ℤ} {accuracy : Accuracy}
  (hRepresents : Represents (ExtendedMantissa.ofMantissaAndAccuracy m accuracy) (x / 2 ^ e))
  (hEnough : e ≤ target m e)
include hRepresents hEnough

/-- What a shift to the exponent of the format leaves represents the number there. -/
theorem represents_target :
    Represents (ExtendedMantissa.ofMantissaAndAccuracy m accuracy >>> (target m e - e).toNat)
      (x / 2 ^ target m e) := by
  have hShifted := hRepresents.shiftRight (target m e - e).toNat
  have hAmount : ((target m e - e).toNat : ℤ) = target m e - e := Int.toNat_of_nonneg (by omega)
  rwa [div_div, ← zpow_natCast, ← zpow_add₀ two_ne_zero, hAmount, add_sub_cancel] at hShifted

/-- There the number has 53 digits before the point, or fewer at the least exponent. -/
theorem canonical_target :
    x / 2 ^ target m e < 2 ^ 53 ∧ (target m e = -1074 ∨ 2 ^ 52 ≤ x / 2 ^ target m e) := by
  have hBounds := (represents_target hRepresents hEnough).bounds
  rw [mantissa_shiftRight, mantissa_ofMantissaAndAccuracy] at hBounds
  have hTarget := target_eq m e
  generalize target m e = t at *
  obtain ⟨k, rfl⟩ : ∃ k : ℕ, t = e + k := ⟨(t - e).toNat, by omega⟩
  rw [add_sub_cancel_left, Int.toNat_natCast] at hBounds
  have hFew : m / 2 ^ k < 2 ^ 53 := by
    rw [Nat.div_lt_iff_lt_mul (Nat.two_pow_pos k), ← Nat.pow_add]
    exact Nat.lt_of_lt_of_le Nat.lt_log2_self (Nat.pow_le_pow_right (by omega) (by omega))
  have hNext : ((m / 2 ^ k : ℕ) : ℚ) + 1 ≤ 2 ^ 53 := by exact_mod_cast hFew
  refine ⟨lt_of_lt_of_le hBounds.2 hNext, ?_⟩
  by_cases hLeast : e + k = -1074
  · exact .inl hLeast
  · have hFull : 2 ^ 52 ≤ m / 2 ^ k := by
      rw [Nat.le_div_iff_mul_le (Nat.two_pow_pos k), ← Nat.pow_add,
        show 52 + k = m.log2 by omega]
      refine Nat.log2_self_le fun hZero => ?_
      rw [hZero, Nat.log2_zero] at hTarget
      omega
    have hCast : (2 : ℚ) ^ 52 ≤ ((m / 2 ^ k : ℕ) : ℚ) := by exact_mod_cast hFull
    exact .inr (hCast.trans hBounds.1)

end

section
variable {x : ℚ} {mantissa : ℕ} {exponent : ℤ} (hLegal : Legal mantissa exponent)
  (hInterval : InInterval mantissa exponent x)
include hLegal hInterval

/-- A number in an interval is too small for a greater exponent. -/
theorem le_of_inInterval {t : ℤ} (hFull : t = -1074 ∨ 2 ^ 52 ≤ x / 2 ^ t) : t ≤ exponent := by
  by_contra hAbove
  have hClose := abs_le.mp hInterval.rounds.close
  have hPos : (1 : ℚ) ≤ mantissa := by exact_mod_cast hLegal.pos
  have hMantissa : (mantissa : ℚ) + 1 ≤ 2 ^ 53 := by exact_mod_cast hLegal.few
  have hLeast := hLegal.low
  have hCarry := hFull.resolve_left (by omega)
  rw [div_two_zpow x t exponent] at hCarry
  generalize x / 2 ^ exponent = y at *
  have hHalf : (2 : ℚ) ^ (exponent - t) ≤ 2 ^ (-1 : ℤ) :=
    zpow_le_zpow_right₀ one_le_two (by omega)
  norm_num at hHalf
  nlinarith

/-- At a smaller exponent it is rounded up to the next power of two, which is the least
number with the exponent of the interval. -/
theorem carry_of_inInterval {t : ℤ} (hLow : -1074 ≤ t) (hBelow : t < exponent)
    (hFew : x / 2 ^ t < 2 ^ 53) :
    t = exponent - 1 ∧ mantissa = 2 ^ 52 ∧ RoundsTo (x / 2 ^ t) (2 ^ 53) := by
  have hClose := abs_le.mp hInterval.rounds.close
  have hNear := hInterval.near
  have hLegalFull : 2 ^ 52 ≤ mantissa := hLegal.full.resolve_right (by omega)
  have hCast : (2 : ℚ) ^ 52 ≤ mantissa := by exact_mod_cast hLegalFull
  rw [div_two_zpow x t exponent] at hFew ⊢
  generalize x / 2 ^ exponent = y at *
  have hNext : exponent - t = 1 := by
    by_contra hFar
    have hFour : (2 : ℚ) ^ (2 : ℤ) ≤ 2 ^ (exponent - t) :=
      zpow_le_zpow_right₀ one_le_two (by omega)
    norm_num at hFour
    nlinarith
  rw [hNext, zpow_one] at hFew ⊢
  have hBinade : mantissa = 2 ^ 52 := by
    have hSmall : (mantissa : ℚ) < 2 ^ 52 + 1 := by linarith
    have hSmall : mantissa < 2 ^ 52 + 1 := by exact_mod_cast hSmall
    omega
  have hQuarter := hNear hBinade (by omega)
  rw [hBinade] at hQuarter
  push_cast at hQuarter
  refine ⟨by omega, hBinade, abs_le.mpr ⟨?_, ?_⟩, fun _ => by norm_num⟩
  · push_cast
    linarith
  · push_cast
    linarith

variable {m : ℕ} {e : ℤ} {accuracy : Accuracy}
  (hRepresents : Represents (ExtendedMantissa.ofMantissaAndAccuracy m accuracy) (x / 2 ^ e))
  (hEnough : e ≤ target m e)
include hRepresents hEnough

/-- The exponent to which a number in an interval is shifted is the one of the interval,
or the one below where the number is rounded up to the next power of two. -/
theorem target_cases :
    (target m e = exponent ∧ RoundsTo (x / 2 ^ target m e) mantissa) ∨
      (target m e = exponent - 1 ∧ -1074 < exponent ∧ mantissa = 2 ^ 52 ∧
        RoundsTo (x / 2 ^ target m e) (2 ^ 53)) := by
  obtain ⟨hFew, hFull⟩ := canonical_target hRepresents hEnough
  have hLow : -1074 ≤ target m e := by
    rw [target_eq]
    exact le_max_right _ _
  rcases (le_of_inInterval hLegal hInterval hFull).lt_or_eq with hBelow | hSame
  · obtain ⟨hNext, hBinade, hRounds⟩ := carry_of_inInterval hLegal hInterval hLow hBelow hFew
    exact .inr ⟨hNext, by omega, hBinade, hRounds⟩
  · rw [hSame]
    exact .inl ⟨rfl, hInterval.rounds⟩

/-- Every number in the interval is rounded to the floating-point number. -/
theorem roundWithAccuracy_of_inInterval (s : Sign) :
    roundWithAccuracy Format.binary64 s m e accuracy = .finite s mantissa exponent hLegal.pos := by
  have hFirst : shiftToTargetExponent Format.binary64 m e accuracy =
      (ExtendedMantissa.ofMantissaAndAccuracy m accuracy >>> (target m e - e).toNat,
        target m e) := by
    have hSum : e + ((target m e - e).toNat : ℤ) = target m e := by omega
    exact congrArg (Prod.mk _) hSum
  have hRounds := (represents_target hRepresents hEnough).rounds
  obtain ⟨rounded, hRounded, hSecond⟩ : ∃ rounded, RoundsTo (x / 2 ^ target m e) rounded ∧
      (shiftToTargetExponent Format.binary64 rounded (target m e) .exact).1.mantissa = mantissa ∧
      (shiftToTargetExponent Format.binary64 rounded (target m e) .exact).2 = exponent := by
    rcases target_cases hLegal hInterval hRepresents hEnough with
      ⟨hSame, hHere⟩ | ⟨hBelow, hMore, hBinade, hCarry⟩
    · refine ⟨mantissa, hHere, ?_⟩
      rw [hSame]
      exact shift_of_legal hLegal
    · refine ⟨2 ^ 53, hCarry, ?_⟩
      rw [hBelow, hBinade]
      exact shift_of_carry hMore
  have hSame := hRounds.unique hRounded
  simp only [roundWithAccuracy, hFirst, hSame, hSecond]
  rw [dif_neg hLegal.pos.ne']

end

/-- The accuracy of an integer quotient says what is missing to the quotient. -/
theorem represents_div (n : ℕ) {d : ℕ} (hPos : 0 < d) :
    Represents (ExtendedMantissa.ofMantissaAndAccuracy (n / d) (accuracyOfFraction (n % d) d))
      (n / d : ℚ) := by
  have hDen : (0 : ℚ) < d := by exact_mod_cast hPos
  have hSplit : (n / d : ℚ) = (n / d : ℕ) + (n % d : ℕ) / d := by
    rw [div_eq_iff hDen.ne', add_mul, div_mul_cancel₀ _ hDen.ne', mul_comm]
    exact_mod_cast (Nat.div_add_mod n d).symm
  have hBelow : n % d < d := Nat.mod_lt n hPos
  rw [hSplit]
  generalize n / d = q
  generalize n % d = r at *
  have hCast : (r : ℚ) / d < 1 := (div_lt_one hDen).mpr (by exact_mod_cast hBelow)
  by_cases hNone : r = 0
  · simp only [accuracyOfFraction, hNone, if_true, Nat.cast_zero, zero_div, add_zero]
    exact represents_exact q
  · have hSome : (0 : ℚ) < r / d := div_pos (by exact_mod_cast Nat.pos_of_ne_zero hNone) hDen
    have hTwice : (2 * r : ℕ) / (d : ℚ) = 2 * (r / d) := by
      push_cast
      ring
    simp only [accuracyOfFraction, hNone, if_false]
    rcases lt_trichotomy (2 * r) d with hLess | hTie | hMore
    · have hLess' : 2 * ((r : ℚ) / d) < 1 := by
        rw [← hTwice, div_lt_one hDen]
        exact_mod_cast hLess
      rw [Nat.compare_eq_lt.mpr hLess]
      exact ⟨r / d, hSome.le, by linarith, by simp [ExtendedMantissa.ofMantissaAndAccuracy, hSome.ne'],
        by simp [ExtendedMantissa.ofMantissaAndAccuracy]⟩
    · have hTie' : 2 * ((r : ℚ) / d) = 1 := by
        rw [← hTwice, div_eq_one_iff_eq hDen.ne']
        exact_mod_cast hTie
      rw [Nat.compare_eq_eq.mpr hTie]
      refine ⟨0, le_refl 0, by norm_num, by simp [ExtendedMantissa.ofMantissaAndAccuracy], ?_⟩
      simp only [ExtendedMantissa.ofMantissaAndAccuracy, Bool.toNat_true, Nat.cast_one]
      linarith
    · have hMore' : 1 < 2 * ((r : ℚ) / d) := by
        rw [← hTwice, one_lt_div hDen]
        exact_mod_cast hMore
      rw [Nat.compare_eq_gt.mpr hMore]
      refine ⟨r / d - 1 / 2, by linarith, by linarith, ?_, ?_⟩
      · simp only [ExtendedMantissa.ofMantissaAndAccuracy, true_iff]
        linarith
      · simp only [ExtendedMantissa.ofMantissaAndAccuracy, Bool.toNat_true, Nat.cast_one]
        ring

/-- A numerator that is shifted far enough gives a quotient that is long enough. -/
theorem le_log2_quotient {p q k : ℕ} (hp : 0 < p) (hq : 0 < q) (h : q.log2 + 53 ≤ p.log2 + k) :
    52 ≤ (p * 2 ^ k / q).log2 := by
  have hMany : 2 ^ 52 ≤ p * 2 ^ k / q := by
    rw [Nat.le_div_iff_mul_le hq]
    calc
      2 ^ 52 * q ≤ 2 ^ 52 * 2 ^ (q.log2 + 1) := Nat.mul_le_mul_left _ Nat.lt_log2_self.le
      _ = 2 ^ (q.log2 + 53) := by
        rw [← Nat.pow_add]
        congr 1
        omega
      _ ≤ 2 ^ (p.log2 + k) := Nat.pow_le_pow_right (by omega) h
      _ = 2 ^ p.log2 * 2 ^ k := Nat.pow_add ..
      _ ≤ p * 2 ^ k := Nat.mul_le_mul_right _ (Nat.log2_self_le hp.ne')
  exact (Nat.le_log2 (by omega)).mpr hMany

section
variable {p q : ℕ} {a b : ℤ} {mantissa : ℕ} {exponent : ℤ} (hp : 0 < p) (hq : 0 < q)
  (hLegal : Legal mantissa exponent)
include hLegal

/-- A product in the interval, of mantissas that are long enough together. -/
theorem mul_of_inInterval (hLong : 52 ≤ (p * q).log2)
    (hInterval : InInterval mantissa exponent (p * 2 ^ a * (q * 2 ^ b))) :
    UnpackedFloat.mul Format.binary64 (.finite .positive p a hp) (.finite .positive q b hq) =
      .finite .positive mantissa exponent hLegal.pos := by
  have hProduct : (p : ℚ) * 2 ^ a * (q * 2 ^ b) / 2 ^ (a + b) = (p * q : ℕ) := by
    rw [zpow_add₀ two_ne_zero, Nat.cast_mul]
    field_simp
  have hRepresents : Represents (ExtendedMantissa.ofMantissaAndAccuracy (p * q) .exact)
      ((p : ℚ) * 2 ^ a * (q * 2 ^ b) / 2 ^ (a + b)) := by
    rw [hProduct]
    exact represents_exact _
  have hEnough : a + b ≤ target (p * q) (a + b) := by
    rw [target_eq]
    omega
  exact roundWithAccuracy_of_inInterval hLegal hInterval hRepresents hEnough .positive

/-- A quotient in the interval. The numerator is shifted until the quotient is long enough. -/
theorem div_of_inInterval
    (hInterval : InInterval mantissa exponent (p * 2 ^ a / (q * 2 ^ b))) :
    UnpackedFloat.div Format.binary64 (.finite .positive p a hp) (.finite .positive q b hq) =
      .finite .positive mantissa exponent hLegal.pos := by
  set t := min (a - b)
    (Format.binary64.targetExponent (totalExponent p a - totalExponent q b)) with hTarget
  set k := (a - b - t).toNat with hShift
  have hAmount : a - b - t = k := by omega
  have hQuotient : (p : ℚ) * 2 ^ a / (q * 2 ^ b) / 2 ^ t = ((p * 2 ^ k : ℕ) : ℚ) / q := by
    have hPower : (2 : ℚ) ^ k = 2 ^ a / 2 ^ b / 2 ^ t := by
      rw [← zpow_natCast, ← hAmount, zpow_sub₀ two_ne_zero, zpow_sub₀ two_ne_zero]
    rw [Nat.cast_mul, Nat.cast_pow, Nat.cast_ofNat, hPower]
    field_simp
  have hRepresents : Represents (ExtendedMantissa.ofMantissaAndAccuracy (p * 2 ^ k / q)
      (accuracyOfFraction (p * 2 ^ k % q) q)) ((p : ℚ) * 2 ^ a / (q * 2 ^ b) / 2 ^ t) := by
    rw [hQuotient]
    exact represents_div _ hq
  have hEnough : t ≤ target (p * 2 ^ k / q) t := by
    rw [target_eq]
    by_cases hLeast : t ≤ -1074
    · exact le_max_of_le_right hLeast
    · have hLogs : q.log2 + 53 ≤ p.log2 + k := by
        simp only [Format.targetExponent, totalExponent, Format.mantissaBits,
          Format.minExponent] at hTarget
        omega
      have hLong := le_log2_quotient hp hq hLogs
      omega
  rw [← roundWithAccuracy_of_inInterval hLegal hInterval hRepresents hEnough .positive]
  simp only [UnpackedFloat.div, divCore, Nat.shiftLeft_eq]
  rfl

end

end NoteTemplate.Decimal
