import Mathlib
import NoteTemplate.Decimal.Binary

/-! Rounding a natural number to 53 binary digits, a half to the even neighbour.
Rounding keeps the order of numbers and leaves those alone that have no more
digits than that. -/
namespace NoteTemplate.Decimal

/-- Rounding a quotient goes to one of the two integers around it. -/
theorem roundHalfEven_bounds (num den : Nat) :
    num / den ≤ roundHalfEven num den ∧ roundHalfEven num den ≤ num / den + 1 := by
  simp only [roundHalfEven]
  split_ifs <;> omega

theorem roundHalfEven_of_dvd {num den : Nat} (hDen : 0 < den) (h : den ∣ num) :
    roundHalfEven num den = num / den := by
  have hRest : num % den = 0 := Nat.mod_eq_zero_of_dvd h
  simp [roundHalfEven, hRest, hDen]

/-- A common factor makes no difference. -/
theorem roundHalfEven_mul (num den : Nat) {factor : Nat} (h : 0 < factor) :
    roundHalfEven (num * factor) (den * factor) = roundHalfEven num den := by
  have hQuotient : num * factor / (den * factor) = num / den := Nat.mul_div_mul_right num den h
  have hRest : num * factor % (den * factor) = num % den * factor :=
    Nat.mul_mod_mul_right factor num den
  have hBelow : 2 * (num % den * factor) < den * factor ↔ 2 * (num % den) < den := by
    rw [← Nat.mul_assoc]
    exact Nat.mul_lt_mul_right h
  have hAbove : den * factor < 2 * (num % den * factor) ↔ den < 2 * (num % den) := by
    rw [← Nat.mul_assoc]
    exact Nat.mul_lt_mul_right h
  simp only [roundHalfEven, hQuotient, hRest, hBelow, hAbove]

/-- Rounding two quotients with one denominator keeps their order. -/
theorem roundHalfEven_mono {a b : Nat} (h : a ≤ b) (den : Nat) :
    roundHalfEven a den ≤ roundHalfEven b den := by
  have hQuotient : a / den ≤ b / den := Nat.div_le_div_right h
  by_cases hSame : a / den = b / den
  · have hRest : a % den ≤ b % den := by
      have ha := Nat.div_add_mod a den
      have hb := Nat.div_add_mod b den
      rw [hSame] at ha
      omega
    simp only [roundHalfEven, hSame]
    split_ifs <;> omega
  · have hUpper := (roundHalfEven_bounds a den).2
    have hLower := (roundHalfEven_bounds b den).1
    omega

/-- The distance between neighbours among the numbers of 53 binary digits around
a number. -/
def spacing (n : Nat) : Nat := 2 ^ (n.log2 - 52)

theorem spacing_pos (n : Nat) : 0 < spacing n := Nat.two_pow_pos _

/-- The number of 53 binary digits that is nearest to a number. -/
def nearest (n : Nat) : Nat := roundHalfEven n (spacing n) * spacing n

theorem nearest_of_dvd {n : Nat} (h : spacing n ∣ n) : nearest n = n := by
  rw [nearest, roundHalfEven_of_dvd (spacing_pos n) h, Nat.div_mul_cancel h]

theorem nearest_two_pow (k : Nat) : nearest (2 ^ k) = 2 ^ k := by
  refine nearest_of_dvd ?_
  rw [spacing, Nat.log2_two_pow]
  exact Nat.pow_dvd_pow 2 (Nat.sub_le k 52)

/-- Whatever has 53 digits is left alone. -/
theorem nearest_eq_self {n : Nat} (h : n ≤ 2 ^ 53) : nearest n = n := by
  rcases Nat.lt_or_eq_of_le h with hLess | rfl
  · have hLog : n.log2 - 52 = 0 := by
      by_cases hZero : n = 0
      · simp [hZero]
      · have := (Nat.log2_lt hZero).mpr hLess
        omega
    exact nearest_of_dvd (by simp [spacing, hLog])
  · exact nearest_two_pow 53

/-- Rounding a number of more than 53 digits leaves 53 of them, or goes up to the
next power of two. -/
theorem roundHalfEven_spacing {n : Nat} (h : 52 ≤ n.log2) :
    2 ^ 52 ≤ roundHalfEven n (spacing n) ∧ roundHalfEven n (spacing n) ≤ 2 ^ 53 := by
  have hZero : n ≠ 0 := by
    rintro rfl
    simp at h
  have hSplit : 2 ^ n.log2 = 2 ^ 52 * spacing n := by
    rw [spacing, ← Nat.pow_add]
    congr 1
    omega
  have hLower : 2 ^ 52 ≤ n / spacing n := by
    rw [Nat.le_div_iff_mul_le (spacing_pos n), ← hSplit]
    exact Nat.log2_self_le hZero
  have hUpper : n / spacing n < 2 ^ 53 := by
    rw [Nat.div_lt_iff_lt_mul (spacing_pos n), Nat.pow_succ' (n := 52), Nat.mul_assoc, ← hSplit,
      ← Nat.pow_succ']
    exact Nat.lt_log2_self
  have hBounds := roundHalfEven_bounds n (spacing n)
  omega

/-- A number is rounded between the powers of two around it. -/
theorem nearest_bounds {n : Nat} (hZero : n ≠ 0) :
    2 ^ n.log2 ≤ nearest n ∧ nearest n ≤ 2 ^ (n.log2 + 1) := by
  by_cases h : 52 ≤ n.log2
  · have hSplit : 2 ^ n.log2 = 2 ^ 52 * spacing n := by
      rw [spacing, ← Nat.pow_add]
      congr 1
      omega
    have hBounds := roundHalfEven_spacing h
    constructor
    · rw [hSplit]
      exact Nat.mul_le_mul_right _ hBounds.1
    · rw [Nat.pow_succ', hSplit, ← Nat.mul_assoc, ← Nat.pow_succ']
      exact Nat.mul_le_mul_right _ hBounds.2
  · have hSmall : n < 2 ^ 53 := (Nat.log2_lt hZero).mp (by omega)
    rw [nearest_eq_self (Nat.le_of_lt hSmall)]
    exact ⟨Nat.log2_self_le hZero, Nat.le_of_lt Nat.lt_log2_self⟩

/-- Rounding keeps the order of numbers: in one binade because it does so for
quotients, and otherwise because a power of two stands between them. -/
theorem nearest_mono {a b : Nat} (h : a ≤ b) : nearest a ≤ nearest b := by
  by_cases hZero : a = 0
  · simp [hZero, nearest_eq_self]
  · have hOther : b ≠ 0 := by omega
    have hLog : a.log2 ≤ b.log2 := by
      rw [Nat.le_log2 hOther]
      exact Nat.le_trans (Nat.log2_self_le hZero) h
    rcases Nat.lt_or_eq_of_le hLog with hLess | hSame
    · calc
        nearest a ≤ 2 ^ (a.log2 + 1) := (nearest_bounds hZero).2
        _ ≤ 2 ^ b.log2 := Nat.pow_le_pow_right (by omega) hLess
        _ ≤ nearest b := (nearest_bounds hOther).1
    · have hSpacing : spacing a = spacing b := by rw [spacing, spacing, hSame]
      rw [nearest, nearest, hSpacing]
      exact Nat.mul_le_mul_right _ (roundHalfEven_mono h _)

/-- The integer of 53 binary digits that is nearest to an integer. -/
def nearestInt (n : Int) : Int := n.sign * (nearest n.natAbs : Int)

theorem nearestInt_ofNat (n : Nat) : nearestInt n = nearest n := by
  by_cases hZero : n = 0
  · simp [hZero, nearestInt, nearest_eq_self]
  · rw [nearestInt, Int.sign_eq_one_of_pos (by omega), Int.one_mul, Int.natAbs_natCast]

theorem nearestInt_neg (n : Int) : nearestInt (-n) = -nearestInt n := by
  rw [nearestInt, nearestInt, Int.sign_neg, Int.natAbs_neg, Int.neg_mul]

theorem nearestInt_eq_self {n : Int} (h : n.natAbs ≤ 2 ^ 53) : nearestInt n = n := by
  rw [nearestInt, nearest_eq_self h, Int.sign_mul_natAbs]

/-- Rounding keeps the order. -/
theorem nearestInt_mono {a b : Int} (h : a ≤ b) : nearestInt a ≤ nearestInt b := by
  obtain ⟨m, rfl | rfl⟩ := a.eq_nat_or_neg <;> obtain ⟨n, rfl | rfl⟩ := b.eq_nat_or_neg
  · simp only [nearestInt_ofNat]
    exact Int.ofNat_le.mpr (nearest_mono (by omega))
  · obtain ⟨rfl, rfl⟩ : m = 0 ∧ n = 0 := by omega
    simp
  · simp only [nearestInt_neg, nearestInt_ofNat]
    omega
  · simp only [nearestInt_neg, nearestInt_ofNat]
    have := nearest_mono (show n ≤ m by omega)
    omega

end NoteTemplate.Decimal

/-! How floating-point numbers are rounded and stored. The rounding that the
format does bit by bit is the one of quotients, and what it leaves is stored
without a loss as long as the exponent has room. -/
namespace NoteTemplate.Decimal

open Float.Model Float.Model.UnpackedFloat

/-- Shifting an exact mantissa to the right leaves the quotient, and in the two
bits behind it how the rest compares with a half. -/
theorem shiftRight_exact (m k : Nat) :
    ExtendedMantissa.ofMantissaAndAccuracy m .exact >>> k =
      ⟨m / 2 ^ k, decide (2 ^ k ≤ 2 * (m % 2 ^ k)),
        decide (2 * (m % 2 ^ k) ≠ 0 ∧ 2 * (m % 2 ^ k) ≠ 2 ^ k)⟩ := by
  induction k with
  | zero =>
      simp [ExtendedMantissa.ofMantissaAndAccuracy, HShiftRight.hShiftRight, Nat.repeat, Nat.mod_one]
  | succ k ih =>
      have hStep : ExtendedMantissa.ofMantissaAndAccuracy m .exact >>> (k + 1) =
          (ExtendedMantissa.ofMantissaAndAccuracy m .exact >>> k).shiftRightOne := rfl
      have hRest : m % 2 ^ (k + 1) = m % 2 ^ k + 2 ^ k * (m / 2 ^ k % 2) := Nat.mod_pow_succ
      have hBelow : m % 2 ^ k < 2 ^ k := Nat.mod_lt _ (Nat.two_pow_pos k)
      have hQuotient : m / 2 ^ (k + 1) = m / 2 ^ k / 2 := by
        rw [Nat.pow_succ, Nat.div_div_eq_div_mul]
      rw [hStep, ih, hQuotient, hRest, Nat.pow_succ]
      generalize m % 2 ^ k = rest at hBelow ⊢
      generalize 2 ^ k = half at hBelow ⊢
      simp only [ExtendedMantissa.shiftRightOne, ExtendedMantissa.mk.injEq, true_and]
      rcases Nat.mod_two_eq_zero_or_one (m / half) with hBit | hBit
      · rw [hBit]
        constructor
        · simp
          omega
        · rw [← Bool.decide_or, decide_eq_decide]
          omega
      · rw [hBit]
        constructor
        · simp
          omega
        · rw [← Bool.decide_or, decide_eq_decide]
          omega

/-- The mantissa that is left by a shift is rounded like a quotient. -/
theorem roundedMantissa_shiftRight (m k : Nat) :
    (ExtendedMantissa.ofMantissaAndAccuracy m .exact >>> k).roundedMantissa =
      roundHalfEven m (2 ^ k) := by
  have hPos : 0 < 2 ^ k := Nat.two_pow_pos k
  rw [shiftRight_exact, roundHalfEven]
  by_cases hHalf : 2 ^ k ≤ 2 * (m % 2 ^ k)
  · by_cases hMore : 2 * (m % 2 ^ k) ≠ 0 ∧ 2 * (m % 2 ^ k) ≠ 2 ^ k
    · have hAbove : 2 ^ k < 2 * (m % 2 ^ k) := by omega
      simp only [hHalf, hMore, ExtendedMantissa.roundedMantissa, ExtendedMantissa.accuracy,
        Accuracy.roundToNearestEven, decide_true, ne_eq, not_false_eq_true, and_self, hAbove,
        if_true, if_neg (Nat.not_lt.mpr hHalf)]
    · have hTie : 2 * (m % 2 ^ k) = 2 ^ k := by omega
      simp only [hTie, ExtendedMantissa.roundedMantissa, ExtendedMantissa.accuracy,
        Accuracy.roundToNearestEven, Nat.le_refl, Nat.lt_irrefl, decide_true, ne_eq,
        not_true_eq_false, and_false, decide_false, if_false, beq_iff_eq]
      split <;> omega
  · have hBelow : 2 * (m % 2 ^ k) < 2 ^ k := by omega
    simp only [if_pos hBelow, hHalf, ExtendedMantissa.roundedMantissa, decide_false]
    by_cases hMore : 2 * (m % 2 ^ k) ≠ 0 ∧ 2 * (m % 2 ^ k) ≠ 2 ^ k
    · simp only [decide_eq_true hMore, ExtendedMantissa.accuracy, Accuracy.roundToNearestEven]
    · simp only [decide_eq_false hMore, ExtendedMantissa.accuracy, Accuracy.roundToNearestEven]

/-- The exponent at which a number that is not too small has 53 digits. -/
theorem targetExponent_of_normal {m : Nat} {e : Int} (h : -1022 ≤ m.log2 + e) :
    Format.binary64.targetExponent (totalExponent m e) = m.log2 + e - 52 := by
  simp only [Format.targetExponent, totalExponent, Format.mantissaBits, Format.minExponent]
  omega

theorem shiftToTargetExponent_of_normal {m : Nat} {e : Int} (hLog : 52 ≤ m.log2)
    (h : -1022 ≤ m.log2 + e) :
    shiftToTargetExponent Format.binary64 m e .exact =
      (ExtendedMantissa.ofMantissaAndAccuracy m .exact >>> (m.log2 - 52),
        e + (m.log2 - 52 : Nat)) := by
  have hAmount : (m.log2 + e - 52 - e).toNat = m.log2 - 52 := by omega
  simp only [shiftToTargetExponent, targetExponent_of_normal h, shiftToExponent, hAmount]

/-- An exact number of at least 53 digits is rounded to 53 of them. A carry out of
the mantissa goes into the exponent. -/
theorem exists_roundWithAccuracy (s : Sign) {m : Nat} {e : Int} (hLog : 52 ≤ m.log2)
    (hLow : -1022 ≤ m.log2 + e) :
    ∃ mantissa exponent, ∃ hPos : 0 < mantissa, ∃ carry : Nat,
      roundWithAccuracy Format.binary64 s m e .exact = .finite s mantissa exponent hPos ∧
        2 ^ 52 ≤ mantissa ∧ mantissa < 2 ^ 53 ∧
        exponent = e + (m.log2 - 52 : Nat) + carry ∧
        mantissa * 2 ^ carry = roundHalfEven m (spacing m) := by
  have hRounded :
      (ExtendedMantissa.ofMantissaAndAccuracy m .exact >>> (m.log2 - 52)).roundedMantissa =
        roundHalfEven m (spacing m) := roundedMantissa_shiftRight m _
  obtain ⟨hLower, hUpper⟩ := roundHalfEven_spacing hLog
  have hFirst : roundWithAccuracy Format.binary64 s m e .exact =
      let shifted := shiftToTargetExponent Format.binary64 (roundHalfEven m (spacing m))
        (e + (m.log2 - 52 : Nat)) .exact
      if h : shifted.1.mantissa = 0 then .zero s
      else .finite s shifted.1.mantissa shifted.2 (Nat.pos_of_ne_zero h) := by
    simp only [roundWithAccuracy, shiftToTargetExponent_of_normal hLog hLow, hRounded]
  rw [hFirst]
  rcases Nat.lt_or_eq_of_le hUpper with hLess | hCarry
  · have hDigits : (roundHalfEven m (spacing m)).log2 = 52 :=
      (Nat.log2_eq_iff (by omega)).mpr ⟨hLower, hLess⟩
    refine ⟨roundHalfEven m (spacing m), e + (m.log2 - 52 : Nat), by omega, 0, ?_, hLower, hLess,
      by omega, by omega⟩
    rw [shiftToTargetExponent_of_normal (by omega) (by omega), hDigits]
    simp only [shiftRight_exact, Nat.sub_self, Nat.pow_zero, Nat.div_one]
    rw [dif_neg (by omega)]
    congr 1
    omega
  · have hDigits : (2 ^ 53).log2 = 53 := Nat.log2_two_pow
    refine ⟨2 ^ 52, e + (m.log2 - 52 : Nat) + 1, by omega, 1, ?_, by omega, by omega, by omega,
      by omega⟩
    rw [hCarry, shiftToTargetExponent_of_normal (by omega) (by omega), hDigits]
    simp only [shiftRight_exact]
    rfl

/-- The sign is found again in what is stored. -/
theorem unpackSign_packComponents (s : Sign) (e : BitVec 11) (m : BitVec 52) :
    Sign.ofBitVec (unpackSign (packComponents Format.binary64 s e m)) = s := by
  -- The sign lies above both other components.
  simp only [unpackSign, packComponents, BitVec.extractLsb]
  rw [BitVec.extractLsb'_append_eq_of_le (by omega), BitVec.extractLsb'_append_eq_of_le (by omega)]
  cases s <;> rfl

/-- A mantissa of 53 digits is stored without its leading one. -/
theorem toNat_implicit {m : Nat} (hLower : 2 ^ 52 ≤ m) (hUpper : m < 2 ^ 53) :
    (1#1 ++ BitVec.ofNat 52 m).toNat = m := by
  rw [BitVec.toNat_append, ← Nat.shiftLeft_add_eq_or_of_lt (BitVec.ofNat 52 m).isLt]
  simp only [BitVec.toNat_ofNat, Nat.shiftLeft_eq]
  omega

/-- A mantissa of 53 digits is stored behind its exponent when this has room. -/
theorem pack_normal (s : Sign) {m : Nat} {e : Int} (hPos : 0 < m) (hLower : 2 ^ 52 ≤ m)
    (hUpper : m < 2 ^ 53) (hLow : -1074 ≤ e) (hHigh : e < 972) :
    UnpackedFloat.pack Format.binary64 (.finite s m e hPos) =
      packComponents Format.binary64 s (BitVec.ofNat 11 (e + 1075).toNat) (BitVec.ofNat 52 m) := by
  have hLog : m.log2 + 1 = Format.binary64.mantissaBits := by
    rw [(Nat.log2_eq_iff (by omega)).mpr ⟨hLower, hUpper⟩]
    rfl
  have hBias : (e + Format.binary64.exponentBias + (52 : Nat) : Int).toNat = (e + 1075).toNat := by
    simp only [Format.exponentBias]
    omega
  rw [UnpackedFloat.pack, hBias, if_neg (by simp only; omega), if_pos hLog]

/-- A mantissa of 53 digits is stored without a loss when the exponent has room. -/
theorem unpack_pack_finite (s : Sign) {m : Nat} {e : Int} (hPos : 0 < m) (hLower : 2 ^ 52 ≤ m)
    (hUpper : m < 2 ^ 53) (hLow : -1074 ≤ e) (hHigh : e < 972) :
    (Float.Model.pack (.finite s m e hPos)).unpack = .finite s m e hPos := by
  have hExponent : (BitVec.ofNat 11 (e + 1075).toNat).toNat = (e + 1075).toNat := by
    rw [BitVec.toNat_ofNat]
    omega
  have hOnes : BitVec.ofNat 11 (e + 1075).toNat ≠ -1#11 := by
    intro h
    rw [← BitVec.toNat_inj, hExponent] at h
    simp only [BitVec.neg_one_eq_allOnes, BitVec.toNat_allOnes] at h
    omega
  have hZeros : BitVec.ofNat 11 (e + 1075).toNat ≠ 0#11 := by
    intro h
    rw [← BitVec.toNat_inj, hExponent, BitVec.toNat_zero] at h
    omega
  show UnpackedFloat.unpack Format.binary64 (UnpackedFloat.pack Format.binary64 _) = _
  rw [pack_normal s hPos hLower hUpper hLow hHigh]
  simp only [UnpackedFloat.unpack, unpackExponent_packComponents, unpackMantissa_packComponents,
    unpackSign_packComponents, hOnes, hZeros, if_false, toNat_implicit hLower hUpper, hExponent,
    UnpackedFloat.finite.injEq, true_and]
  simp only [Format.exponentBias]
  omega

/-- Beyond the largest exponent there is only infinity. -/
theorem unpack_pack_infinity (s : Sign) {m : Nat} {e : Int} (hPos : 0 < m) (hHigh : 972 ≤ e) :
    (Float.Model.pack (.finite s m e hPos)).unpack = .infinity s := by
  have hPacked : UnpackedFloat.pack Format.binary64 (.finite s m e hPos) =
      packedInfinity Format.binary64 s := by
    rw [UnpackedFloat.pack, if_pos]
    simp only [Format.exponentBias]
    omega
  show UnpackedFloat.unpack Format.binary64 (UnpackedFloat.pack Format.binary64 _) = _
  rw [hPacked, packedInfinity]
  simp only [UnpackedFloat.unpack, unpackExponent_packComponents, unpackMantissa_packComponents,
    unpackSign_packComponents]
  rfl

end NoteTemplate.Decimal
