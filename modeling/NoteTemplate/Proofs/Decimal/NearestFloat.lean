import NoteTemplate.Proofs.Decimal.FloatOfInt
import NoteTemplate.Proofs.Decimal.Interval

/-! Reading decimals. Whatever decimal lies in the interval of a floating-point number is
read as this number, on each of the ways that the reading can take. -/
namespace NoteTemplate.Decimal

open Float.Model Float.Model.UnpackedFloat

/-- The powers of ten in the table are exact. -/
def isPowerOfTen (i : ℕ) : UnpackedFloat → Bool
  | .finite .positive m e _ => 2 ^ 52 ≤ m ∧ -52 ≤ e ∧ m * 2 ^ (e + 52).toNat = 10 ^ i * 2 ^ 52
  | _ => false

theorem isPowerOfTen_table : ∀ i : Fin 23,
    isPowerOfTen i (Float.exactlyRepresentablePowersOfTen[i]).toModel.unpack = true := by
  decide +kernel

/-- The table of powers holds powers of ten. -/
theorem exists_of_isPowerOfTen {i : ℕ} {u : UnpackedFloat} (h : isPowerOfTen i u = true) :
    ∃ m e, ∃ hPos : 0 < m,
      u = .finite .positive m e hPos ∧ 2 ^ 52 ≤ m ∧ (m : ℚ) * 2 ^ e = 10 ^ i := by
  unfold isPowerOfTen at h
  split at h
  · next m e hPos =>
    obtain ⟨hLower, hLow, hValue⟩ := of_decide_eq_true h
    refine ⟨m, e, hPos, rfl, hLower, ?_⟩
    have hCast : (m : ℚ) * 2 ^ (e + 52).toNat = 10 ^ i * 2 ^ 52 := by exact_mod_cast hValue
    have hAmount : ((e + 52).toNat : ℤ) = e + 52 := Int.toNat_of_nonneg (by omega)
    rw [← zpow_natCast, hAmount, zpow_add₀ two_ne_zero, ← mul_assoc] at hCast
    exact mul_right_cancel₀ (by norm_num) hCast
  · cases h

/-- A small integer as a floating-point number. -/
theorem exists_toFloat_eq {n : ℕ} (hZero : n ≠ 0) (hFew : n < 2 ^ 53) :
    ∃ m e, ∃ hPos : 0 < m, n.toUInt64.toFloat.toModel.unpack = .finite .positive m e hPos ∧
      2 ^ 52 ≤ m ∧ (m : ℚ) * 2 ^ e = n := by
  obtain ⟨m, k, hPos, hFloat, hLower, hUpper, hValue⟩ := exists_toFloat hZero hFew
  rw [nearest_eq_self hFew.le] at hValue
  obtain ⟨hSmall, -⟩ := mantissa_mul_of_value hLower hFew hValue
  refine ⟨m, k - 52, hPos, ?_, hLower, ?_⟩
  · rw [hFloat]
    exact unpack_pack_finite .positive hPos hLower hUpper (by omega) (by omega)
  · have hCast : (n : ℚ) * 2 ^ 52 = m * 2 ^ k := by exact_mod_cast hValue
    rw [zpow_sub₀ two_ne_zero, zpow_natCast, ← mul_div_assoc, ← hCast]
    norm_num

theorem le_log2_mul {m n : ℕ} (hm : 2 ^ 52 ≤ m) (hn : 0 < n) : 52 ≤ (m * n).log2 :=
  (Nat.le_log2 (by positivity)).mpr (hm.trans (Nat.le_mul_of_pos_right m hn))

section
variable {n : ℕ} (hZero : n ≠ 0) {mantissa : ℕ} {exponent : ℤ} (hLegal : Legal mantissa exponent)
include hZero

/-- An integer in the interval. With few digits it is multiplied as a floating-point
number, and else as what it is. -/
theorem ofScientific_false (hInterval : InInterval mantissa exponent n) :
    Float.ofScientific n false 0 =
      ⟨Float.Model.pack (.finite .positive mantissa exponent hLegal.pos)⟩ := by
  by_cases hFew : n < 2 ^ 53
  · obtain ⟨m, e, hPos, hUnpack, hLower, hValue⟩ := exists_toFloat_eq hZero hFew
    obtain ⟨p, q, hPower, hTen, -, hOne⟩ := exists_of_isPowerOfTen (isPowerOfTen_table 0)
    have hMul := mul_of_inInterval (a := e) (b := q) hPos hPower hLegal (le_log2_mul hLower hPower)
      (by rwa [hValue, hOne, Fin.val_zero, pow_zero, mul_one])
    rw [Float.ofScientific, dif_pos ⟨hFew, by omega⟩, ← hMul, ← hUnpack, ← hTen]
    rfl
  · have hPos : 0 < n <<< 53 := by
      rw [Nat.shiftLeft_eq]
      positivity
    have hMany : 2 ^ 52 ≤ n <<< 53 := by
      rw [Nat.shiftLeft_eq]
      omega
    have hValue : ((n <<< 53 : ℕ) : ℚ) * 2 ^ (-53 : ℤ) * ((10 ^ 0 : ℕ) * 2 ^ (0 : ℤ)) = n := by
      rw [Nat.shiftLeft_eq, zpow_neg, zpow_zero]
      push_cast
      field_simp
    have hOne : 0 < 10 ^ 0 := Nat.one_pos
    have hMul := mul_of_inInterval (a := -53) (b := 0) hPos hOne hLegal (le_log2_mul hMany hOne)
      (by rwa [hValue])
    rw [Float.ofScientific, dif_neg fun h => hFew h.1, ← hMul]
    have hNegative : ¬(0 : Int) < -((2 : Int) ^ 11 + (n.log2 : Int)) := by omega
    show (⟨Float.Model.pack (UnpackedFloat.ofScientific Format.binary64 n 0)⟩ : Float) = _
    rw [UnpackedFloat.ofScientific, dif_neg hZero, if_neg (by decide), if_neg hNegative,
      if_pos (by decide)]
    rfl

/-- A quotient by a power of ten in the interval. -/
theorem ofScientific_true {k : ℕ} (hShort : k ≤ 2048 + n.log2)
    (hInterval : InInterval mantissa exponent (n / 10 ^ k)) :
    Float.ofScientific n true k =
      ⟨Float.Model.pack (.finite .positive mantissa exponent hLegal.pos)⟩ := by
  by_cases hFast : n < 2 ^ 53 ∧ k ≤ 22
  · obtain ⟨m, e, hPos, hUnpack, hLower, hValue⟩ := exists_toFloat_eq hZero hFast.1
    obtain ⟨p, q, hPower, hTen, hLong, hOne⟩ :=
      exists_of_isPowerOfTen (isPowerOfTen_table ⟨k, by omega⟩)
    have hDiv := div_of_inInterval (a := e) (b := q) hPos hPower hLegal
      (by rwa [hValue, hOne])
    rw [Float.ofScientific, dif_pos hFast, ← hDiv, ← hUnpack, ← hTen]
    rfl
  · rcases Nat.eq_zero_or_pos k with rfl | hSome
    · rw [pow_zero, div_one] at hInterval
      have hSlow := ofScientific_false hZero hLegal hInterval
      rw [Float.ofScientific, dif_neg fun h => hFast h] at hSlow ⊢
      exact hSlow
    · have hValue : (n : ℚ) * 2 ^ (0 : ℤ) / ((10 ^ (-(-(k : ℤ))).toNat : ℕ) * 2 ^ (0 : ℤ)) =
          n / 10 ^ k := by
        simp
      have hPower : 0 < 10 ^ (-(-(k : ℤ))).toNat := Nat.pow_pos (by decide)
      have hDiv := div_of_inInterval (a := 0) (b := 0) (Nat.pos_of_ne_zero hZero) hPower hLegal
        (by rwa [hValue])
      rw [Float.ofScientific, dif_neg hFast, ← hDiv]
      have hLarge : ¬-(k : ℤ) > 2 ^ 11 := by omega
      have hSmall : ¬-(k : ℤ) < -((2 : ℤ) ^ 11 + (n.log2 : ℤ)) := by omega
      show (⟨Float.Model.pack (UnpackedFloat.ofScientific Format.binary64 n (Int.negOfNat k))⟩ :
        Float) = _
      rw [Int.negOfNat_eq, Int.ofNat_eq_natCast, UnpackedFloat.ofScientific, dif_neg hZero,
        if_neg hLarge, if_neg hSmall, if_neg (by omega)]

end

/-- A number with fewer digits is stored with the least exponent, which is no exponent. -/
theorem pack_subnormal (s : Sign) {m : ℕ} (hPos : 0 < m) (hUpper : m < 2 ^ 52) :
    UnpackedFloat.pack Format.binary64 (.finite s m (-1074) hPos) =
      packComponents Format.binary64 s 0#11 (BitVec.ofNat 52 m) := by
  have hLog : ¬m.log2 + 1 = Format.binary64.mantissaBits := by
    have := (Nat.log2_lt hPos.ne').mpr hUpper
    simp only [Format.mantissaBits]
    omega
  have hRoom : ¬2 ^ Format.binary64.exponentBits ≤
      ((-1074 : ℤ) + Format.binary64.exponentBias + (52 : ℕ)).toNat + 1 := by
    simp only [Format.exponentBias]
    omega
  rw [UnpackedFloat.pack, if_neg hRoom, if_neg hLog]

/-- A number with fewer digits at the least exponent is stored without a loss, too. -/
theorem unpack_pack_subnormal (s : Sign) {m : ℕ} (hPos : 0 < m) (hUpper : m < 2 ^ 52) :
    (Float.Model.pack (.finite s m (-1074) hPos)).unpack = .finite s m (-1074) hPos := by
  have hToNat : (BitVec.ofNat 52 m).toNat = m := by
    rw [BitVec.toNat_ofNat]
    exact Nat.mod_eq_of_lt hUpper
  have hSome : BitVec.ofNat 52 m ≠ 0#52 := by
    intro hZero
    rw [hZero] at hToNat
    exact hPos.ne hToNat
  have hOnes : (0#11 : BitVec 11) ≠ -1#11 := by decide
  show UnpackedFloat.unpack Format.binary64 (UnpackedFloat.pack Format.binary64 _) = _
  rw [pack_subnormal s hPos hUpper]
  simp only [UnpackedFloat.unpack, unpackExponent_packComponents, unpackMantissa_packComponents,
    unpackSign_packComponents, hOnes, hSome, if_false, if_true, hToNat]
  rfl

theorem unpack_pack_of_legal (s : Sign) {m : ℕ} {e : ℤ} (h : Legal m e) :
    (Float.Model.pack (.finite s m e h.pos)).unpack = .finite s m e h.pos := by
  by_cases hFull : 2 ^ 52 ≤ m
  · exact unpack_pack_finite s h.pos hFull h.few h.low h.high
  · obtain rfl := h.full.resolve_left hFull
    exact unpack_pack_subnormal s h.pos (Nat.lt_of_not_le hFull)

/-- A finite floating-point number, but for zero. -/
def finite (negative : Bool) {m : ℕ} {e : ℤ} (h : Legal m e) : Float :=
  ⟨Float.Model.pack (.finite (if negative then .negative else .positive) m e h.pos)⟩

theorem neg_finite {m : ℕ} {e : ℤ} (h : Legal m e) : -finite false h = finite true h := by
  show (⟨Float.Model.pack (Float.Model.pack (.finite .positive m e h.pos)).unpack.neg⟩ : Float) = _
  rw [unpack_pack_of_legal _ h]
  rfl

/-- What rounds to a finite number is neither too small nor too large to be read. -/
theorem InInterval.bounds {m : ℕ} {e : ℤ} {x : ℚ} (hLegal : Legal m e) (h : InInterval m e x) :
    2 ^ (-1075 : ℤ) ≤ x ∧ x < 2 ^ (1024 : ℤ) := by
  have hClose := abs_le.mp h.rounds.close
  have hPos : (1 : ℚ) ≤ m := by exact_mod_cast hLegal.pos
  have hFew : (m : ℚ) + 1 ≤ 2 ^ 53 := by exact_mod_cast hLegal.few
  have hScaled : x = x / 2 ^ e * 2 ^ e := (div_mul_cancel₀ x (by positivity)).symm
  have hPower : (0 : ℚ) < 2 ^ e := by positivity
  constructor
  · calc
      (2 : ℚ) ^ (-1075 : ℤ) ≤ 2 ^ (e - 1) :=
        zpow_le_zpow_right₀ one_le_two (by linarith [hLegal.low])
      _ = 1 / 2 * 2 ^ e := by
        rw [zpow_sub_one₀ two_ne_zero]
        ring
      _ ≤ x / 2 ^ e * 2 ^ e := mul_le_mul_of_nonneg_right (by linarith) hPower.le
      _ = x := hScaled.symm
  · calc
      x = x / 2 ^ e * 2 ^ e := hScaled
      _ < 2 ^ 53 * 2 ^ e := mul_lt_mul_of_pos_right (by linarith) hPower
      _ = 2 ^ (53 + e) := by rw [zpow_add₀ two_ne_zero]; norm_num
      _ ≤ 2 ^ (1024 : ℤ) := zpow_le_zpow_right₀ one_le_two (by linarith [hLegal.high])

/-- The length of a number in decimal. -/
theorem length_repr_bounds {n : ℕ} (hZero : n ≠ 0) :
    0 < n.repr.length ∧ 10 ^ (n.repr.length - 1) ≤ n ∧ n < 10 ^ n.repr.length := by
  have hPos : 0 < n.repr.length := Nat.length_repr_pos
  refine ⟨hPos, ?_, (Nat.length_repr_le_iff hPos).mp le_rfl⟩
  rcases Nat.eq_zero_or_pos (n.repr.length - 1) with hOne | hMany
  · rw [hOne]
    exact Nat.one_le_iff_ne_zero.mpr hZero
  · exact Nat.le_of_not_lt fun hFew => by
      have := (Nat.length_repr_le_iff hMany).mpr hFew
      omega

theorem length_repr_le {n : ℕ} (hZero : n ≠ 0) : n.repr.length ≤ n.log2 + 1 := by
  obtain ⟨-, hLower, -⟩ := length_repr_bounds hZero
  have hLog : n.repr.length - 1 ≤ n.log2 :=
    (Nat.le_log2 hZero).mpr ((Nat.pow_le_pow_left (by omega) _).trans hLower)
  omega

theorem two_zpow_le_ten_zpow : (2 : ℚ) ^ (1200 : ℤ) ≤ 10 ^ (400 : ℤ) := by
  have hEight : (2 : ℚ) ^ 3 ≤ 10 := by norm_num
  have hPower := pow_le_pow_left₀ (by norm_num) hEight 400
  rwa [← pow_mul, ← zpow_natCast, ← zpow_natCast] at hPower

/-- A decimal in an interval is of a size that the format is asked about. -/
theorem size_bounds {n : ℕ} (hZero : n ≠ 0) {e : ℤ} {mantissa : ℕ} {exponent : ℤ}
    (hLegal : Legal mantissa exponent) (hInterval : InInterval mantissa exponent (n * 10 ^ e)) :
    -400 ≤ n.repr.length + e ∧ n.repr.length + e ≤ 400 := by
  obtain ⟨hLow, hHigh⟩ := hInterval.bounds hLegal
  obtain ⟨hPos, hLower, hUpper⟩ := length_repr_bounds hZero
  have hPower : (0 : ℚ) < 10 ^ e := by positivity
  have hLower' : (10 : ℚ) ^ (n.repr.length - 1 : ℤ) ≤ n := by
    have hCast : (n.repr.length - 1 : ℤ) = (n.repr.length - 1 : ℕ) := by omega
    rw [hCast, zpow_natCast]
    exact_mod_cast hLower
  have hUpper' : (n : ℚ) < 10 ^ (n.repr.length : ℤ) := by
    rw [zpow_natCast]
    exact_mod_cast hUpper
  constructor
  · by_contra hSmall
    have hTiny : (n : ℚ) * 10 ^ e < 2 ^ (-1075 : ℤ) := by
      calc
        (n : ℚ) * 10 ^ e < 10 ^ (n.repr.length : ℤ) * 10 ^ e :=
          mul_lt_mul_of_pos_right hUpper' hPower
        _ = 10 ^ (n.repr.length + e) := (zpow_add₀ (by norm_num) _ _).symm
        _ ≤ 10 ^ (-400 : ℤ) := zpow_le_zpow_right₀ (by norm_num) (by omega)
        _ ≤ 2 ^ (-1200 : ℤ) := by
          rw [zpow_neg, zpow_neg]
          exact inv_anti₀ (by positivity) two_zpow_le_ten_zpow
        _ ≤ 2 ^ (-1075 : ℤ) := zpow_le_zpow_right₀ one_le_two (by norm_num)
    exact absurd hLow (not_le.mpr hTiny)
  · by_contra hLarge
    have hHuge : (2 : ℚ) ^ (1024 : ℤ) ≤ n * 10 ^ e := by
      calc
        (2 : ℚ) ^ (1024 : ℤ) ≤ 2 ^ (1200 : ℤ) := zpow_le_zpow_right₀ one_le_two (by norm_num)
        _ ≤ 10 ^ (400 : ℤ) := two_zpow_le_ten_zpow
        _ ≤ 10 ^ ((n.repr.length - 1 : ℤ) + e) := zpow_le_zpow_right₀ (by norm_num) (by omega)
        _ = 10 ^ (n.repr.length - 1 : ℤ) * 10 ^ e := zpow_add₀ (by norm_num) _ _
        _ ≤ n * 10 ^ e := mul_le_mul_of_nonneg_right hLower' hPower.le
    exact absurd hHigh (not_lt.mpr hHuge)

/-- A decimal in the interval of a floating-point number is read as this number. -/
theorem ofScientific_of_inInterval {n : ℕ} (hZero : n ≠ 0) {e : ℤ} {mantissa : ℕ} {exponent : ℤ}
    (hLegal : Legal mantissa exponent) (hInterval : InInterval mantissa exponent (n * 10 ^ e))
    (negative : Bool) : ofScientific negative n e = finite negative hLegal := by
  obtain ⟨hSmall, hLarge⟩ := size_bounds hZero hLegal hInterval
  have hMagnitude : ofScientific false n e = finite false hLegal := by
    simp only [ofScientific, beq_iff_eq, hZero, if_false, if_neg (not_lt.mpr hLarge),
      if_neg (not_lt.mpr hSmall), Bool.false_eq_true]
    split
    · next hNegative =>
      obtain ⟨k, rfl⟩ : ∃ k : ℕ, e = -k := ⟨(-e).toNat, by omega⟩
      rw [zpow_neg, zpow_natCast, ← div_eq_mul_inv] at hInterval
      rw [neg_neg, Int.toNat_natCast]
      have hLength := length_repr_le hZero
      exact ofScientific_true hZero hLegal (by omega) hInterval
    · next hPositive =>
      obtain ⟨k, rfl⟩ : ∃ k : ℕ, e = k := ⟨e.toNat, by omega⟩
      rw [zpow_natCast] at hInterval
      refine ofScientific_false (Nat.mul_ne_zero hZero (Nat.pow_pos (by decide)).ne') hLegal ?_
      show InInterval _ _ ((n * 10 ^ k : ℕ) : ℚ)
      exact_mod_cast hInterval
  cases negative
  · exact hMagnitude
  · rw [← neg_finite, ← hMagnitude]
    rfl

end NoteTemplate.Decimal
