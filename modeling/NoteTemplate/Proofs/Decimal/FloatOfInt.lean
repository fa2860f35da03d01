import NoteTemplate.Proofs.Decimal.Rounding

/-! Floating-point numbers of integers. The number of an integer is the nearest
integer of 53 binary digits, or there is none because that is too large, and
floating-point numbers of integers compare like the integers that they are. -/
namespace NoteTemplate.Decimal

open Float.Model Float.Model.UnpackedFloat

/-- An unpacked number is an integer: zero, or a mantissa of 53 digits times a
power of two. -/
inductive Unpacks : UnpackedFloat → Int → Prop where
  | zero (s : Sign) : Unpacks (.zero s) 0
  | finite (s : Sign) {m n : Nat} {e : Int} (hPos : 0 < m) (k : Nat) (hLower : 2 ^ 52 ≤ m)
      (hUpper : m < 2 ^ 53) (hExponent : e = k - 52) (hRoom : k < 1024)
      (hValue : n * 2 ^ 52 = m * 2 ^ k) : Unpacks (.finite s m e hPos) (s.apply n)

/-- A sign changes nothing but the sign. -/
theorem Unpacks.neg {u : UnpackedFloat} {a : Int} (h : Unpacks u a) : Unpacks u.neg (-a) := by
  cases h with
  | zero s => exact .zero (-s)
  | @finite s m n e hPos k hLower hUpper hExponent hRoom hValue =>
      have hSign : -s.apply (n : Int) = (-s).apply n := by
        cases s
        · exact Int.neg_neg _
        · rfl
      rw [hSign]
      exact .finite (-s) hPos k hLower hUpper hExponent hRoom hValue

/-- An integer that is stored is found again. -/
theorem Unpacks.unpack_pack {u : UnpackedFloat} {a : Int} (h : Unpacks u a) :
    (Float.Model.pack u).unpack = u := by
  cases h with
  | zero s => cases s <;> rfl
  | finite s hPos k hLower hUpper hExponent hRoom _ =>
      exact unpack_pack_finite s hPos hLower hUpper (by omega) (by omega)

theorem Unpacks.isInf_eq_false {u : UnpackedFloat} {a : Int} (h : Unpacks u a) :
    u.isInf = false := by
  cases h <;> rfl

/-- Of two mantissas of 53 digits the one with the larger exponent is the larger
number, and with one exponent it is the larger mantissa. -/
theorem compare_mantissas {a b m n k l : Nat} (hm : 2 ^ 52 ≤ m ∧ m < 2 ^ 53)
    (hn : 2 ^ 52 ≤ n ∧ n < 2 ^ 53) (ha : a * 2 ^ 52 = m * 2 ^ k) (hb : b * 2 ^ 52 = n * 2 ^ l) :
    (compare ((k : Int) - 52) ((l : Int) - 52)).then (compare m n) = compare a b := by
  have hApart {a b m n k l : Nat} (hm : m < 2 ^ 53) (hn : 2 ^ 52 ≤ n)
      (ha : a * 2 ^ 52 = m * 2 ^ k) (hb : b * 2 ^ 52 = n * 2 ^ l) (h : k < l) : a < b := by
    have hScaled : a * 2 ^ 52 < b * 2 ^ 52 := by
      calc
        a * 2 ^ 52 = m * 2 ^ k := ha
        _ < 2 ^ 53 * 2 ^ k := Nat.mul_lt_mul_of_pos_right hm (Nat.two_pow_pos k)
        _ = 2 ^ 52 * 2 ^ (k + 1) := by
          rw [← Nat.pow_add, ← Nat.pow_add]
          congr 1
          omega
        _ ≤ 2 ^ 52 * 2 ^ l := Nat.mul_le_mul_left _ (Nat.pow_le_pow_right (by omega) h)
        _ ≤ n * 2 ^ l := Nat.mul_le_mul_right _ hn
        _ = b * 2 ^ 52 := hb.symm
    omega
  rcases Nat.lt_trichotomy k l with hLess | rfl | hMore
  · rw [Int.compare_eq_lt.mpr (by omega), Nat.compare_eq_lt.mpr (hApart hm.2 hn.1 ha hb hLess)]
    rfl
  · have hMantissas : compare m n = compare a b := by
      have hPos : 0 < 2 ^ k := Nat.two_pow_pos k
      rcases Nat.lt_trichotomy m n with hLess | rfl | hMore
      · have := Nat.mul_lt_mul_of_pos_right hLess hPos
        rw [Nat.compare_eq_lt.mpr hLess, Nat.compare_eq_lt.mpr (by omega)]
      · rw [Nat.compare_eq_eq.mpr rfl, Nat.compare_eq_eq.mpr (by omega)]
      · have := Nat.mul_lt_mul_of_pos_right hMore hPos
        rw [Nat.compare_eq_gt.mpr hMore, Nat.compare_eq_gt.mpr (by omega)]
    rw [Int.compare_eq_eq.mpr rfl, ← hMantissas]
    rfl
  · rw [Int.compare_eq_gt.mpr (by omega), Nat.compare_eq_gt.mpr (hApart hn.2 hm.1 hb ha hMore)]
    rfl

theorem compare_natCast (a b : Nat) : compare (a : Int) b = compare a b := by
  rcases Nat.lt_trichotomy a b with hLess | rfl | hMore
  · rw [Nat.compare_eq_lt.mpr hLess, Int.compare_eq_lt.mpr (by omega)]
  · rw [Nat.compare_eq_eq.mpr rfl, Int.compare_eq_eq.mpr rfl]
  · rw [Nat.compare_eq_gt.mpr hMore, Int.compare_eq_gt.mpr (by omega)]

/-- Negative numbers compare the other way round. -/
theorem compare_neg_natCast (a b : Nat) : compare (-(a : Int)) (-b) = (compare a b).swap := by
  rcases Nat.lt_trichotomy a b with hLess | rfl | hMore
  · rw [Nat.compare_eq_lt.mpr hLess, Int.compare_eq_gt.mpr (by omega)]
    rfl
  · rw [Nat.compare_eq_eq.mpr rfl, Int.compare_eq_eq.mpr rfl]
    rfl
  · rw [Nat.compare_eq_gt.mpr hMore, Int.compare_eq_lt.mpr (by omega)]
    rfl

/-- Unpacked integers compare like integers. -/
theorem Unpacks.compare_eq {u v : UnpackedFloat} {a b : Int} (hu : Unpacks u a) (hv : Unpacks v b) :
    u.compare v = some (compare a b) := by
  have hPositive {n m k : Nat} (hPos : 0 < m) (hValue : n * 2 ^ 52 = m * 2 ^ k) : 0 < n := by
    have := Nat.mul_pos hPos (Nat.two_pow_pos k)
    omega
  cases hu with
  | zero s =>
      cases hv with
      | zero t => rfl
      | finite t hPos k _ _ _ _ hValue =>
          have := hPositive hPos hValue
          cases t with
          | negative =>
              exact congrArg some (Int.compare_eq_gt.mpr (by simp only [Sign.apply]; omega)).symm
          | positive =>
              exact congrArg some (Int.compare_eq_lt.mpr (by simp only [Sign.apply]; omega)).symm
  | @finite s m a e hPos k hLower hUpper hExponent _ hValue =>
      have hFirst := hPositive hPos hValue
      cases hv with
      | zero t =>
          cases s with
          | negative =>
              exact congrArg some (Int.compare_eq_lt.mpr (by simp only [Sign.apply]; omega)).symm
          | positive =>
              exact congrArg some (Int.compare_eq_gt.mpr (by simp only [Sign.apply]; omega)).symm
      | @finite t n b f hPosB l hLowerB hUpperB hExponentB _ hValueB =>
          have hSecond := hPositive hPosB hValueB
          have hBoth := compare_mantissas ⟨hLower, hUpper⟩ ⟨hLowerB, hUpperB⟩ hValue hValueB
          subst hExponent hExponentB
          cases s <;> cases t
          · show some ((compare _ _).then (compare m n)).swap = _
            rw [hBoth]
            exact congrArg some (compare_neg_natCast a b).symm
          · exact congrArg some (Int.compare_eq_lt.mpr (by simp only [Sign.apply]; omega)).symm
          · exact congrArg some (Int.compare_eq_gt.mpr (by simp only [Sign.apply]; omega)).symm
          · show some ((compare _ _).then (compare m n)) = _
            rw [hBoth]
            exact congrArg some (compare_natCast a b).symm

theorem log2_mul_two_pow {n : Nat} (hZero : n ≠ 0) (k : Nat) : (n * 2 ^ k).log2 = n.log2 + k := by
  induction k with
  | zero => simp
  | succ k ih =>
      have hPos : n * 2 ^ k ≠ 0 :=
        Nat.mul_ne_zero hZero (Nat.pos_iff_ne_zero.mp (Nat.two_pow_pos k))
      rw [Nat.pow_succ, ← Nat.mul_assoc, Nat.mul_comm, Nat.log2_two_mul hPos, ih, Nat.add_assoc]

/-- Rounding an integer, whose binary digits may stand behind zeros that the
exponent takes back, gives the nearest integer of 53 digits. -/
theorem exists_roundWithAccuracy_nat (s : Sign) {n : Nat} (hZero : n ≠ 0) (shift : Nat)
    (hLog : 52 ≤ n.log2 + shift) :
    ∃ m k : Nat, ∃ hPos : 0 < m,
      roundWithAccuracy Format.binary64 s (n * 2 ^ shift) (-(shift : Int)) .exact =
        .finite s m ((k : Int) - 52) hPos ∧
        2 ^ 52 ≤ m ∧ m < 2 ^ 53 ∧ nearest n * 2 ^ 52 = m * 2 ^ k := by
  have hDigits : (n * 2 ^ shift).log2 = n.log2 + shift := log2_mul_two_pow hZero shift
  obtain ⟨m, e, hPos, carry, hRound, hLower, hUpper, hExponent, hMantissa⟩ :=
    exists_roundWithAccuracy s (m := n * 2 ^ shift) (e := -(shift : Int)) (by omega) (by omega)
  have hKept : roundHalfEven (n * 2 ^ shift) (spacing (n * 2 ^ shift)) * 2 ^ n.log2 =
      nearest n * 2 ^ 52 := by
    rw [spacing, hDigits]
    by_cases hMany : 52 ≤ n.log2
    · have hSpacing : 2 ^ (n.log2 + shift - 52) = spacing n * 2 ^ shift := by
        rw [spacing, ← Nat.pow_add]
        congr 1
        omega
      have hBinade : 2 ^ n.log2 = spacing n * 2 ^ 52 := by
        rw [spacing, ← Nat.pow_add]
        congr 1
        omega
      rw [hSpacing, roundHalfEven_mul _ _ (Nat.two_pow_pos shift), hBinade, nearest, Nat.mul_assoc]
    · have hPower : 2 ^ shift = 2 ^ (52 - n.log2) * 2 ^ (n.log2 + shift - 52) := by
        rw [← Nat.pow_add]
        congr 1
        omega
      have hWhole : 2 ^ (52 - n.log2) * 2 ^ n.log2 = 2 ^ 52 := by
        rw [← Nat.pow_add]
        congr 1
        omega
      have hFew : n ≤ 2 ^ 53 := Nat.le_of_lt ((Nat.log2_lt hZero).mp (by omega))
      rw [hPower, ← Nat.mul_assoc,
        roundHalfEven_of_dvd (Nat.two_pow_pos _) (Nat.dvd_mul_left _ _),
        Nat.mul_div_cancel _ (Nat.two_pow_pos _), Nat.mul_assoc, hWhole, nearest_eq_self hFew]
  refine ⟨m, n.log2 + carry, hPos, ?_, hLower, hUpper, ?_⟩
  · rw [hRound]
    congr 1
    omega
  · rw [← hKept, ← hMantissa, Nat.mul_assoc, Nat.pow_add, Nat.mul_comm (2 ^ carry)]

/-- A machine word of at most 53 digits becomes a floating-point number. -/
theorem exists_toFloat {n : Nat} (hZero : n ≠ 0) (hFew : n < 2 ^ 53) :
    ∃ m k : Nat, ∃ hPos : 0 < m,
      n.toUInt64.toFloat = ⟨Float.Model.pack (.finite .positive m ((k : Int) - 52) hPos)⟩ ∧
        2 ^ 52 ≤ m ∧ m < 2 ^ 53 ∧ nearest n * 2 ^ 52 = m * 2 ^ k := by
  have hLog : n.log2 < 53 := (Nat.log2_lt hZero).mpr hFew
  obtain ⟨m, k, hPos, hRound, hLower, hUpper, hValue⟩ :=
    exists_roundWithAccuracy_nat .positive hZero (52 - n.log2) (by omega)
  refine ⟨m, k, hPos, ?_, hLower, hUpper, hValue⟩
  have hToNat : n.toUInt64.toNat = n := Nat.mod_eq_of_lt (by omega)
  have hAmount : (-((n.log2 : Int) + 0 - 52)).toNat = 52 - n.log2 := by omega
  have hCompare : compare (n : Int) 0 = .gt := Int.compare_eq_gt.mpr (by omega)
  rw [← hRound]
  simp only [UInt64.toFloat, Float.Model.ofUInt64, UnpackedFloat.ofUInt64, UnpackedFloat.ofNat,
    UnpackedFloat.ofInt, UnpackedFloat.normalize, hToNat, hCompare, UnpackedFloat.round,
    Int.toNat_natCast, decreaseExponent, targetExponent_of_normal (m := n) (e := 0) (by omega),
    Int.zero_sub, hAmount, Nat.shiftLeft_eq]

/-- The mantissa of a small integer's float, moved up to the scale of a product of mantissas. -/
theorem mantissa_mul_of_value {m n k : Nat} (hLower : 2 ^ 52 ≤ m) (hFew : n < 2 ^ 53)
    (hValue : n * 2 ^ 52 = m * 2 ^ k) : k ≤ 52 ∧ m * 2 ^ 52 = n * 2 ^ (104 - k) := by
  have hSmall : k ≤ 52 := Nat.le_of_not_lt fun hLarge => by
    have hPower : 2 ^ 53 ≤ 2 ^ k := Nat.pow_le_pow_right (by omega) hLarge
    have hProduct := Nat.mul_le_mul hLower hPower
    omega
  refine ⟨hSmall, Nat.eq_of_mul_eq_mul_right (Nat.two_pow_pos k) ?_⟩
  calc
    m * 2 ^ 52 * 2 ^ k = n * 2 ^ 52 * 2 ^ 52 := by rw [hValue, Nat.mul_right_comm]
    _ = n * 2 ^ (104 - k + k) := by
      rw [Nat.mul_assoc, ← Nat.pow_add, Nat.sub_add_cancel (by omega)]
    _ = n * 2 ^ (104 - k) * 2 ^ k := by rw [Nat.pow_add, Nat.mul_assoc]

/-- An integer that fits a mantissa takes the short way: its own float, multiplied by one. -/
theorem exists_ofScientific_of_lt {n : Nat} (hZero : n ≠ 0) (hFew : n < 2 ^ 53) :
    ∃ m k : Nat, ∃ hPos : 0 < m,
      Float.ofScientific n false 0 =
        ⟨Float.Model.pack (.finite .positive m ((k : Int) - 52) hPos)⟩ ∧
        2 ^ 52 ≤ m ∧ m < 2 ^ 53 ∧ nearest n * 2 ^ 52 = m * 2 ^ k := by
  obtain ⟨m, k, hPos, hWord, hLower, hUpper, hValue⟩ := exists_toFloat hZero hFew
  rw [nearest_eq_self (Nat.le_of_lt hFew)] at hValue
  obtain ⟨hSmall, hShift⟩ := mantissa_mul_of_value hLower hFew hValue
  obtain ⟨m', k', hPos', hRound, hBoth⟩ :=
    exists_roundWithAccuracy_nat .positive hZero (104 - k) (by omega)
  refine ⟨m', k', hPos', ?_, hBoth⟩
  rw [Float.ofScientific, dif_pos ⟨hFew, by omega⟩, hWord, ← hRound, ← hShift]
  have hOne : (Float.ofBits 4607182418800017408).toModel.unpack =
      .finite .positive (2 ^ 52) (-52) (Nat.two_pow_pos 52) := rfl
  have hKept := unpack_pack_finite .positive hPos hLower hUpper (e := k - 52) (by omega) (by omega)
  have hExponent : (k : Int) - 52 + -52 = -((104 - k : Nat) : Int) := by omega
  show (⟨Float.Model.pack (UnpackedFloat.mul Format.binary64
    (Float.Model.pack (.finite .positive m ((k : Int) - 52) hPos)).unpack
    (Float.ofBits 4607182418800017408).toModel.unpack)⟩ : Float) = _
  rw [hKept, hOne, ← hExponent]
  rfl

/-- Every other integer takes the long way, whose power of ten is one. -/
theorem exists_ofScientific_of_le {n : Nat} (hZero : n ≠ 0) (hMany : 2 ^ 53 ≤ n) :
    ∃ m k : Nat, ∃ hPos : 0 < m,
      Float.ofScientific n false 0 =
        ⟨Float.Model.pack (.finite .positive m ((k : Int) - 52) hPos)⟩ ∧
        2 ^ 52 ≤ m ∧ m < 2 ^ 53 ∧ nearest n * 2 ^ 52 = m * 2 ^ k := by
  obtain ⟨m, k, hPos, hRound, hBoth⟩ :=
    exists_roundWithAccuracy_nat .positive hZero 53 (by omega)
  refine ⟨m, k, hPos, ?_, hBoth⟩
  rw [← hRound, Float.ofScientific, dif_neg fun h => Nat.not_lt.mpr hMany h.1]
  have hNegative : ¬(0 : Int) < -((2 : Int) ^ 11 + (n.log2 : Int)) := by omega
  show (⟨Float.Model.pack (UnpackedFloat.ofScientific Format.binary64 n 0)⟩ : Float) = _
  rw [UnpackedFloat.ofScientific, dif_neg hZero, if_neg (by decide), if_neg hNegative,
    if_pos (by decide)]
  simp only [UnpackedFloat.mul, Nat.shiftLeft_eq, Format.mantissaBits, Int.toNat_zero,
    Nat.pow_zero, Nat.mul_one, Int.add_zero]
  rfl

/-- The floating-point number of a natural number. With at most 53 digits it is that
of a machine word times one, and otherwise that of an exact product. -/
theorem exists_ofScientific {n : Nat} (hZero : n ≠ 0) :
    ∃ m k : Nat, ∃ hPos : 0 < m,
      Float.ofScientific n false 0 =
        ⟨Float.Model.pack (.finite .positive m ((k : Int) - 52) hPos)⟩ ∧
        2 ^ 52 ≤ m ∧ m < 2 ^ 53 ∧ nearest n * 2 ^ 52 = m * 2 ^ k :=
  (Nat.lt_or_ge n (2 ^ 53)).elim (exists_ofScientific_of_lt hZero) (exists_ofScientific_of_le hZero)

/-- The power of two that no finite floating-point number reaches. -/
def floatLimit : Nat := 2 ^ 1024

theorem floatLimit_pos : 0 < floatLimit := by decide +kernel

theorem nearest_lt_floatLimit {n : Nat} (h : n ≤ 2 ^ 53) : nearest n < floatLimit := by
  rw [nearest_eq_self h]
  exact Nat.lt_of_le_of_lt h (by decide +kernel)

/-- The exponent of a natural number is below another one exactly if the nearest number
of 53 digits is below that power of two. -/
theorem exponent_lt_iff {n m k : Nat} (hLower : 2 ^ 52 ≤ m) (hUpper : m < 2 ^ 53)
    (hValue : nearest n * 2 ^ 52 = m * 2 ^ k) (e : Nat) : k < e ↔ nearest n < 2 ^ e := by
  constructor
  · intro hRoom
    refine Nat.lt_of_mul_lt_mul_right (a := 2 ^ 52) ?_
    calc
      nearest n * 2 ^ 52 = m * 2 ^ k := hValue
      _ < 2 ^ 53 * 2 ^ k := Nat.mul_lt_mul_of_pos_right hUpper (Nat.two_pow_pos k)
      _ = 2 ^ (k + 1) * 2 ^ 52 := by
        rw [Nat.pow_succ]
        omega
      _ ≤ 2 ^ e * 2 ^ 52 := Nat.mul_le_mul_right _ (Nat.pow_le_pow_right (by omega) hRoom)
  · intro hBelow
    refine Nat.lt_of_not_le fun hMany => Nat.not_le_of_lt hBelow ?_
    refine Nat.le_of_mul_le_mul_right (c := 2 ^ 52) ?_ (Nat.two_pow_pos 52)
    calc
      2 ^ e * 2 ^ 52 ≤ 2 ^ k * 2 ^ 52 :=
        Nat.mul_le_mul_right _ (Nat.pow_le_pow_right (by omega) hMany)
      _ = 2 ^ 52 * 2 ^ k := Nat.mul_comm _ _
      _ ≤ m * 2 ^ k := Nat.mul_le_mul_right _ hLower
      _ = nearest n * 2 ^ 52 := hValue.symm

/-- The exponent of a natural number has room exactly below the limit of the format. -/
theorem lt_iff_nearest_lt {n m k : Nat} (hLower : 2 ^ 52 ≤ m) (hUpper : m < 2 ^ 53)
    (hValue : nearest n * 2 ^ 52 = m * 2 ^ k) : k < 1024 ↔ nearest n < floatLimit := by
  rw [floatLimit, exponent_lt_iff hLower hUpper hValue]

/-- The floating-point number of a natural number is the nearest one of 53 digits. -/
theorem unpacks_ofScientific {n : Nat} (hZero : n ≠ 0) (h : nearest n < floatLimit) :
    Unpacks (Float.ofScientific n false 0).toModel.unpack (nearest n) := by
  obtain ⟨m, k, hPos, hFloat, hLower, hUpper, hValue⟩ := exists_ofScientific hZero
  have hRoom : k < 1024 := (lt_iff_nearest_lt hLower hUpper hValue).mpr h
  have hUnpacks : Unpacks (.finite .positive m (k - 52) hPos) (nearest n) :=
    .finite .positive hPos k hLower hUpper rfl hRoom hValue
  rw [hFloat, hUnpacks.unpack_pack]
  exact hUnpacks

theorem ne_zero_of_floatLimit_le {n : Nat} (h : floatLimit ≤ nearest n) : n ≠ 0 := by
  rintro rfl
  rw [nearest_eq_self (Nat.zero_le _)] at h
  exact Nat.not_le_of_lt floatLimit_pos h

/-- Beyond the largest number of 53 digits that the format holds there is infinity. -/
theorem unpack_ofScientific_of_le {n : Nat} (h : floatLimit ≤ nearest n) :
    (Float.ofScientific n false 0).toModel.unpack = .infinity .positive := by
  obtain ⟨m, k, hPos, hFloat, hLower, hUpper, hValue⟩ :=
    exists_ofScientific (ne_zero_of_floatLimit_le h)
  have hFull : 1024 ≤ k := by
    rw [← Nat.not_lt, lt_iff_nearest_lt hLower hUpper hValue, Nat.not_lt]
    exact h
  rw [hFloat, unpack_pack_infinity .positive hPos (by omega)]

theorem Unpacks.neg_float {x : Float} {a : Int} (h : Unpacks x.toModel.unpack a) :
    Unpacks (-x).toModel.unpack (-a) := by
  show Unpacks (Float.Model.pack x.toModel.unpack.neg).unpack _
  rw [h.neg.unpack_pack]
  exact h.neg

/-- A number of more than 400 digits is too large for the format. -/
theorem le_nearest_of_le {n : Nat} (h : 10 ^ 400 ≤ n) : floatLimit ≤ nearest n :=
  calc
    floatLimit = nearest floatLimit := by decide +kernel
    _ ≤ nearest n := nearest_mono (Nat.le_trans (by decide +kernel) h)

theorem le_nearest_of_length {n : Nat} (h : 400 < n.repr.length) : floatLimit ≤ nearest n := by
  have hMany {e : Nat} (hPos : 0 < e) (hLong : e < n.repr.length) : 10 ^ e ≤ n :=
    Nat.le_of_not_lt fun hFew => Nat.not_le_of_lt hLong ((Nat.length_repr_le_iff hPos).mpr hFew)
  exact le_nearest_of_le (hMany (by omega) h)

/-- A number that is written with at most 400 digits is read by the format. -/
theorem ofScientific_of_length {n : Nat} (hZero : n ≠ 0) (h : n.repr.length ≤ 400) :
    ofScientific false n 0 = Float.ofScientific n false 0 := by
  have hLong : ¬400 < (n.repr.length : Int) := by omega
  have hShort : ¬(n.repr.length : Int) < -400 := by omega
  simp [ofScientific, hZero, hLong, hShort, tenTo]

/-- A natural number that is not too large has the floating-point number of the
nearest one of 53 digits, and the sign in front of it is kept. -/
theorem unpacks_ofScientific_sign {n : Nat} (h : nearest n < floatLimit) (negative : Bool) :
    Unpacks (ofScientific negative n 0).toModel.unpack
      (if negative then -(nearest n : Int) else nearest n) := by
  have hMagnitude : Unpacks (ofScientific false n 0).toModel.unpack (nearest n) := by
    by_cases hZero : n = 0
    · rw [hZero, nearest_eq_self (Nat.zero_le _)]
      exact .zero .positive
    · have hLength : n.repr.length ≤ 400 := Nat.le_of_not_lt fun hLong =>
        Nat.not_lt.mpr (le_nearest_of_length hLong) h
      rw [ofScientific_of_length hZero hLength]
      exact unpacks_ofScientific hZero h
  cases negative
  · exact hMagnitude
  · exact hMagnitude.neg_float

/-- A natural number that is too large is an infinity, whatever its sign. -/
theorem isInf_ofScientific_sign {n : Nat} (h : floatLimit ≤ nearest n) (negative : Bool) :
    (ofScientific negative n 0).isInf = true := by
  have hMagnitude : (ofScientific false n 0).toModel.unpack = .infinity .positive := by
    have hZero : n ≠ 0 := ne_zero_of_floatLimit_le h
    by_cases hLong : 400 < (n.repr.length : Int)
    · have hFloat : ofScientific false n 0 = 1.0 / 0.0 := by simp [ofScientific, hZero, hLong]
      rw [hFloat]
      rfl
    · rw [ofScientific_of_length hZero (by omega)]
      exact unpack_ofScientific_of_le h
  cases negative
  · show (ofScientific false n 0).toModel.unpack.isInf = true
    rw [hMagnitude]
    rfl
  · show (Float.Model.pack (ofScientific false n 0).toModel.unpack.neg).unpack.isInf = true
    rw [hMagnitude]
    rfl

/-- An integer that is not too large has the floating-point number of the nearest
integer of 53 digits. -/
theorem ofInt?_of_lt {n : Int} (h : nearest n.natAbs < floatLimit) :
    ∃ x, ofInt? n = some x ∧ Unpacks x.toModel.unpack (nearestInt n) := by
  have hUnpacks := unpacks_ofScientific_sign h (n < 0)
  have hValue : (if decide (n < 0) then -(nearest n.natAbs : Int) else nearest n.natAbs) =
      nearestInt n := by
    by_cases hNegative : n < 0
    · simp [nearestInt, Int.sign_eq_neg_one_of_neg hNegative, hNegative]
    · obtain ⟨m, rfl⟩ := Int.eq_ofNat_of_zero_le (Int.not_lt.mp hNegative)
      simp [nearestInt_ofNat, hNegative]
  rw [hValue] at hUnpacks
  refine ⟨_, ?_, hUnpacks⟩
  have hFinite : (ofScientific (n < 0) n.natAbs 0).isInf = false := hUnpacks.isInf_eq_false
  simp [ofInt?, hFinite]

/-- An integer that is too large has no floating-point number. -/
theorem ofInt?_of_le {n : Int} (h : floatLimit ≤ nearest n.natAbs) : ofInt? n = none := by
  simp [ofInt?, isInf_ofScientific_sign h]

end NoteTemplate.Decimal
