import NoteTemplate.Decimal.Shortest
import NoteTemplate.Proofs.Decimal.NearestFloat

/-! The shortest digits of a floating-point number. The search ends with a decimal in the
interval of the number, since 17 digits are enough for one of the two decimals around it
to be close. -/
namespace NoteTemplate.Decimal

/-- The exact value of a positive finite number that is not zero. -/
structure Binary.Sound (b : Binary) : Prop where
  legal : Legal b.mantissa b.exponent
  lowest : b.lowest = true ↔ b.mantissa = 2 ^ 52 ∧ -1074 < b.exponent

theorem zpow_eq_div {a : ℚ} (hZero : a ≠ 0) (e : ℤ) : a ^ e = a ^ e.toNat / a ^ (-e).toNat := by
  rw [← zpow_natCast, ← zpow_natCast, ← zpow_sub₀ hZero]
  congr 1
  omega

/-- The two factors by which a mantissa and a decimal become integers of one scale. -/
def Binary.up (b : Binary) (unit : ℤ) : ℕ := twoTo b.exponent.toNat * tenTo (-unit).toNat

@[inherit_doc Binary.up]
def Binary.down (b : Binary) (unit : ℤ) : ℕ := twoTo (-b.exponent).toNat * tenTo unit.toNat

theorem Binary.up_pos (b : Binary) (unit : ℤ) : 0 < b.up unit :=
  Nat.mul_pos (Nat.two_pow_pos _) (Nat.pow_pos (by decide))

theorem Binary.down_pos (b : Binary) (unit : ℤ) : 0 < b.down unit :=
  Nat.mul_pos (Nat.two_pow_pos _) (Nat.pow_pos (by decide))

/-- A decimal step as a part of a binary one. -/
theorem Binary.step_eq (b : Binary) (unit : ℤ) :
    (10 : ℚ) ^ unit / 2 ^ b.exponent = b.down unit / b.up unit := by
  rw [zpow_eq_div (by norm_num) unit, zpow_eq_div two_ne_zero b.exponent]
  have hUp : (b.up unit : ℚ) = 2 ^ b.exponent.toNat * 10 ^ (-unit).toNat :=
    (Nat.cast_mul _ _).trans (congrArg₂ (· * ·) (Nat.cast_pow 2 _) (Nat.cast_pow 10 _))
  have hDown : (b.down unit : ℚ) = 2 ^ (-b.exponent).toNat * 10 ^ unit.toNat :=
    (Nat.cast_mul _ _).trans (congrArg₂ (· * ·) (Nat.cast_pow 2 _) (Nat.cast_pow 10 _))
  rw [hUp, hDown]
  field_simp

/-- How far below a mantissa its interval begins, in quarters. -/
def Binary.reach (b : Binary) : ℕ := if b.lowest then 1 else 2

/-- What lies between the ends of an interval, in quarters of the last digit. The ends
belong to it if the mantissa is even. -/
def Binary.Around (b : Binary) (y : ℚ) : Prop :=
  if b.mantissa % 2 = 0 then 4 * b.mantissa - b.reach ≤ 4 * y ∧ 4 * y ≤ 4 * b.mantissa + 2
  else 4 * b.mantissa - b.reach < 4 * y ∧ 4 * y < 4 * b.mantissa + 2

theorem Binary.reach_cases (b : Binary) :
    (b.reach : ℚ) = 1 ∧ b.lowest = true ∨ (b.reach : ℚ) = 2 ∧ b.lowest = false := by
  rw [Binary.reach]
  cases b.lowest <;> simp

/-- Seventeen digits before the point of a number are finer than its own last digit. -/
theorem Binary.step_mul_le {b : Binary} {point : ℤ}
    (hPoint : (10 : ℚ) ^ (point - 1) ≤ b.mantissa * 2 ^ b.exponent) :
    (10 : ℚ) ^ (point - 17) / 2 ^ b.exponent * 10 ^ 16 ≤ b.mantissa := by
  have hPower : (10 : ℚ) ^ (point - 1) = 10 ^ (point - 17) * 10 ^ 16 := by
    rw [← zpow_natCast, ← zpow_add₀ (by norm_num)]
    congr 1
    ring
  rw [div_mul_eq_mul_div, ← hPower]
  exact div_le_of_le_mul₀ (by positivity) (by positivity) hPoint

/-- The two decimals on the sides of a number. -/
theorem Binary.mantissa_between (b : Binary) (unit : ℤ) :
    ((b.mantissa * b.up unit / b.down unit : ℕ) : ℚ) * (10 ^ unit / 2 ^ b.exponent) ≤ b.mantissa ∧
      (b.mantissa : ℚ) <
        ((b.mantissa * b.up unit / b.down unit : ℕ) + 1) * (10 ^ unit / 2 ^ b.exponent) := by
  have hUp : (0 : ℚ) < b.up unit := by exact_mod_cast b.up_pos unit
  rw [b.step_eq, ← mul_div_assoc, ← mul_div_assoc, div_le_iff₀ hUp, lt_div_iff₀ hUp]
  constructor
  · exact_mod_cast Nat.div_mul_le_self _ _
  · exact_mod_cast (Nat.div_lt_iff_lt_mul (b.down_pos unit)).mp (Nat.lt_succ_self _)

/-- The two decimals around a number, where they are in its interval. -/
theorem mem_neighbours {b : Binary} {unit : ℤ} {d : ℕ} :
    d ∈ neighbours b unit ↔
      (d = b.mantissa * b.up unit / b.down unit ∨ d = b.mantissa * b.up unit / b.down unit + 1) ∧
        d ≠ 0 ∧
        if b.mantissa % 2 = 0 then
          (4 * b.mantissa - b.reach) * b.up unit ≤ 4 * d * b.down unit ∧
            4 * d * b.down unit ≤ (4 * b.mantissa + 2) * b.up unit
        else
          (4 * b.mantissa - b.reach) * b.up unit < 4 * d * b.down unit ∧
            4 * d * b.down unit < (4 * b.mantissa + 2) * b.up unit := by
  have hBelow : 4 * b.mantissa * b.up unit / (4 * b.down unit) =
      b.mantissa * b.up unit / b.down unit := by
    rw [Nat.mul_assoc, Nat.mul_div_mul_left _ _ (by omega)]
  have hOrder {close : Bool} {below : ℕ} : (d ∈ if close = true then [below, below + 1]
      else [below + 1, below]) ↔ d = below ∨ d = below + 1 := by
    cases close
    · simp [or_comm]
    · simp
  rw [← hBelow]
  simp only [neighbours, List.mem_filter, Binary.reach, Binary.up, Binary.down, hOrder,
    Bool.and_eq_true, bne_iff_ne]
  by_cases hEven : b.mantissa % 2 = 0
  · simp [hEven]
  · simp [hEven]

section
variable {b : Binary} (h : b.Sound) {unit : ℤ} {d : ℕ}
include h

theorem cast_reach : ((4 * b.mantissa - b.reach : ℕ) : ℚ) = 4 * b.mantissa - b.reach := by
  have hPos := h.legal.pos
  have hReach : b.reach ≤ 4 * b.mantissa := by
    rw [Binary.reach]
    split <;> omega
  push_cast [Nat.cast_sub hReach]
  rfl

/-- What rounds to a number lies around its mantissa, in units of the last place. -/
theorem around_of_inInterval {x : ℚ} (hInterval : InInterval b.mantissa b.exponent x) :
    b.Around (x / 2 ^ b.exponent) := by
  obtain ⟨⟨hClose, hEven⟩, hNear⟩ := hInterval
  generalize x / 2 ^ b.exponent = y at *
  obtain ⟨hDown, hUp⟩ := abs_le.mp hClose
  rw [Binary.Around]
  split
  · rcases b.reach_cases with ⟨hReach, hFlag⟩ | ⟨hReach, -⟩
    · obtain ⟨hBinade, hMore⟩ := h.lowest.mp hFlag
      have := hNear hBinade hMore
      rw [hReach]
      constructor <;> linarith
    · rw [hReach]
      constructor <;> linarith
  · next hOdd =>
    have hReach : (b.reach : ℚ) = 2 := by
      refine (b.reach_cases.resolve_left fun hFlag => hOdd ?_).1
      rw [(h.lowest.mp hFlag.2).1]
      norm_num
    have hStrict := abs_lt.mp (lt_of_le_of_ne hClose (mt hEven hOdd))
    rw [hReach]
    constructor <;> linarith

/-- The interval of a number is what its ends are around. -/
theorem inInterval_iff_around {x : ℚ} :
    InInterval b.mantissa b.exponent x ↔ b.Around (x / 2 ^ b.exponent) := by
  refine ⟨around_of_inInterval h, fun hBounds => ?_⟩
  rw [Binary.Around] at hBounds
  have hReach : (b.reach : ℚ) ≤ 2 := by rcases b.reach_cases with hFlag | hFlag <;> linarith
  have hWide : 4 * (b.mantissa : ℚ) - b.reach ≤ 4 * (x / 2 ^ b.exponent) ∧
      4 * (x / 2 ^ b.exponent) ≤ 4 * b.mantissa + 2 := by
    split at hBounds
    · exact hBounds
    · exact ⟨hBounds.1.le, hBounds.2.le⟩
  refine ⟨⟨abs_le.mpr ⟨by linarith, by linarith⟩, fun hTie => ?_⟩, fun hBinade hMore => ?_⟩
  · by_contra hOdd
    rw [if_neg hOdd] at hBounds
    exact absurd hTie (abs_lt.mpr ⟨by linarith, by linarith⟩).ne
  · have hQuarter : (b.reach : ℚ) = 1 := by
      refine (b.reach_cases.resolve_right fun hFlag => ?_).1
      rw [h.lowest.mpr ⟨hBinade, hMore⟩] at hFlag
      cases hFlag.2
    linarith

/-- The bounds that the search compares with are those of the interval. -/
theorem inInterval_iff :
    InInterval b.mantissa b.exponent (d * 10 ^ unit) ↔
      if b.mantissa % 2 = 0 then
        (4 * b.mantissa - b.reach) * b.up unit ≤ 4 * d * b.down unit ∧
          4 * d * b.down unit ≤ (4 * b.mantissa + 2) * b.up unit
      else
        (4 * b.mantissa - b.reach) * b.up unit < 4 * d * b.down unit ∧
          4 * d * b.down unit < (4 * b.mantissa + 2) * b.up unit := by
  have hUp : (0 : ℚ) < b.up unit := by exact_mod_cast b.up_pos unit
  have hStep : (d : ℚ) * 10 ^ unit / 2 ^ b.exponent = d * b.down unit / b.up unit := by
    rw [mul_div_assoc, b.step_eq, mul_div_assoc]
  have hScaled : ((4 * d * b.down unit : ℕ) : ℚ) =
      4 * (d * b.down unit / b.up unit) * b.up unit := by
    push_cast
    field_simp
  have hLow : (((4 * b.mantissa - b.reach) * b.up unit : ℕ) : ℚ) =
      (4 * b.mantissa - b.reach) * b.up unit := by
    rw [Nat.cast_mul, cast_reach h]
  have hHigh : (((4 * b.mantissa + 2) * b.up unit : ℕ) : ℚ) =
      (4 * b.mantissa + 2) * b.up unit := by
    push_cast
    rfl
  have hLe (m n : ℕ) : m ≤ n ↔ (m : ℚ) ≤ n := Nat.cast_le.symm
  have hLt (m n : ℕ) : m < n ↔ (m : ℚ) < n := Nat.cast_lt.symm
  rw [hLe, hLe, hLt, hLt, hScaled, hLow, hHigh, mul_le_mul_iff_left₀ hUp, mul_le_mul_iff_left₀ hUp,
    mul_lt_mul_iff_left₀ hUp, mul_lt_mul_iff_left₀ hUp, inInterval_iff_around h, hStep,
    Binary.Around]

/-- The decimals that are found are in the interval. -/
theorem mem_neighbours_iff :
    d ∈ neighbours b unit ↔
      (d = b.mantissa * b.up unit / b.down unit ∨ d = b.mantissa * b.up unit / b.down unit + 1) ∧
        d ≠ 0 ∧ InInterval b.mantissa b.exponent (d * 10 ^ unit) := by
  rw [inInterval_iff h, mem_neighbours]

/-- Half a unit above and the reach below is far enough inside. -/
theorem inInterval_of_lt {x : ℚ}
    (hLow : 4 * (b.mantissa : ℚ) - b.reach < 4 * (x / 2 ^ b.exponent))
    (hHigh : 4 * (x / 2 ^ b.exponent) < 4 * b.mantissa + 2) :
    InInterval b.mantissa b.exponent x := by
  rw [inInterval_iff_around h, Binary.Around]
  split
  · exact ⟨hLow.le, hHigh.le⟩
  · exact ⟨hLow, hHigh⟩

/-- One of two decimals around a number that are less than one unit of its last binary
digit apart is in the interval. At the bottom of a binade they are less than half of it
apart, and it is the upper one. -/
theorem exists_mem_neighbours {point : ℤ}
    (hPoint : (10 : ℚ) ^ (point - 1) ≤ b.mantissa * 2 ^ b.exponent) :
    ∃ d, d ∈ neighbours b (point - 17) := by
  have hFine := Binary.step_mul_le hPoint
  have hAround := b.mantissa_between (point - 17)
  set below := b.mantissa * b.up (point - 17) / b.down (point - 17) with hBelow
  have hScale (d : ℕ) : (d : ℚ) * 10 ^ (point - 17) / 2 ^ b.exponent =
      d * (10 ^ (point - 17) / 2 ^ b.exponent) := mul_div_assoc _ _ _
  have hPos : (0 : ℚ) < 10 ^ (point - 17) / 2 ^ b.exponent := by positivity
  set step : ℚ := 10 ^ (point - 17) / 2 ^ b.exponent
  have hFew : (b.mantissa : ℚ) + 1 ≤ 2 ^ 53 := by exact_mod_cast h.legal.few
  have hSome : below ≠ 0 := by
    intro hZero
    rw [hZero] at hAround
    push_cast at hAround
    nlinarith
  by_cases hChoice : b.lowest = false ∧ (b.mantissa : ℚ) - below * step < 1 / 2
  · have hReach : (b.reach : ℚ) = 2 := by simp [Binary.reach, hChoice.1]
    refine ⟨below, (mem_neighbours_iff h).mpr ⟨.inl rfl, hSome, inInterval_of_lt h ?_ ?_⟩⟩
    · rw [hScale, hReach]
      linarith
    · rw [hScale]
      linarith
  · have hUpper : ((below + 1 : ℕ) : ℚ) * step < b.mantissa + 1 / 2 := by
      push_cast
      cases hFlag : b.lowest with
      | false =>
          have hFar := not_and.mp hChoice hFlag
          linarith
      | true =>
          have hBinade : (b.mantissa : ℚ) = 2 ^ 52 := by
            rw [(h.lowest.mp hFlag).1]
            norm_num
          linarith
    refine ⟨below + 1,
      (mem_neighbours_iff h).mpr ⟨.inr rfl, below.succ_ne_zero, inInterval_of_lt h ?_ ?_⟩⟩
    · have hNonneg : (0 : ℚ) ≤ b.reach := Nat.cast_nonneg _
      rw [hScale]
      push_cast
      linarith
    · rw [hScale]
      linarith

end

/-- The first hit is a hit. -/
theorem shortestFrom_mem {b : Binary} {point : ℤ} {fuel n last : ℕ} (hLast : n + fuel = last + 1)
    (hFirst : n ≤ last) (hHit : ∃ d, d ∈ neighbours b (point - last)) :
    ∃ (k : ℕ) (d : ℕ), shortestFrom b point fuel n = ⟨d, point - k⟩ ∧
      d ∈ neighbours b (point - k) := by
  induction fuel generalizing n with
  | zero => omega
  | succ fuel ih =>
      rw [shortestFrom]
      split
      · next d others hFound =>
        exact ⟨n, d, rfl, by rw [hFound]; exact List.mem_cons_self⟩
      · next hNone =>
        rcases Nat.eq_or_lt_of_le hFirst with rfl | hLess
        · obtain ⟨d, hMem⟩ := hHit
          rw [hNone] at hMem
          cases hMem
        · exact ih (by omega) hLess

/-- The number of digits before the point is looked for from below, and what is found is
not too large. -/
theorem decimalPoint_le {num den : ℕ} (hDen : 0 < den) {fuel : ℕ} {k : ℤ}
    (hStart : (10 : ℚ) ^ (k - 1) ≤ num / den) :
    (10 : ℚ) ^ (decimalPoint num den fuel k - 1) ≤ num / den := by
  induction fuel generalizing k with
  | zero => exact hStart
  | succ fuel ih =>
      rw [decimalPoint]
      split
      · exact hStart
      · next hMore =>
        refine ih ?_
        have hDen' : (0 : ℚ) < den := by exact_mod_cast hDen
        have hScaled : (den : ℚ) * 10 ^ k.toNat ≤ num * 10 ^ (-k).toNat := by
          have hNat : den * 10 ^ k.toNat ≤ num * 10 ^ (-k).toNat := Nat.le_of_not_lt hMore
          exact_mod_cast hNat
        rw [add_sub_cancel_right, zpow_eq_div (by norm_num), div_le_div_iff₀ (by positivity) hDen',
          mul_comm]
        exact hScaled

/-- Ten binary digits are a little more than three decimal ones, also after a thousand. -/
theorem ten_zpow_le_two_zpow {e : ℤ} (h : -1074 ≤ e) : (10 : ℚ) ^ (e * 3 / 10 - 4) ≤ 2 ^ e := by
  have hDrift : ((125 : ℚ) / 128) ^ e ≤ 10 ^ 40 := by
    calc
      ((125 : ℚ) / 128) ^ e ≤ (125 / 128) ^ (-1080 : ℤ) :=
        zpow_le_zpow_right_of_le_one₀ (by norm_num) (by norm_num) (by omega)
      _ = ((128 / 125) ^ 27) ^ 40 := by
        rw [← pow_mul, zpow_neg, ← inv_zpow, inv_div]
        norm_cast
      _ ≤ 10 ^ 40 := pow_le_pow_left₀ (by positivity) (by norm_num) 40
  refine (pow_le_pow_iff_left₀ (by positivity) (by positivity) (show 10 ≠ 0 by omega)).mp ?_
  calc
    ((10 : ℚ) ^ (e * 3 / 10 - 4)) ^ 10 = 10 ^ ((e * 3 / 10 - 4) * 10) := by
      rw [← zpow_natCast, ← zpow_mul]
      rfl
    _ ≤ 10 ^ (3 * e - 40) := zpow_le_zpow_right₀ (by norm_num) (by omega)
    _ = (125 / 128) ^ e / 10 ^ 40 * (2 ^ e) ^ 10 := by
      have hBase : ((2 : ℚ) ^ e) ^ 10 = (2 ^ 10) ^ e := by
        rw [← zpow_natCast, ← zpow_natCast, ← zpow_mul, ← zpow_mul, mul_comm]
      have hThree : (10 : ℚ) ^ (3 * e) = (125 / 128 * 2 ^ 10) ^ e := by
        rw [zpow_mul]
        norm_num
      rw [zpow_sub₀ (by norm_num), hThree, hBase, mul_zpow, div_mul_eq_mul_div]
      rfl
    _ ≤ 1 * (2 ^ e) ^ 10 := by
      gcongr
      rw [div_le_one (by positivity)]
      exact hDrift
    _ = (2 ^ e) ^ 10 := one_mul _

/-- The digits that are found are a decimal in the interval of the number. -/
theorem shortest_spec {b : Binary} (h : b.Sound) :
    (shortest b).digits ≠ 0 ∧
      InInterval b.mantissa b.exponent ((shortest b).digits * 10 ^ (shortest b).exponent) := by
  have hPos := h.legal.pos
  have hLow := h.legal.low
  set num := b.mantissa * twoTo b.exponent.toNat with hNum
  set den := twoTo (-b.exponent).toNat with hDen
  have hValue : (num / den : ℚ) = b.mantissa * 2 ^ b.exponent := by
    have hUp : (num : ℚ) = b.mantissa * 2 ^ b.exponent.toNat :=
      (Nat.cast_mul _ _).trans (congrArg _ (Nat.cast_pow 2 _))
    have hDown : (den : ℚ) = 2 ^ (-b.exponent).toNat := Nat.cast_pow 2 _
    rw [hUp, hDown, zpow_eq_div two_ne_zero b.exponent, mul_div_assoc]
  have hLogs : (num.log2 : ℤ) - den.log2 = b.mantissa.log2 + b.exponent := by
    have hUp : num.log2 = b.mantissa.log2 + b.exponent.toNat :=
      log2_mul_two_pow hPos.ne' b.exponent.toNat
    have hDown : den.log2 = (-b.exponent).toNat := Nat.log2_two_pow
    omega
  have hStart : (10 : ℚ) ^ (((num.log2 : ℤ) - den.log2) * 3 / 10 - 3 - 1) ≤ num / den := by
    rw [hLogs, hValue, sub_sub]
    calc
      (10 : ℚ) ^ ((b.mantissa.log2 + b.exponent) * 3 / 10 - (3 + 1)) ≤
          2 ^ (b.mantissa.log2 + b.exponent) := ten_zpow_le_two_zpow (by omega)
      _ = 2 ^ b.mantissa.log2 * 2 ^ b.exponent := by rw [zpow_add₀ two_ne_zero, zpow_natCast]
      _ ≤ b.mantissa * 2 ^ b.exponent := by
        gcongr
        exact_mod_cast Nat.log2_self_le hPos.ne'
  have hDenPos : 0 < den := Nat.two_pow_pos _
  have hPoint : (10 : ℚ) ^ (decimalPoint num den 400
      (((num.log2 : ℤ) - den.log2) * 3 / 10 - 3) - 1) ≤ num / den :=
    decimalPoint_le hDenPos hStart
  rw [hValue] at hPoint
  obtain ⟨k, d, hFound, hMem⟩ := shortestFrom_mem (show 1 + 17 = 17 + 1 by rfl) (by omega)
    (exists_mem_neighbours h hPoint)
  have hShortest : shortest b = ⟨d, _⟩ := hFound
  rw [hShortest]
  exact ((mem_neighbours_iff h).mp hMem).2

end NoteTemplate.Decimal
