import NoteTemplate.Proofs.Decimal.FloatOfInt
import NoteTemplate.Value.Order

/-! Comparisons of integers. They go through floating-point numbers, so they compare
the nearest integers of 53 binary digits, and they fail on integers that are too
large for the format. -/
namespace NoteTemplate.Value

open Decimal

/-- An order relation on integers. -/
def Ordering.holdsInt (o : Ordering) (a b : Int) : Bool :=
  match o with
  | greater => b < a
  | less => a < b
  | atLeast => b ≤ a
  | atMost => a ≤ b

/-- The integer that stands for another one in a comparison. -/
def comparedInt (n : Int) : Except Fault Int :=
  if Decimal.nearest n.natAbs < floatLimit then .ok (nearestInt n) else .error .integerTooLarge

theorem comparedInt_of_lt {n : Int} (h : Decimal.nearest n.natAbs < floatLimit) :
    comparedInt n = .ok (nearestInt n) := if_pos h

theorem comparedInt_of_le {n : Int} (h : floatLimit ≤ Decimal.nearest n.natAbs) :
    comparedInt n = .error .integerTooLarge := if_neg (Nat.not_lt.mpr h)

section
variable {x y : Float} {a b : Int}

/-- Floating-point numbers of integers are equal when the integers are. -/
theorem beq_of_unpacks (hx : Unpacks x.toModel.unpack a) (hy : Unpacks y.toModel.unpack b) :
    (x == y) = decide (a = b) := by
  show (x.toModel.unpack.compare y.toModel.unpack == some .eq) = _
  rw [hx.compare_eq hy, Bool.eq_iff_iff]
  simp

theorem decide_lt_of_unpacks (hx : Unpacks x.toModel.unpack a) (hy : Unpacks y.toModel.unpack b) :
    decide (x < y) = decide (a < b) := by
  have hLess : x < y ↔ a < b := by
    show decide ((x.toModel.unpack.compare y.toModel.unpack == some .lt) = true) = true ↔ _
    rw [hx.compare_eq hy]
    simp [Int.compare_eq_lt]
  exact decide_eq_decide.mpr hLess

theorem decide_le_of_unpacks (hx : Unpacks x.toModel.unpack a) (hy : Unpacks y.toModel.unpack b) :
    decide (x ≤ y) = decide (a ≤ b) := by
  have hAtMost : x ≤ y ↔ a ≤ b := by
    show decide ((x.toModel.unpack.compare y.toModel.unpack).any (·.isLE) = true) = true ↔ _
    rw [hx.compare_eq hy]
    simp [Int.isLE_compare]
  exact decide_eq_decide.mpr hAtMost

/-- Floating-point numbers of integers stand in the relations of the integers. -/
theorem Ordering.holdsNumber_of_unpacks (o : Ordering) (hx : Unpacks x.toModel.unpack a)
    (hy : Unpacks y.toModel.unpack b) : o.holdsNumber x y = o.holdsInt a b := by
  cases o with
  | greater => exact decide_lt_of_unpacks hy hx
  | less => exact decide_lt_of_unpacks hx hy
  | atLeast => exact decide_le_of_unpacks hy hx
  | atMost => exact decide_le_of_unpacks hx hy

end

/-- Either an integer has a number that unpacks to the integer that stands for it, or
both are missing. -/
theorem number?_int (n : Int) :
    (∃ x, number? (.int n) = .ok (some x) ∧ Unpacks x.toModel.unpack (nearestInt n) ∧
      comparedInt n = .ok (nearestInt n)) ∨
    (number? (.int n) = .error .integerTooLarge ∧ comparedInt n = .error .integerTooLarge) := by
  rcases Nat.lt_or_ge (Decimal.nearest n.natAbs) floatLimit with hBelow | hAbove
  · obtain ⟨x, hFloat, hUnpacks⟩ := ofInt?_of_lt hBelow
    exact .inl ⟨x, by simp only [number?, hFloat], hUnpacks, comparedInt_of_lt hBelow⟩
  · exact .inr ⟨by simp only [number?, ofInt?_of_le hAbove], comparedInt_of_le hAbove⟩

/-- Integers are equal when the integers that stand for them are. -/
theorem looseEq_int (a b : Int) :
    looseEq (.int a) (.int b) = do return decide ((← comparedInt a) = (← comparedInt b)) := by
  obtain ⟨x, hx, hxUnpacks, ha⟩ | ⟨hx, ha⟩ := number?_int a
  · obtain ⟨y, hy, hyUnpacks, hb⟩ | ⟨hy, hb⟩ := number?_int b
    · simp only [looseEq.eq_def, hx, hy, ha, hb]
      exact congrArg Except.ok (beq_of_unpacks hxUnpacks hyUnpacks)
    · simp only [looseEq.eq_def, hx, hy, ha, hb]
      rfl
  · simp only [looseEq.eq_def, hx, ha]
    rfl

/-- Integers are in order when the integers that stand for them are. -/
theorem ordered_int (o : Ordering) (a b : Int) :
    ordered o (.int a) (.int b) = do return o.holdsInt (← comparedInt a) (← comparedInt b) := by
  obtain ⟨x, hx, hxUnpacks, ha⟩ | ⟨hx, ha⟩ := number?_int a
  · obtain ⟨y, hy, hyUnpacks, hb⟩ | ⟨hy, hb⟩ := number?_int b
    · simp only [ordered.eq_def, hx, hy, ha, hb]
      exact congrArg Except.ok (o.holdsNumber_of_unpacks hxUnpacks hyUnpacks)
    · simp only [ordered.eq_def, hx, hy, ha, hb]
      rfl
  · simp only [ordered.eq_def, hx, ha]
    rfl

/-- The relations of two integers are those of the nearest ones as long as rounding
does not make them equal. -/
theorem Ordering.holdsInt_nearestInt {a b : Int} (h : nearestInt a = nearestInt b → a = b)
    (o : Ordering) : o.holdsInt (nearestInt a) (nearestInt b) = o.holdsInt a b := by
  have hStrict {a b : Int} (h : nearestInt a = nearestInt b → a = b) :
      nearestInt a < nearestInt b ↔ a < b := by
    constructor
    · intro hLess
      exact Int.lt_of_not_ge fun hMore => Int.not_lt.mpr (nearestInt_mono hMore) hLess
    · intro hLess
      exact Int.lt_iff_le_and_ne.mpr
        ⟨nearestInt_mono (Int.le_of_lt hLess), fun hEqual => Int.ne_of_lt hLess (h hEqual)⟩
  have hFlip : nearestInt b = nearestInt a → b = a := fun hEqual => (h hEqual.symm).symm
  cases o with
  | greater => exact decide_eq_decide.mpr (hStrict hFlip)
  | less => exact decide_eq_decide.mpr (hStrict h)
  | atLeast => exact decide_eq_decide.mpr (by rw [← Int.not_lt, ← Int.not_lt, hStrict h])
  | atMost => exact decide_eq_decide.mpr (by rw [← Int.not_lt, ← Int.not_lt, hStrict hFlip])

/-- Comparisons of two integers are exact when both have a floating-point number and
rounding keeps them apart. -/
theorem int_comparisons_exact_of_apart {a b : Int} (ha : Decimal.nearest a.natAbs < floatLimit)
    (hb : Decimal.nearest b.natAbs < floatLimit) (hApart : nearestInt a = nearestInt b → a = b) :
    looseEq (.int a) (.int b) = .ok (decide (a = b)) ∧
      ∀ o, ordered o (.int a) (.int b) = .ok (o.holdsInt a b) := by
  constructor
  · rw [looseEq_int, comparedInt_of_lt ha, comparedInt_of_lt hb]
    exact congrArg Except.ok (decide_eq_decide.mpr ⟨hApart, congrArg nearestInt⟩)
  · intro o
    rw [ordered_int, comparedInt_of_lt ha, comparedInt_of_lt hb]
    exact congrArg Except.ok (o.holdsInt_nearestInt hApart)

/-- Integers of at most 53 binary digits are compared exactly. -/
theorem int_comparisons_exact_of_small {a b : Int} (ha : a.natAbs ≤ 2 ^ 53)
    (hb : b.natAbs ≤ 2 ^ 53) :
    looseEq (.int a) (.int b) = .ok (decide (a = b)) ∧
      ∀ o, ordered o (.int a) (.int b) = .ok (o.holdsInt a b) := by
  refine int_comparisons_exact_of_apart (nearest_lt_floatLimit ha) (nearest_lt_floatLimit hb)
    fun hEqual => ?_
  rwa [nearestInt_eq_self ha, nearestInt_eq_self hb] at hEqual

/-- Comparisons of two integers are exact, with a result for each of them, when both
have a floating-point number and rounding keeps them apart, and only then. -/
theorem int_comparisons_exact_iff (a b : Int) :
    (looseEq (.int a) (.int b) = .ok (decide (a = b)) ∧
      ∀ o, ordered o (.int a) (.int b) = .ok (o.holdsInt a b)) ↔
    Decimal.nearest a.natAbs < floatLimit ∧ Decimal.nearest b.natAbs < floatLimit ∧
      (nearestInt a = nearestInt b → a = b) := by
  constructor
  · intro ⟨hEqual, _⟩
    rw [looseEq_int] at hEqual
    rcases Nat.lt_or_ge (Decimal.nearest a.natAbs) floatLimit with ha | ha
    · rcases Nat.lt_or_ge (Decimal.nearest b.natAbs) floatLimit with hb | hb
      · rw [comparedInt_of_lt ha, comparedInt_of_lt hb] at hEqual
        have hSame := decide_eq_decide.mp (Except.ok.inj hEqual)
        exact ⟨ha, hb, hSame.mp⟩
      · rw [comparedInt_of_lt ha, comparedInt_of_le hb] at hEqual
        cases hEqual
    · rw [comparedInt_of_le ha] at hEqual
      cases hEqual
  · intro ⟨ha, hb, hApart⟩
    exact int_comparisons_exact_of_apart ha hb hApart

/-- A number of more than 400 digits has no comparison with 1, and the neighbour of
the largest number of 53 binary digits is taken for that number. -/
theorem int_comparisons_beyond_floats :
    looseEq (.int (10 ^ 400)) (.int 1) = .error .integerTooLarge ∧
      looseEq (.int (2 ^ 53 + 1)) (.int (2 ^ 53)) = .ok true := by
  constructor
  · have hLong : 10 ^ 400 ≤ (10 ^ 400 : Int).natAbs := by decide +kernel
    rw [looseEq_int, comparedInt_of_le (le_nearest_of_le hLong)]
    rfl
  · have hOdd : comparedInt (2 ^ 53 + 1) = .ok (2 ^ 53) := comparedInt_of_lt (by decide +kernel)
    have hEven : comparedInt (2 ^ 53) = .ok (2 ^ 53) := comparedInt_of_lt (by decide +kernel)
    rw [looseEq_int, hOdd, hEven]
    rfl

end NoteTemplate.Value
