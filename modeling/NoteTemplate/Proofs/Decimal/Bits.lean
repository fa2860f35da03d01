import NoteTemplate.Proofs.Decimal.Shortest

/-! Floating-point numbers and the bits that they are stored in. -/
namespace NoteTemplate.Decimal

open Float.Model Float.Model.UnpackedFloat

/-- An infinity. -/
def infinity (negative : Bool) : Float :=
  ⟨Float.Model.pack (.infinity (if negative then .negative else .positive))⟩

/-- A zero, which has a sign as well. -/
def zero (negative : Bool) : Float :=
  ⟨Float.Model.pack (.zero (if negative then .negative else .positive))⟩

/-- A number that is stored with a sign, an exponent and a mantissa. -/
def Stored (x : Float) (negative : Bool) (e : BitVec 11) (m : BitVec 52) : Prop :=
  x.toBits.toBitVec =
    packComponents Format.binary64 (if negative then .negative else .positive) e m

/-- Every number is stored in one of the ways there are. -/
theorem exists_stored (x : Float) : ∃ negative e m, Stored x negative e m := by
  have hWhole := @packComponents_unpackSign_unpackExponent_unpackMantissa Format.binary64
    x.toBits.toBitVec
  cases hSign : Sign.ofBitVec (@unpackSign Format.binary64 x.toBits.toBitVec) with
  | positive =>
      rw [hSign] at hWhole
      exact ⟨false, _, _, hWhole.symm⟩
  | negative =>
      rw [hSign] at hWhole
      exact ⟨true, _, _, hWhole.symm⟩

section
variable {x : Float} {negative : Bool} {e : BitVec 11} {m : BitVec 52} (h : Stored x negative e m)
include h

/-- The three parts stand one behind the other. -/
theorem Stored.toNat_toBits :
    x.toBits.toNat = negative.toNat * 2 ^ 63 + e.toNat * 2 ^ 52 + m.toNat := by
  have hSign : (Sign.toBitVec (if negative then .negative else .positive)).toNat =
      negative.toNat := by
    cases negative <;> rfl
  show x.toBits.toBitVec.toNat = _
  rw [h]
  simp only [packComponents]
  rw [BitVec.toNat_append, BitVec.toNat_append, ← Nat.shiftLeft_add_eq_or_of_lt m.isLt,
    ← Nat.shiftLeft_add_eq_or_of_lt e.isLt, hSign]
  simp only [Nat.shiftLeft_eq]
  ring

/-- The sign bit is the sign that the number is stored with. -/
theorem Stored.signBit_eq : signBit x = negative := by
  have hBits := h.toNat_toBits
  have hExponent : e.toNat < 2 ^ 11 := e.isLt
  have hMantissa : m.toNat < 2 ^ 52 := m.isLt
  have hFirst : x.toBits.toNat / 2 ^ 63 = negative.toNat := by omega
  show (x.toBits.toNat / 2 ^ 63 == 1) = negative
  rw [hFirst]
  cases negative <;> rfl

/-- The exact value is made of the three parts. -/
theorem Stored.ofFloat?_eq : Binary.ofFloat? x =
    if e = -1#11 then none
    else if e = 0#11 then some ⟨negative, m.toNat, -1074, false⟩
    else some ⟨negative, m.toNat + 2 ^ 52, (e.toNat : ℤ) - 1075, m.toNat == 0 && e.toNat > 1⟩ := by
  have hBits := h.toNat_toBits
  have hExponent : e.toNat < 2 ^ 11 := e.isLt
  have hMantissa : m.toNat < 2 ^ 52 := m.isLt
  have hSecond : x.toBits.toNat / 2 ^ 52 % 2 ^ 11 = e.toNat := by omega
  have hThird : x.toBits.toNat % 2 ^ 52 = m.toNat := by omega
  have hSign : (x.toBits.toNat / 2 ^ 63 == 1) = negative := h.signBit_eq
  have hOpen : Binary.ofFloat? x =
      if (x.toBits.toNat / 2 ^ 52 % 2 ^ 11 == 2047) = true then none
      else if (x.toBits.toNat / 2 ^ 52 % 2 ^ 11 == 0) = true then
        some ⟨x.toBits.toNat / 2 ^ 63 == 1, x.toBits.toNat % 2 ^ 52, -1074, false⟩
      else some ⟨x.toBits.toNat / 2 ^ 63 == 1, x.toBits.toNat % 2 ^ 52 + 2 ^ 52,
        ((x.toBits.toNat / 2 ^ 52 % 2 ^ 11 : ℕ) : ℤ) - 1075,
        x.toBits.toNat % 2 ^ 52 == 0 && x.toBits.toNat / 2 ^ 52 % 2 ^ 11 > 1⟩ := rfl
  have hOnes : e.toNat = 2047 ↔ e = -1#11 := by
    rw [← BitVec.toNat_inj]
    rfl
  have hZeros : e.toNat = 0 ↔ e = 0#11 := by
    rw [← BitVec.toNat_inj]
    rfl
  rw [hOpen, hSecond, hThird, hSign]
  simp only [beq_iff_eq, hOnes, hZeros]

/-- What is stored is the number that the parts stand for. -/
theorem Stored.eq_pack : x = ⟨Float.Model.pack (UnpackedFloat.unpack Format.binary64
    (packComponents Format.binary64 (if negative then .negative else .positive) e m))⟩ := by
  have hPacked := pack_unpack_of_valid x.toModel.valid
  rw [← h]
  obtain ⟨⟨bits, hValid⟩⟩ := x
  rw [Float.ofModel.injEq, Float.Model.mk.injEq]
  exact UInt64.toBitVec_inj.mp hPacked.symm

end

/-- The numbers that there are, each with its exact value. -/
inductive Decodes : Float → Option Binary → Prop where
  | nan : Decodes (0.0 / 0.0) none
  | infinity (negative : Bool) : Decodes (infinity negative) none
  | zero (negative : Bool) : Decodes (zero negative) (some ⟨negative, 0, -1074, false⟩)
  | finite {b : Binary} (h : b.Sound) : Decodes (finite b.negative h.legal) (some b)

/-- A mantissa that is stored with the least exponent has no leading digit. -/
theorem sound_subnormal (negative : Bool) {m : ℕ} (hPos : 0 < m) (hFew : m < 2 ^ 52) :
    Binary.Sound ⟨negative, m, -1074, false⟩ where
  legal := {
    pos := hPos
    few := show m < 2 ^ 53 by omega
    low := le_rfl
    high := by norm_num
    full := .inr rfl }
  lowest := by simp

/-- Else a leading digit stands before it. -/
theorem sound_normal (negative : Bool) {m e : ℕ} (hFew : m < 2 ^ 52) (hLow : 0 < e)
    (hHigh : e < 2047) :
    Binary.Sound ⟨negative, m + 2 ^ 52, (e : ℤ) - 1075, m == 0 && e > 1⟩ where
  legal := {
    pos := show 0 < m + 2 ^ 52 by omega
    few := show m + 2 ^ 52 < 2 ^ 53 by omega
    low := show -1074 ≤ (e : ℤ) - 1075 by omega
    high := show (e : ℤ) - 1075 < 972 by omega
    full := .inl (Nat.le_add_left _ m) }
  lowest := by
    simp only [Bool.and_eq_true, beq_iff_eq, decide_eq_true_iff]
    omega

theorem Decodes.of_pack {x : Float} {b : Binary} (h : b.Sound) {m : ℕ} {e : ℤ} {hPos : 0 < m}
    (hValue : x = ⟨Float.Model.pack
      (.finite (if b.negative then .negative else .positive) m e hPos)⟩)
    (hMantissa : m = b.mantissa) (hExponent : e = b.exponent) : Decodes x (some b) := by
  subst hValue hMantissa hExponent
  exact .finite h

/-- The digit that is not stored stands before the others. -/
theorem toNat_leading (m : BitVec 52) : (1#1 ++ m).toNat = m.toNat + 2 ^ 52 := by
  rw [BitVec.toNat_append, ← Nat.shiftLeft_add_eq_or_of_lt m.isLt, Nat.shiftLeft_eq, add_comm]
  rfl

section
variable {x : Float} {negative : Bool} {e : BitVec 11} {m : BitVec 52} (h : Stored x negative e m)
include h

/-- With the greatest exponent it is no finite number. -/
theorem Stored.decodes_greatest (hOnes : e = -1#11) : Decodes x none := by
  have hValue := h.eq_pack
  simp only [UnpackedFloat.unpack, unpackExponent_packComponents, unpackMantissa_packComponents,
    unpackSign_packComponents, hOnes, if_true] at hValue
  rw [hValue]
  by_cases hNone : m = 0#52
  · rw [if_pos hNone]
    cases negative
    · exact .infinity false
    · exact .infinity true
  · rw [if_neg hNone]
    exact .nan

/-- With the least exponent it is a zero, or a number without a leading digit. -/
theorem Stored.decodes_least (hZeros : e = 0#11) :
    Decodes x (some ⟨negative, m.toNat, -1074, false⟩) := by
  have hOnes : (0#11 : BitVec 11) ≠ -1#11 := by decide
  have hValue := h.eq_pack
  simp only [UnpackedFloat.unpack, unpackExponent_packComponents, unpackMantissa_packComponents,
    unpackSign_packComponents, hZeros, hOnes, if_true, if_false] at hValue
  by_cases hNone : m = 0#52
  · rw [dif_pos hNone] at hValue
    rw [hValue, hNone]
    cases negative
    · exact .zero false
    · exact .zero true
  · rw [dif_neg hNone] at hValue
    have hPos : 0 < m.toNat := Nat.pos_of_ne_zero fun hSame => hNone (BitVec.toNat_inj.mp hSame)
    exact .of_pack (sound_subnormal negative hPos m.isLt) hValue rfl rfl

/-- With any other exponent it is a number with a leading digit. -/
theorem Stored.decodes_between (hOnes : e ≠ -1#11) (hZeros : e ≠ 0#11) : Decodes x
    (some ⟨negative, m.toNat + 2 ^ 52, (e.toNat : ℤ) - 1075, m.toNat == 0 && e.toNat > 1⟩) := by
  have hGreatest : e.toNat ≠ 2047 := fun hSame => hOnes (BitVec.toNat_inj.mp hSame)
  have hLeast : e.toNat ≠ 0 := fun hSame => hZeros (BitVec.toNat_inj.mp hSame)
  have hFew : e.toNat < 2 ^ 11 := e.isLt
  have hSound := sound_normal negative m.isLt (Nat.pos_of_ne_zero hLeast) (by omega)
  have hValue := h.eq_pack
  simp only [UnpackedFloat.unpack, unpackExponent_packComponents, unpackMantissa_packComponents,
    unpackSign_packComponents, hZeros, hOnes, if_false] at hValue
  exact .of_pack hSound hValue (toNat_leading m) rfl

end

/-- Every number is one of these. -/
theorem decodes (x : Float) : Decodes x (Binary.ofFloat? x) := by
  obtain ⟨negative, e, m, h⟩ := exists_stored x
  rw [h.ofFloat?_eq]
  split
  · next hOnes => exact h.decodes_greatest hOnes
  · next hOnes =>
    split
    · next hZeros => exact h.decodes_least hZeros
    · next hZeros => exact h.decodes_between hOnes hZeros

end NoteTemplate.Decimal
