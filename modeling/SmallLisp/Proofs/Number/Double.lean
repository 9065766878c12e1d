import Mathlib
import SmallLisp.Decimal.Binary

/-!
# `Proofs.Number.Double` — a double and its sign and magnitude

`Binary.ofFloat` takes a double apart into its sign and its magnitude, and `Binary.toFloat` puts them
together. Nothing is lost on the way (`toFloat_ofFloat`, `ofFloat_toFloat`), the numbers are the doubles with
a magnitude up to that of the infinities (`magnitude_le_infinity`, `isNaN_toFloat`), and two doubles are equal
as numbers if they agree in the magnitude and, unless that is zero, in the sign (`beq_toFloat`).
-/

namespace SmallLisp.Decimal

open Float.Model (Format UnpackedFloat)
open Float.Model.UnpackedFloat
  (unpackExponent unpackMantissa isNaN_unpack_iff_of_valid isNaNBits pack_unpack)

/-! ## The fields of a pattern -/

theorem toNat_unpackMantissa (b : BitVec Format.binary64.numBits) :
    (unpackMantissa b).toNat = b.toNat % 2 ^ 52 := by
  simp [unpackMantissa]

theorem toNat_unpackExponent (b : BitVec Format.binary64.numBits) :
    (unpackExponent b).toNat = b.toNat / 2 ^ 52 % 2 ^ 11 := by
  simp [unpackExponent, Nat.shiftRight_eq_div_pow]

/-! ## Sign and magnitude -/

namespace Binary

/-- **Taking a double apart loses nothing.** -/
theorem toFloat_ofFloat (x : Float) : (ofFloat x).toFloat = x := by
  have hlt : x.toBits.toNat < 2 ^ 64 := x.toBits.toNat_lt
  have hbits : UInt64.ofNat ((ofFloat x).magnitude +
      if (ofFloat x).negative then 0x8000000000000000 else 0) = x.toBits := by
    apply UInt64.toNat.inj
    rw [UInt64.toNat_ofNat']
    -- the sign is the highest bit, the magnitude all bits below it
    simp only [ofFloat, decide_eq_true_eq]
    split <;> omega
  unfold toFloat
  rw [hbits, Float.ofBits_toBits]

/-- What is a number is finite or an infinity. -/
theorem magnitude_le_infinity {x : Float} (h : x.isNaN = false) :
    (ofFloat x).magnitude ≤ infinity := by
  rcases Nat.lt_or_ge infinity (ofFloat x).magnitude with hlt | hle
  · -- the exponent has all its bits, and the mantissa at least one of them
    let pattern : BitVec Format.binary64.numBits := x.toModel.toBits.toBitVec
    have hbits : 0x7FF0000000000000 < pattern.toNat % 0x8000000000000000 := hlt
    have hexponent : unpackExponent pattern = -1#11 := by
      apply BitVec.eq_of_toNat_eq
      rw [toNat_unpackExponent]
      show pattern.toNat / 2 ^ 52 % 2 ^ 11 = 2047
      omega
    have hmantissa : unpackMantissa pattern ≠ 0#52 := by
      intro h0
      have hzero : pattern.toNat % 2 ^ 52 = 0 := by
        rw [← toNat_unpackMantissa, h0]
        rfl
      omega
    have hvalid : Format.binary64.Valid pattern := x.toModel.valid
    have hnan : x.isNaN = true :=
      (isNaN_unpack_iff_of_valid hvalid).2 (hvalid.eq_packedNaN hexponent hmantissa)
    rw [hnan] at h
    cases h
  · exact hle

/-- A bit pattern is kept, unless its magnitude is above that of the infinities. -/
theorem toBits_ofBits {pattern : UInt64} (h : pattern.toNat % 0x8000000000000000 ≤ infinity) :
    (Float.ofBits pattern).toBits = pattern := by
  -- the exponent has all its bits for an infinity only, and that has no bit in its mantissa
  have hbits : ¬ @isNaNBits Format.binary64 pattern.toBitVec = true := by
    rw [isNaNBits, decide_eq_true_eq]
    rintro ⟨hexponent, hmantissa⟩
    apply hmantissa
    have hexponent := congrArg BitVec.toNat hexponent
    rw [toNat_unpackExponent] at hexponent
    have hones : pattern.toNat / 2 ^ 52 % 2 ^ 11 = 2047 := hexponent
    apply BitVec.eq_of_toNat_eq
    rw [toNat_unpackMantissa]
    show pattern.toNat % 2 ^ 52 = 0
    unfold infinity at h
    omega
  apply UInt64.toBitVec_inj.1
  show (UnpackedFloat.unpack Format.binary64 pattern.toBitVec).pack Format.binary64 = _
  rw [pack_unpack _ (by decide), if_neg hbits]

/-- **Putting a double together loses nothing**, unless what it is put together of is no number. -/
theorem ofFloat_toFloat {b : Binary} (h : b.magnitude ≤ infinity) : ofFloat b.toFloat = b := by
  obtain ⟨negative, magnitude⟩ := b
  dsimp only at h
  obtain ⟨pattern, hpattern⟩ : ∃ pattern : UInt64,
      pattern = UInt64.ofNat (magnitude + if negative then 0x8000000000000000 else 0) := ⟨_, rfl⟩
  have hsmall : magnitude < 0x7ff8000000000000 := Nat.lt_of_le_of_lt h (by decide)
  have hnat : pattern.toNat = magnitude + if negative then 0x8000000000000000 else 0 := by
    rw [hpattern, UInt64.toNat_ofNat', Nat.mod_eq_of_lt]
    split <;> omega
  obtain ⟨hsign, hrest⟩ : decide (0x8000000000000000 ≤ pattern.toNat) = negative ∧
      pattern.toNat % 0x8000000000000000 = magnitude := by
    cases negative with
    | true =>
      rw [if_pos rfl] at hnat
      exact ⟨decide_eq_true (by omega), by omega⟩
    | false =>
      rw [if_neg nofun] at hnat
      exact ⟨decide_eq_false (by omega), by omega⟩
  rw [toFloat, ← hpattern, ofFloat, toBits_ofBits (hrest ▸ h)]
  show Binary.mk (decide (0x8000000000000000 ≤ pattern.toNat)) (pattern.toNat % 0x8000000000000000) = _
  rw [hsign, hrest]

/-- What is put together of a magnitude up to that of the infinities is a number. -/
theorem isNaN_toFloat {b : Binary} (h : b.magnitude ≤ infinity) : b.toFloat.isNaN = false := by
  rw [Float.isNaN_eq_decide_eq_nan]
  apply decide_eq_false
  intro hnan
  have hmagnitude : ¬ (ofFloat Float.nan).magnitude ≤ infinity := by decide
  rw [← hnan, ofFloat_toFloat h] at hmagnitude
  exact hmagnitude h

/-- A number equals every double of its magnitude and, unless it is zero, of its sign. -/
theorem beq_toFloat {x : Float} (h : x.isNaN = false) {negative : Bool}
    (hs : (ofFloat x).magnitude ≠ 0 → negative = (ofFloat x).negative) :
    (x == toFloat ⟨negative, (ofFloat x).magnitude⟩) = true := by
  by_cases hzero : (ofFloat x).magnitude = 0
  · -- the two zeros differ in their sign and are equal as numbers
    have hzeros : ∀ a b : Bool, (toFloat ⟨a, 0⟩ == toFloat ⟨b, 0⟩) = true := by decide
    have hx : toFloat ⟨(ofFloat x).negative, 0⟩ = x := by
      rw [← hzero]
      exact toFloat_ofFloat x
    have hequal := hzeros (ofFloat x).negative negative
    rw [hx] at hequal
    rw [hzero]
    exact hequal
  · have hnan : x ≠ Float.nan := by
      rw [Float.isNaN_eq_decide_eq_nan] at h
      exact of_decide_eq_false h
    rw [hs hzero]
    show (x == toFloat (ofFloat x)) = true
    rw [toFloat_ofFloat]
    exact Float.beq_self_iff.2 hnan

end Binary

end SmallLisp.Decimal
