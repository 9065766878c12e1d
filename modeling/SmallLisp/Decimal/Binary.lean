/-!
# `SmallLisp.Decimal.Binary`: doubles as sign and magnitude

Without its sign bit, the pattern of a double is a natural number, its *magnitude*. Magnitudes are
in the order of the numbers that they stand for: those below `infinity` are the finite ones,
`infinity` itself comes next, and everything above is no number. A finite magnitude stands for
`units` steps of `2 ^ -1074`, the least positive double, and `nearest` finds the magnitude of the
double closest to a quotient of naturals. Of the quotient that a magnitude stands for it finds that
magnitude (`nearest_units`).
-/

namespace SmallLisp.Decimal

/-- A double: its sign bit and the rest of its pattern. -/
structure Binary where
  negative : Bool
  magnitude : Nat
  deriving DecidableEq, Repr

namespace Binary

/-- The sign and the magnitude of a double. -/
def ofFloat (x : Float) : Binary :=
  let pattern := x.toBits.toNat
  ⟨0x8000000000000000 ≤ pattern, pattern % 0x8000000000000000⟩

/-- The double of a sign and a magnitude. -/
def toFloat (b : Binary) : Float :=
  Float.ofBits (UInt64.ofNat (b.magnitude + if b.negative then 0x8000000000000000 else 0))

end Binary

/-- The magnitude of the infinities. -/
def infinity : Nat := 0x7FF0000000000000

/-- An infinity. -/
def infinite (negative : Bool) : Float := Binary.toFloat ⟨negative, infinity⟩

/-- The least positive double is two to the power of minus this. -/
def unitExponent : Nat := 1074

/-- How many steps of the least positive double make one. -/
def unitsInOne : Nat := 1 <<< unitExponent

/-- The number that a finite magnitude stands for, in steps of `2 ^ -1074`. The lower 52 bits are its
fraction, the bits above them its exponent. -/
def units (magnitude : Nat) : Nat :=
  if magnitude < 0x10000000000000 then magnitude
  else (magnitude % 0x10000000000000 + 0x10000000000000) <<< (magnitude / 0x10000000000000 - 1)

/-- The integer closest to `n / d`, the even one of two. -/
def roundHalfEven (n d : Nat) : Nat :=
  let q := n / d
  let r := n % d
  if 2 * r < d then q
  else if d < 2 * r then q + 1
  else if q % 2 = 0 then q else q + 1

/-- The magnitude closest to `n / d`, the even one of two; `infinity` from halfway past the
greatest finite number on. A quotient of at least `2 ^ 53` steps is cut to 53 binary digits first,
and a carry out of those moves on to the next magnitude by itself. -/
def nearest (n d : Nat) : Nat :=
  let steps := n * unitsInOne
  let cut := Nat.log2 (steps / d) - 52
  min (cut * 0x10000000000000 + roundHalfEven steps (d <<< cut)) infinity

/-- The double closest to an integer; none if that is infinite. -/
def ofInt? (n : Int) : Option Float :=
  let magnitude := nearest n.natAbs 1
  if magnitude < infinity then some (Binary.toFloat ⟨n < 0, magnitude⟩) else none

/-! ## Rounding is exact on doubles -/

theorem unitsInOne_pos : 0 < unitsInOne := by
  rw [unitsInOne, Nat.one_shiftLeft]
  exact Nat.two_pow_pos unitExponent

theorem roundHalfEven_mul_right (q d : Nat) (h : 0 < d) : roundHalfEven (q * d) d = q := by
  simp [roundHalfEven, Nat.mul_div_cancel _ h, h]

/-- A common factor changes nothing. -/
theorem roundHalfEven_mul_mul_right (n d k : Nat) (hk : 0 < k) :
    roundHalfEven (n * k) (d * k) = roundHalfEven n d := by
  simp only [roundHalfEven, Nat.mul_div_mul_right _ _ hk, Nat.mul_mod_mul_right, ← Nat.mul_assoc,
    Nat.mul_lt_mul_right hk]

/-- A common factor changes nothing. -/
theorem nearest_mul_mul_right (n d k : Nat) (hk : 0 < k) :
    nearest (n * k) (d * k) = nearest n d := by
  simp only [nearest, Nat.shiftLeft_eq, Nat.mul_right_comm n k, Nat.mul_right_comm d k,
    Nat.mul_div_mul_right _ _ hk, roundHalfEven_mul_mul_right _ _ _ hk]

/-- Above the least ones, a magnitude has 53 binary digits after the cut. -/
theorem log2_units {b : Nat} (h : 0x10000000000000 ≤ b) :
    (units b).log2 = 52 + (b / 0x10000000000000 - 1) := by
  have hm : b % 0x10000000000000 < 0x10000000000000 := Nat.mod_lt _ (by decide)
  have hpow : 0 < 2 ^ (b / 0x10000000000000 - 1) := Nat.two_pow_pos _
  rw [units, if_neg (by omega), Nat.shiftLeft_eq,
    Nat.log2_eq_iff (Nat.mul_ne_zero (by omega) (by omega))]
  constructor
  · rw [Nat.pow_add]
    exact Nat.mul_le_mul_right _ (by omega)
  · rw [Nat.add_right_comm, Nat.pow_add]
    exact Nat.mul_lt_mul_of_pos_right (by omega) hpow

/-- The number that a finite magnitude stands for rounds to that magnitude. -/
theorem nearest_units {b : Nat} (h : b < infinity) : nearest (units b) unitsInOne = b := by
  have hU := unitsInOne_pos
  unfold infinity at h
  simp only [nearest, Nat.mul_div_cancel _ hU, infinity]
  by_cases hb : b < 0x10000000000000
  · -- among the least ones nothing is cut
    have hcut : b.log2 - 52 = 0 := by
      rcases Nat.eq_zero_or_pos b with rfl | hp
      · simp
      · have hlog : b.log2 < 52 := (Nat.log2_lt (Nat.ne_of_gt hp)).2 hb
        omega
    simp only [units, if_pos hb, hcut, Nat.shiftLeft_zero, Nat.zero_mul, Nat.zero_add]
    rw [roundHalfEven_mul_right _ _ hU]
    omega
  · -- what is cut are the zeros that the exponent puts at the end
    have hq : 1 ≤ b / 0x10000000000000 := (Nat.le_div_iff_mul_le (by decide)).2 (by omega)
    rw [log2_units (by omega), Nat.add_sub_cancel_left, units, if_neg hb, Nat.shiftLeft_eq,
      Nat.shiftLeft_eq, Nat.mul_assoc, Nat.mul_comm _ unitsInOne,
      roundHalfEven_mul_right _ _ (Nat.mul_pos hU (Nat.two_pow_pos _)), Nat.sub_mul]
    have := Nat.div_add_mod b 0x10000000000000
    omega

end SmallLisp.Decimal
