import SmallLisp.Decimal.Binary

/-!
# `SmallLisp.Decimal.Shortest`: the fewest digits that read back

`shortest` writes a finite magnitude as a decimal with as few digits as read back as the same
magnitude, and of those the one closest to it. For one digit, two, and so on it tries the two
decimals next to the number; seventeen digits are enough, and the expansion of a binary fraction is
finite in any case. What is written always reads back (`nearest_shortest`).
-/

namespace SmallLisp.Decimal

/-- The decimal `coefficient · 10 ^ exponent`. -/
structure Scientific where
  coefficient : Nat
  exponent : Int
  deriving DecidableEq, Repr

/-- The magnitude closest to a decimal. -/
def Scientific.nearest (d : Scientific) : Nat :=
  if 0 ≤ d.exponent then Decimal.nearest (d.coefficient * Nat.pow 10 d.exponent.toNat) 1
  else Decimal.nearest d.coefficient (Nat.pow 10 (-d.exponent).toNat)

/-- How many digits stand before the point of `units` steps: zeros that follow the point at once
count as negative. Every positive number of steps is over `10 ^ -330`. -/
def pointPlace (units : Nat) : Int :=
  (Nat.toDigits 10 (units * Nat.pow 10 330 / unitsInOne)).length - 330

/-- The decimal with exponent `exponent` next to `units` steps that reads back as `magnitude`: the
closer one, else the one on the other side. -/
def neighbour? (magnitude units : Nat) (exponent : Int) : Option Scientific :=
  let n := if 0 ≤ exponent then units else units * Nat.pow 10 (-exponent).toNat
  let d := if 0 ≤ exponent then unitsInOne * Nat.pow 10 exponent.toNat else unitsInOne
  let closer := roundHalfEven n d
  let other := if closer = n / d then n / d + 1 else n / d
  [Scientific.mk closer exponent, Scientific.mk other exponent].find? (·.nearest == magnitude)

/-- The most digits that a double needs. -/
def mostDigits : Nat := 17

/-- The whole expansion of a magnitude. -/
def expansion (magnitude : Nat) : Scientific :=
  ⟨units magnitude * Nat.pow 5 unitExponent, -unitExponent⟩

/-- The shortest decimal that reads back as the magnitude. -/
def shortest (magnitude : Nat) : Scientific :=
  let steps := units magnitude
  let point := pointPlace steps
  ((List.range' 1 mostDigits).findSome? fun (digits : Nat) =>
      neighbour? magnitude steps (point - digits)).getD (expansion magnitude)

/-- Of the two decimals next to a number only one that reads back is taken. -/
theorem nearest_neighbour {magnitude steps : Nat} {exponent : Int} {d : Scientific}
    (h : neighbour? magnitude steps exponent = some d) : d.nearest = magnitude := by
  unfold neighbour? at h
  simpa using List.find?_some h

/-- The whole expansion of a magnitude reads back as that magnitude. -/
theorem nearest_expansion {b : Nat} (h : b < infinity) : (expansion b).nearest = b := by
  have hsign : ¬ (0 : Int) ≤ -unitExponent := by decide
  -- a power of five is the common factor of the digits and the power of ten below them
  have hpow (k : Nat) : Nat.pow 10 k = 1 <<< k * Nat.pow 5 k := by
    rw [Nat.one_shiftLeft]
    exact Nat.mul_pow 2 5 k
  have hpos (k : Nat) : 0 < Nat.pow 5 k := Nat.pow_pos (by decide)
  simp only [Scientific.nearest, expansion, hsign, if_false, Int.neg_neg, Int.toNat_natCast]
  rw [hpow, ← unitsInOne, nearest_mul_mul_right _ _ _ (hpos unitExponent), nearest_units h]

/-- The shortest decimal of a magnitude reads back as that magnitude. -/
theorem nearest_shortest {b : Nat} (h : b < infinity) : (shortest b).nearest = b := by
  simp only [shortest]
  cases hs : (List.range' 1 mostDigits).findSome? fun (digits : Nat) =>
      neighbour? b (units b) (pointPlace (units b) - digits) with
  | none => exact nearest_expansion h
  | some d =>
    obtain ⟨digits, _, hd⟩ := List.exists_of_findSome?_eq_some hs
    exact nearest_neighbour hd

end SmallLisp.Decimal
