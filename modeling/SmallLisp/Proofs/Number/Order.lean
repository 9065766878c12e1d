import Mathlib

/-!
# `Proofs.Number.Order` — how doubles compare

A double that is a number has a `rank`: the infinities are at the ends, zeros of both signs in the middle, and
between them finite numbers are ordered by exponent and mantissa. One double is less than another exactly if
both are numbers and their ranks are in this order (`lt_iff_rank`), and so less is transitive. Of equality the
library knows that it is symmetric and transitive; NaN is not equal to itself.
-/

namespace SmallLisp.Double

open Float.Model

/-! ## Ranks -/

/-- The place of a number among the numbers: the kind of number, its exponent and its mantissa. -/
def rank : UnpackedFloat → ℤ ×ₗ ℤ ×ₗ ℤ
  | .infinity .negative => toLex (-2, toLex (0, 0))
  | .finite .negative m e _ => toLex (-1, toLex (-e, -m))
  | .zero _ | .notANumber => toLex (0, toLex (0, 0))
  | .finite .positive m e _ => toLex (1, toLex (e, m))
  | .infinity .positive => toLex (2, toLex (0, 0))

theorem compare_sign_eq_lt_iff (s t : UnpackedFloat.Sign) :
    compare s t = .lt ↔ s = .negative ∧ t = .positive := by
  cases s with
  | positive => cases t <;> simp
  | negative =>
    cases t with
    | positive => exact iff_of_true rfl ⟨rfl, rfl⟩
    | negative => simp

/-- **Numbers are compared by their ranks**, and NaN is not compared. -/
theorem lt_iff_rank (a b : UnpackedFloat) :
    a.lt b = true ↔ a ≠ .notANumber ∧ b ≠ .notANumber ∧ rank a < rank b := by
  -- one case for each two kinds of number; only two numbers of one kind and sign are looked at closer
  rcases a with (_ | _) | _ | (_ | _) | ⟨_ | _, m, e, hm⟩ <;>
    rcases b with (_ | _) | _ | (_ | _) | ⟨_ | _, n, k, hn⟩ <;>
    simp [UnpackedFloat.lt, UnpackedFloat.compare, rank, Prod.Lex.toLex_lt_toLex, Ordering.then_eq_lt,
      Ordering.then_eq_gt, compare_sign_eq_lt_iff, compare_lt_iff_lt, compare_gt_iff_gt]

/-! ## Comparing doubles -/

variable {x y z : Float}

theorem lt_iff_unpack : x < y ↔ x.toModel.unpack.lt y.toModel.unpack = true :=
  decide_eq_true_iff

/-- What is less than something less is less. -/
theorem lt_trans (hxy : x < y) (hyz : y < z) : x < z := by
  rw [lt_iff_unpack, lt_iff_rank] at *
  exact ⟨hxy.1, hyz.2.1, hxy.2.2.trans hyz.2.2⟩

/-- A double equals zero if it is a zero of either sign. -/
theorem beq_zero_iff : (x == 0) = true ↔ x = 0 ∨ x = -0 := by
  have hzero : (0 : Float) ≠ .nan := by decide
  have hnegative : (-0 : Float) ≠ .nan := by decide
  rw [Float.beq_iff_ne_nan_and_eq]
  grind

end SmallLisp.Double
