import Mathlib.Algebra.Group.Nat.Defs
import SmallLisp.Decimal.Numeral

/-!
# `Proofs.Number.Numeral` — the magnitude of a numeral

`Numeral.magnitude` decides numbers far outside the range of a double by their power of ten, without
computing it. This changes no result: `Numeral.magnitude_eq` says that the magnitude is always the one
that is closest to what the numeral spells. A decimal can be spelled with more or fewer zeros at its end,
which makes no difference either (`Scientific.nearest_shift`).
-/

namespace SmallLisp.Decimal

open SmallLisp.Text

/-! ## Far from the range of a double -/

/-- From `10 ^ 310` on everything is infinite. -/
theorem nearest_eq_infinity {n d k : Nat} (hd : 0 < d) (hk : 310 ≤ k) (h : d * 10 ^ k ≤ n) :
    nearest n d = infinity := by
  -- the exponents stay variables, so that only the comparison of the two powers is computed
  obtain ⟨i, j, hi, hj, hpow⟩ : ∃ i j, 2099 ≤ i ∧ j ≤ 310 ∧ 2 ^ i ≤ 10 ^ j * unitsInOne :=
    ⟨2099, 310, Nat.le_refl _, Nat.le_refl _, by decide +kernel⟩
  have hten : 10 ^ j ≤ 10 ^ k := Nat.pow_le_pow_right (by decide) (Nat.le_trans hj hk)
  have hsteps : 2 ^ i ≤ n * unitsInOne / d := by
    rw [Nat.le_div_iff_mul_le hd]
    calc 2 ^ i * d ≤ 10 ^ k * unitsInOne * d :=
          Nat.mul_le_mul_right d (Nat.le_trans hpow (Nat.mul_le_mul_right _ hten))
      _ = d * 10 ^ k * unitsInOne := (Nat.mul_comm _ d).trans (Nat.mul_assoc d _ _).symm
      _ ≤ n * unitsInOne := Nat.mul_le_mul_right _ h
  have hne : n * unitsInOne / d ≠ 0 :=
    Nat.ne_of_gt (Nat.lt_of_lt_of_le (Nat.two_pow_pos i) hsteps)
  have hlog : i ≤ (n * unitsInOne / d).log2 := (Nat.le_log2 hne).2 hsteps
  have hcut : 2047 ≤ (n * unitsInOne / d).log2 - 52 := Nat.le_sub_of_add_le (Nat.le_trans hi hlog)
  have hmul : infinity ≤ ((n * unitsInOne / d).log2 - 52) * 0x10000000000000 :=
    Nat.mul_le_mul_right 0x10000000000000 hcut
  exact Nat.min_eq_right (Nat.le_trans hmul (Nat.le_add_right _ _))

/-- Below `10 ^ -331` everything is zero. -/
theorem nearest_eq_zero {n d k : Nat} (hk : 331 ≤ k) (h : n * 10 ^ k < d) : nearest n d = 0 := by
  obtain ⟨j, hj, hpow⟩ : ∃ j, j ≤ 331 ∧ 2 * unitsInOne ≤ 10 ^ j :=
    ⟨331, Nat.le_refl _, by decide +kernel⟩
  have hten : 10 ^ j ≤ 10 ^ k := Nat.pow_le_pow_right (by decide) (Nat.le_trans hj hk)
  have hsteps : 2 * (n * unitsInOne) < d := by
    calc 2 * (n * unitsInOne) = n * (2 * unitsInOne) := Nat.mul_left_comm ..
      _ ≤ n * 10 ^ k := Nat.mul_le_mul_left n (Nat.le_trans hpow hten)
      _ < d := h
  have hdiv : n * unitsInOne / d = 0 := Nat.div_eq_of_lt (by omega)
  have hmod : n * unitsInOne % d = n * unitsInOne := Nat.mod_eq_of_lt (by omega)
  -- less than half a unit is rounded down
  have hround : roundHalfEven (n * unitsInOne) d = 0 := by
    unfold roundHalfEven
    simp only [hdiv, hmod, if_pos hsteps]
  unfold nearest
  simp only [hdiv, Nat.log2_zero, Nat.zero_sub, Nat.zero_mul, Nat.shiftLeft_zero, hround,
    Nat.zero_add, Nat.zero_min]

theorem nearest_zero (d : Nat) : nearest 0 d = 0 := by
  simp [nearest, roundHalfEven]

namespace Scientific

/-- Zeros can go from the coefficient into the exponent. -/
theorem nearest_shift (c k : Nat) (e : Int) :
    Scientific.nearest ⟨c * 10 ^ k, e⟩ = Scientific.nearest ⟨c, e + k⟩ := by
  have hten (j : Nat) : 0 < 10 ^ j := Nat.pow_pos (by decide)
  unfold Scientific.nearest
  simp only [Nat.pow_eq]
  by_cases he : 0 ≤ e
  · have hexponent : (e + k).toNat = k + e.toNat := by omega
    rw [if_pos he, if_pos (by omega), hexponent, Nat.pow_add, Nat.mul_assoc]
  · rw [if_neg he]
    by_cases hek : 0 ≤ e + k
    · -- the point is among the zeros
      have hk : k = (e + k).toNat + (-e).toNat := by omega
      rw [if_pos hek]
      conv => lhs; rw [hk, Nat.pow_add, ← Nat.mul_assoc]
      rw [← nearest_mul_mul_right _ 1 _ (hten (-e).toNat), Nat.one_mul]
    · have hexponent : (-e).toNat = (-(e + k)).toNat + k := by omega
      rw [if_neg hek, hexponent, Nat.pow_add, nearest_mul_mul_right _ _ _ (hten k)]

theorem nearest_natural (n : Nat) : Scientific.nearest ⟨n, 0⟩ = Decimal.nearest n 1 := by
  simp [Scientific.nearest]

theorem nearest_zero (e : Int) : Scientific.nearest ⟨0, e⟩ = 0 := by
  simp only [Scientific.nearest, Nat.zero_mul, Decimal.nearest_zero, ite_self]

theorem coefficient_ne_zero {d : Scientific} (h : d.nearest ≠ 0) : d.coefficient ≠ 0 := by
  obtain ⟨c, e⟩ := d
  rintro rfl
  exact h (nearest_zero e)

end Scientific

/-! ## Digits -/

/-- The digits at the front count for as many powers of ten as digits follow them. -/
theorem natOfDigits_append (ds es : List Nat) :
    natOfDigits (ds ++ es) = natOfDigits ds * 10 ^ es.length + natOfDigits es := by
  -- reading on from any number, and not only from zero, is what the induction needs
  have hfoldl (n : Nat) : es.foldl (fun n digit => 10 * n + digit) n =
      n * 10 ^ es.length + natOfDigits es := by
    unfold natOfDigits
    induction es generalizing n with
    | nil => simp
    | cons d es ih =>
      rw [List.foldl_cons, List.foldl_cons, ih, ih (10 * 0 + d), List.length_cons, Nat.pow_succ]
      rw [Nat.add_mul, Nat.add_mul]
      have : 10 * n * 10 ^ es.length = n * (10 ^ es.length * 10) := by
        rw [Nat.mul_comm 10 n, Nat.mul_assoc, Nat.mul_comm 10]
      omega
  rw [← hfoldl]
  unfold natOfDigits
  rw [List.foldl_append]

theorem natOfDigits_cons (d : Nat) (ds : List Nat) :
    natOfDigits (d :: ds) = d * 10 ^ ds.length + natOfDigits ds := by
  have h := natOfDigits_append [d] ds
  simpa [natOfDigits] using h

theorem natOfDigits_lt {ds : List Nat} (h : ∀ d ∈ ds, d < 10) : natOfDigits ds < 10 ^ ds.length := by
  induction ds with
  | nil => exact Nat.one_pos
  | cons d ds ih =>
    obtain ⟨hd, hds⟩ := List.forall_mem_cons.1 h
    have hmul : d * 10 ^ ds.length ≤ 9 * 10 ^ ds.length := Nat.mul_le_mul_right _ (by omega)
    have hlt := ih hds
    rw [natOfDigits_cons, List.length_cons, Nat.pow_succ]
    omega

/-- Zeros at the front do not count. -/
theorem natOfDigits_dropWhile (ds : List Nat) :
    natOfDigits (ds.dropWhile (· == 0)) = natOfDigits ds := by
  induction ds with
  | nil => rfl
  | cons d ds ih =>
    rw [List.dropWhile_cons]
    split
    · rename_i h0
      rw [ih, natOfDigits_cons, beq_iff_eq.1 h0]
      omega
    · rfl

namespace Numeral

/-- **The shortcuts of `magnitude` are only shortcuts**: it is the magnitude closest to what the numeral
    spells. -/
theorem magnitude_eq {n : Numeral} (h : ∀ d ∈ n.digits, d < 10) :
    n.magnitude = n.scientific.nearest := by
  have hten (j : Nat) : 0 < 10 ^ j := Nat.pow_pos (by decide)
  have hvalue : natOfDigits (n.digits.dropWhile (· == 0)) = natOfDigits n.digits :=
    natOfDigits_dropWhile n.digits
  have hbound : ∀ d ∈ n.digits.dropWhile (· == 0), d < 10 := fun d hd =>
    h d ((List.dropWhile_suffix _).subset hd)
  have hany : (n.digits.dropWhile (· == 0)).any (fun d => !(d == 0)) = !n.digits.all (· == 0) :=
    List.any_dropWhile
  have hupper := natOfDigits_lt hbound
  rw [hvalue] at hupper
  unfold magnitude scientific Scientific.nearest
  simp only [Nat.pow_eq]
  cases hz : n.digits.dropWhile (· == 0) with
  | nil =>
    have hzero : natOfDigits n.digits = 0 := by
      rw [← hvalue, hz]
      rfl
    have hall : n.digits.all (· == 0) = true := by
      rw [hz] at hany
      simpa using hany
    rw [if_pos hall, hzero, Nat.zero_mul, nearest_zero, nearest_zero, ite_self]
  | cons first rest =>
    have hfirst : 0 < first := by
      have hne : n.digits.dropWhile (· == 0) ≠ [] := hz ▸ List.cons_ne_nil _ _
      have hhead := List.head_dropWhile_not (· == 0) hne
      simp only [hz, List.head_cons, beq_eq_false_iff_ne] at hhead
      exact Nat.pos_of_ne_zero hhead
    have hall : ¬ n.digits.all (· == 0) = true := by
      intro hall
      rw [hz, List.any_cons, beq_eq_false_iff_ne.2 (Nat.ne_of_gt hfirst), hall] at hany
      cases hany
    -- the first digit that is not zero decides the power of ten
    have hlower : 10 ^ rest.length ≤ natOfDigits n.digits := by
      rw [← hvalue, hz, natOfDigits_cons]
      exact Nat.le_trans (Nat.le_mul_of_pos_left _ hfirst) (Nat.le_add_right _ _)
    rw [hz, List.length_cons] at hupper
    rw [if_neg hall, List.length_cons]
    split
    · -- too large, whichever way the power of ten is brought in
      rename_i htop
      split
      · refine (nearest_eq_infinity Nat.one_pos (k := rest.length + n.exponent.toNat) ?_ ?_).symm
        · omega
        · rw [Nat.one_mul, Nat.pow_add]
          exact Nat.mul_le_mul_right _ hlower
      · refine (nearest_eq_infinity (hten _) (k := rest.length - (-n.exponent).toNat) ?_ ?_).symm
        · omega
        · rw [← Nat.pow_add, Nat.add_sub_cancel' (by omega)]
          exact hlower
    · split
      · -- too small: the power of ten divides
        rename_i htop
        rw [if_neg (by omega)]
        refine (nearest_eq_zero (k := (-n.exponent).toNat - (rest.length + 1)) ?_ ?_).symm
        · omega
        · calc natOfDigits n.digits * 10 ^ ((-n.exponent).toNat - (rest.length + 1))
              < 10 ^ (rest.length + 1) * 10 ^ ((-n.exponent).toNat - (rest.length + 1)) :=
                Nat.mul_lt_mul_of_pos_right hupper (hten _)
            _ = 10 ^ (-n.exponent).toNat := by rw [← Nat.pow_add, Nat.add_sub_cancel' (by omega)]
      · rfl

/-- No numeral lies beyond the infinities. -/
theorem magnitude_le_infinity (n : Numeral) : n.magnitude ≤ infinity := by
  have hnearest (k d : Nat) : Decimal.nearest k d ≤ infinity := Nat.min_le_right _ _
  unfold magnitude
  dsimp only
  split
  · exact Nat.zero_le _
  · split
    · exact Nat.le_refl _
    · split
      · exact Nat.zero_le _
      · unfold Scientific.nearest
        split
        · exact hnearest _ _
        · exact hnearest _ _

end Numeral

end SmallLisp.Decimal
