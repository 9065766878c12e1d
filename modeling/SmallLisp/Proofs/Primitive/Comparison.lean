import SmallLisp.Proofs.Primitive.Numeric

/-!
# `Proofs.Primitive.Comparison` — chains of comparisons as a whole

A comparison looks at every number and the next one, and at no other two (`isChain`). Its relation is
transitive, so it holds for every number and any later one if it holds for adjacent ones
(`isChain_iff_pairwise`). The rest follows from what is known of such lists: a chain may be read from its end
with the converse relation, the order does not matter if the relation is symmetric, and two chains make one
if the last number of the first and the first number of the second are related (`comparison_chains`). All
this holds for NaN as well, which is not even equal to itself.
-/

namespace SmallLisp.Primitive

variable {depth : Nat} {p : Primitive} {related : Float → Float → Bool} {args : List Value}
  {x y z : Float} {xs ys : List Float}

/-! ## The relations -/

theorem Compares.trans (hp : Compares p related) (hxy : related x y = true) (hyz : related y z = true) :
    related x z = true := by
  cases hp with
  | equal => exact BEq.trans hxy hyz
  | less =>
    rw [decide_eq_true_iff] at *
    exact Double.lt_trans hxy hyz
  | greater =>
    rw [decide_eq_true_iff] at *
    exact Double.lt_trans hyz hxy

theorem isChain_iff (related : Float → Float → Bool) (xs : List Float) :
    isChain related xs = true ↔ xs.IsChain fun x y => related x y = true := by
  induction xs with
  | nil => exact iff_of_true rfl .nil
  | cons x xs ih =>
    cases xs with
    | nil => exact iff_of_true rfl (.singleton x)
    | cons y rest => rw [isChain, Bool.and_eq_true, ih, List.isChain_cons_cons]

/-- **A chain holds between any two of its numbers**, in their order. -/
theorem isChain_iff_pairwise (hp : Compares p related) (xs : List Float) :
    isChain related xs = true ↔ xs.Pairwise fun x y => related x y = true := by
  have : Trans (fun x y => related x y = true) (fun x y => related x y = true)
      (fun x y => related x y = true) := ⟨hp.trans⟩
  rw [isChain_iff, List.isChain_iff_pairwise]

/-- To be less is to be greater from the other end. -/
theorem isChain_reverse (xs : List Float) :
    isChain (· > ·) xs.reverse = isChain (· < ·) xs := by
  rw [Bool.eq_iff_iff, isChain_iff, isChain_iff, List.isChain_reverse]

/-- Equality does not depend on the order. -/
theorem isChain_beq_perm (h : xs.Perm ys) : isChain (· == ·) xs = isChain (· == ·) ys := by
  rw [Bool.eq_iff_iff, isChain_iff_pairwise .equal, isChain_iff_pairwise .equal]
  exact h.pairwise_iff BEq.symm

/-- Two chains are one if they are related where they meet. -/
theorem isChain_append (related : Float → Float → Bool) (xs ys : List Float) (x y : Float) :
    isChain related ((xs ++ [x]) ++ y :: ys) = true ↔
      isChain related (xs ++ [x]) = true ∧ isChain related (y :: ys) = true ∧ related x y = true := by
  rw [isChain_iff, isChain_iff, isChain_iff, List.isChain_append]
  simp

/-! ## Calls -/

/-- A comparison of at least two numbers answers whether they are a chain. -/
theorem Compares.on_call (hp : Compares p related) (hargs : Doubles args xs) (h : 2 ≤ xs.length)
    (depth : Nat) (m : Machine) :
    (p.call depth args).on m = (.ok (.truth (isChain related xs)), m) := by
  have henough : ¬ args.length < 2 := by
    rw [hargs.length_eq]
    exact Nat.not_lt_of_le h
  rw [(Numeric.compare hp).on_call, (Numeric.compare hp).compute_eq, if_neg henough, numbers_of_doubles hargs]
  rfl

/-- Arguments in another order are the same numbers in another order. -/
theorem Doubles.perm {others : List Value} (hargs : Doubles args xs) (h : args.Perm others) :
    ∃ ys, Doubles others ys ∧ xs.Perm ys := by
  obtain ⟨ys, hys, hperm⟩ := List.perm_comp_forall₂ h.symm hargs
  exact ⟨ys, hys, hperm.symm⟩

/-- **Chains of comparisons mean what they say for whole lists.** A comparison of at least two numbers answers
    whether its relation holds between every number and every later one. To ask `<` is to ask `>` from the
    end; `=` does not depend on the order of its arguments. Of two lists of at least two numbers the
    comparison holds exactly if it holds of each of them and between the last number of the first and the
    first number of the second. -/
theorem comparison_chains (depth : Nat) (m : Machine) :
    (∀ p related, Compares p related → ∀ args xs, Doubles args xs → 2 ≤ xs.length →
      (p.call depth args).on m =
        (.ok (.truth (decide (xs.Pairwise fun x y => related x y = true))), m)) ∧
    (∀ args xs, Doubles args xs → 2 ≤ xs.length →
      (less.call depth args).on m = (greater.call depth args.reverse).on m) ∧
    (∀ args others xs, Doubles args xs → 2 ≤ xs.length → args.Perm others →
      (equal.call depth args).on m = (equal.call depth others).on m) ∧
    (∀ p related, Compares p related → ∀ args others xs ys x y, Doubles args (xs ++ [x]) →
      Doubles others (y :: ys) → 2 ≤ (xs ++ [x]).length → 2 ≤ (y :: ys).length →
      ((p.call depth (args ++ others)).on m = (.ok (.truth true), m) ↔
        (p.call depth args).on m = (.ok (.truth true), m) ∧
          (p.call depth others).on m = (.ok (.truth true), m) ∧ related x y = true)) := by
  refine ⟨?pairs, ?reversed, ?permuted, ?appended⟩
  case pairs =>
    intro p related hp args xs hargs h
    have hchain : isChain related xs = decide (xs.Pairwise fun x y => related x y = true) := by
      rw [Bool.eq_iff_iff, isChain_iff_pairwise hp, decide_eq_true_iff]
    rw [hp.on_call hargs h, hchain]
  case reversed =>
    intro args xs hargs h
    have hreverse : 2 ≤ xs.reverse.length := by rwa [List.length_reverse]
    rw [Compares.less.on_call hargs h, Compares.greater.on_call (List.rel_reverse hargs) hreverse,
      isChain_reverse]
  case permuted =>
    intro args others xs hargs h hperm
    obtain ⟨ys, hothers, hys⟩ := hargs.perm hperm
    have hlength : 2 ≤ ys.length := by rwa [← hys.length_eq]
    rw [Compares.equal.on_call hargs h, Compares.equal.on_call hothers hlength, isChain_beq_perm hys]
  case appended =>
    intro p related hp args others xs ys x y hargs hothers h h'
    have hlength : 2 ≤ ((xs ++ [x]) ++ y :: ys).length := by
      rw [List.length_append]
      exact Nat.le_add_right_of_le h
    have hholds {args : List Value} {xs : List Float} (hargs : Doubles args xs) (h : 2 ≤ xs.length) :
        (p.call depth args).on m = (.ok (.truth true), m) ↔ isChain related xs = true := by
      rw [hp.on_call hargs h]
      simp
    rw [hholds (List.rel_append hargs hothers) hlength, hholds hargs h, hholds hothers h', isChain_append]

/-- NaN stands between 1 and 2, and between two zeros that are equal. -/
theorem comparison_chains_nan :
    let m := Machine.fresh false .texts
    let ordered : List Float := [1, .nan, 2]
    let zeros : List Float := [0, .nan, -0]
    (greater.call 9 (ordered.map Value.number).reverse).on m = (.ok (.truth false), m) ∧
      (equal.call 9 ([-0, 0, .nan].map Value.number)).on m =
        (equal.call 9 (zeros.map Value.number)).on m := by
  intro m ordered zeros
  obtain ⟨hpairs, hreversed, hpermuted, _⟩ := comparison_chains 9 m
  constructor
  · rw [← hreversed _ ordered (doubles_number ordered) (by decide),
      hpairs less _ .less _ ordered (doubles_number ordered) (by decide)]
    have hnot : decide (ordered.Pairwise fun x y => decide (x < y) = true) = false := by decide +kernel
    rw [hnot]
  · refine hpermuted _ _ [-0, 0, .nan] (doubles_number _) (by decide) ?_
    have hperm : ([-0] ++ [0, .nan] : List Float).Perm ([0, .nan] ++ [-0]) := List.perm_append_comm
    exact hperm.map Value.number

end SmallLisp.Primitive
