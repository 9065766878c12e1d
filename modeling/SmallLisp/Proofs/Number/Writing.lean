import SmallLisp.Proofs.Number.Spelling

/-!
# `Proofs.Number.Writing` — what is written for a number spells it

Every text that the library writes for a finite number is a sign and a spelling in the sense of
`Proofs.Number.Spelling`: the digits of a whole number (`spells_toDigits`), and a decimal in either of the
two forms of a layout (`spells_write`). For a double it spells the magnitude of that double
(`exists_spelling_programText`).
-/

namespace SmallLisp.Decimal

/-- A text that spells a decimal, or another one with the same closest magnitude. -/
def Spells (text : List Char) (d : Scientific) : Prop :=
  ∃ s : Spelling, s.text = text ∧ s.scientific.nearest = d.nearest

theorem isDigit_of_mem_toDigits {n : Nat} : ∀ c ∈ Nat.toDigits 10 n, c.isDigit := fun _ hc =>
  Nat.isDigit_of_mem_toDigits (by decide) (by decide) hc

theorem isDigit_of_mem_zeros {k : Nat} : ∀ c ∈ List.replicate k '0', c.isDigit := by
  intro c hc
  rw [List.eq_of_mem_replicate hc]
  rfl

/-- A whole number is spelled by its digits. -/
theorem spells_toDigits (n : Nat) : Spells (Nat.toDigits 10 n) ⟨n, 0⟩ := by
  refine ⟨⟨Nat.toDigits 10 n, none, none, Nat.toDigits_ne_nil, isDigit_of_mem_toDigits,
    nofun, nofun, nofun⟩, ?_, ?_⟩
  · simp [Spelling.text, Spelling.pointText, Spelling.exponentText]
  · simp [Spelling.scientific, Spelling.places, Spelling.power]

/-! ## Layouts -/

/-- Zeros at the end of the digits count as powers of ten. -/
theorem ofDigitChars_append_zeros (ds : List Char) (k : Nat) :
    Nat.ofDigitChars 10 (ds ++ List.replicate k '0') 0 = Nat.ofDigitChars 10 ds 0 * 10 ^ k := by
  rw [Nat.ofDigitChars_append, Nat.ofDigitChars_replicate_zero, Nat.mul_comm]

/-- Zeros before the digits do not count. -/
theorem ofDigitChars_zeros_append (ds : List Char) (k : Nat) :
    Nat.ofDigitChars 10 (List.replicate k '0' ++ ds) 0 = Nat.ofDigitChars 10 ds 0 := by
  rw [Nat.ofDigitChars_append, Nat.ofDigitChars_replicate_zero, Nat.mul_zero]

section

variable {ds : List Char}

/-- Digits with a point after the first `point` of them. -/
theorem spells_plain (hne : ds ≠ []) (hds : ∀ c ∈ ds, c.isDigit) (point : Int) :
    Spells (plain ds point) ⟨Nat.ofDigitChars 10 ds 0, point - ds.length⟩ := by
  unfold plain
  split
  · -- the point is before all of them
    refine ⟨⟨['0'], some (List.replicate (-point).toNat '0' ++ ds), none, List.cons_ne_nil _ _,
      List.forall_mem_singleton.2 rfl, ?_, nofun, nofun⟩, ?_, ?_⟩
    · rintro _ ⟨⟩
      exact List.forall_mem_append.2 ⟨isDigit_of_mem_zeros, hds⟩
    · simp [Spelling.text, Spelling.pointText, Spelling.exponentText]
    · have hvalue : Nat.ofDigitChars 10 (['0'] ++ (List.replicate (-point).toNat '0' ++ ds)) 0 =
          Nat.ofDigitChars 10 ds 0 := by
        have := ofDigitChars_zeros_append ds ((-point).toNat + 1)
        rwa [List.replicate_succ, List.cons_append] at this
      simp only [Spelling.scientific, Spelling.places, Spelling.power, Option.getD_some, hvalue,
        List.length_append, List.length_replicate]
      congr 2
      omega
  · split
    · -- the point is between two of them
      rename_i hpos hlt
      refine ⟨⟨ds.take point.toNat, some (ds.drop point.toNat), none, ?_, ?_, ?_, nofun, nofun⟩, ?_, ?_⟩
      · intro h
        have := congrArg List.length h
        rw [List.length_take, List.length_nil] at this
        omega
      · exact fun c hc => hds c (List.mem_of_mem_take hc)
      · rintro _ ⟨⟩ c hc
        exact hds c (List.mem_of_mem_drop hc)
      · simp [Spelling.text, Spelling.pointText, Spelling.exponentText]
      · simp only [Spelling.scientific, Spelling.places, Spelling.power, Option.getD_some,
          List.take_append_drop, List.length_drop]
        congr 2
        omega
    · -- zeros fill up the places before the point
      rename_i hpos hle
      refine ⟨⟨ds ++ List.replicate (point.toNat - ds.length) '0', some ['0'], none, ?_, ?_, ?_, nofun,
        nofun⟩, ?_, ?_⟩
      · exact fun h => hne (List.append_eq_nil_iff.1 h).1
      · exact List.forall_mem_append.2 ⟨hds, isDigit_of_mem_zeros⟩
      · rintro _ ⟨⟩
        exact List.forall_mem_singleton.2 rfl
      · simp [Spelling.text, Spelling.pointText, Spelling.exponentText]
      · have hvalue : Nat.ofDigitChars 10
            (ds ++ List.replicate (point.toNat - ds.length) '0' ++ ['0']) 0 =
            Nat.ofDigitChars 10 ds 0 * 10 ^ (point.toNat - ds.length + 1) := by
          rw [List.append_assoc, ← List.replicate_succ', ofDigitChars_append_zeros]
        simp only [Spelling.scientific, Spelling.places, Spelling.power, Option.getD_some, hvalue,
          Scientific.nearest_shift]
        congr 2
        simp only [List.length_singleton]
        omega

/-- Digits with a point after the first of them, and an exponent. -/
theorem spells_withExponent (hne : ds ≠ []) (hds : ∀ c ∈ ds, c.isDigit) (width : Nat)
    (exponent : Int) :
    Spells (withExponent width ds exponent)
      ⟨Nat.ofDigitChars 10 ds 0, exponent + 1 - ds.length⟩ := by
  obtain ⟨first, rest, rfl⟩ := List.exists_cons_of_ne_nil hne
  obtain ⟨hfirst, hrest⟩ := List.forall_mem_cons.1 hds
  have hpower : ∀ c ∈ (Nat.toDigits 10 exponent.natAbs).leftpad width '0', c.isDigit :=
    List.forall_mem_append.2 ⟨isDigit_of_mem_zeros, isDigit_of_mem_toDigits⟩
  have hvalue : Nat.ofDigitChars 10 ((Nat.toDigits 10 exponent.natAbs).leftpad width '0') 0 =
      exponent.natAbs := by
    unfold List.leftpad
    rw [ofDigitChars_zeros_append, Nat.ofDigitChars_ten_toDigits]
  have hsigned : Numeral.signed (decide (exponent < 0)) exponent.natAbs = exponent := by
    unfold Numeral.signed
    simp only [decide_eq_true_eq]
    split <;> omega
  have hpad : (Nat.toDigits 10 exponent.natAbs).leftpad width '0' ≠ [] := fun h =>
    Nat.toDigits_ne_nil (List.append_eq_nil_iff.1 h).2
  -- a single digit is written without a point
  refine ⟨⟨[first], if rest = [] then none else some rest,
    some (decide (exponent < 0), (Nat.toDigits 10 exponent.natAbs).leftpad width '0'),
    List.cons_ne_nil _ _, List.forall_mem_singleton.2 hfirst, ?_, ?_, ?_⟩, ?_, ?_⟩
  · intro ds h
    split at h
    · cases h
    · cases h
      exact hrest
  · rintro _ _ ⟨⟩
    exact hpad
  · rintro _ _ ⟨⟩
    exact hpower
  · cases rest <;>
      simp [Spelling.text, Spelling.pointText, Spelling.exponentText, withExponent]
  · cases rest with
    | nil =>
      simp only [Spelling.scientific, Spelling.places, Spelling.power, if_true, Option.getD_none,
        List.append_nil, hvalue, hsigned, List.length_singleton, List.length_nil]
      congr 2
      omega
    | cons second rest =>
      simp only [Spelling.scientific, Spelling.places, Spelling.power, reduceCtorEq, if_false,
        Option.getD_some, hvalue, hsigned, List.length_cons, List.singleton_append]
      congr 2
      omega

end

/-- The digits of a decimal, which has zeros at its end besides. -/
theorem exists_zeros (d : Scientific) :
    ∃ k, Nat.toDigits 10 d.coefficient = d.digits ++ List.replicate k '0' := by
  -- the digits are found from their end, which is where the zeros are
  let zeros := (Nat.toDigits 10 d.coefficient).reverse.takeWhile (· == '0')
  have hzeros : zeros.reverse = List.replicate zeros.length '0' := by
    rw [List.eq_replicate_iff]
    refine ⟨List.length_reverse, fun c hc => ?_⟩
    have hall := List.all_takeWhile (p := (· == '0')) (l := (Nat.toDigits 10 d.coefficient).reverse)
    exact beq_iff_eq.1 (List.all_eq_true.1 hall c (List.mem_reverse.1 hc))
  refine ⟨zeros.length, ?_⟩
  rw [← hzeros]
  unfold Scientific.digits
  rw [← List.reverse_append, List.takeWhile_append_dropWhile, List.reverse_reverse]

/-- **A layout spells the decimal that it lays out.** -/
theorem spells_write (layout : Layout) {d : Scientific} (h : d.coefficient ≠ 0) :
    Spells (layout.write d) d := by
  obtain ⟨k, hk⟩ := exists_zeros d
  have hcoefficient : d.coefficient = Nat.ofDigitChars 10 d.digits 0 * 10 ^ k := by
    rw [← ofDigitChars_append_zeros, ← hk, Nat.ofDigitChars_ten_toDigits]
  have hpoint : d.point - d.digits.length = d.exponent + k := by
    unfold Scientific.point
    rw [hk, List.length_append, List.length_replicate]
    omega
  -- dropping the zeros changes the decimal, but not its magnitude
  have hnearest : Scientific.nearest ⟨Nat.ofDigitChars 10 d.digits 0, d.point - d.digits.length⟩ =
      d.nearest := by
    rw [hpoint, ← Scientific.nearest_shift, ← hcoefficient]
  have hne : d.digits ≠ [] := fun hnil => by
    rw [hnil, Nat.ofDigitChars_nil, Nat.zero_mul] at hcoefficient
    exact h hcoefficient
  have hdigits : ∀ c ∈ d.digits, c.isDigit := fun c hc =>
    isDigit_of_mem_toDigits c (hk ▸ List.mem_append_left _ hc)
  have hexponent : d.point - 1 + 1 - d.digits.length = d.point - d.digits.length := by omega
  unfold Layout.write
  simp only
  split
  · obtain ⟨s, htext, hs⟩ := spells_plain hne hdigits d.point
    exact ⟨s, htext, hs.trans hnearest⟩
  · obtain ⟨s, htext, hs⟩ := spells_withExponent hne hdigits layout.exponentWidth (d.point - 1)
    exact ⟨s, htext, hs.trans (hexponent ▸ hnearest)⟩

/-- The shortest decimal of a finite double other than zero is spelled. -/
theorem spells_shortest (layout : Layout) {magnitude : Nat} (h : magnitude < infinity)
    (hne : magnitude ≠ 0) : Spells (layout.write (shortest magnitude)) (shortest magnitude) := by
  apply spells_write
  apply Scientific.coefficient_ne_zero
  rw [nearest_shortest h]
  exact hne

/-! ## Program text -/

/-- What is no number is written as a word. -/
theorem programText_undefined {x : Float} (h : infinity < (Binary.ofFloat x).magnitude) :
    programText x = "nan" := by
  unfold programText diagnosticText
  simp only [if_neg (Nat.ne_of_gt h), Nat.lt_asymm h, false_and, if_false, if_pos h]

/-- An infinity has a program text of its own. -/
theorem programText_infinite {x : Float} (h : (Binary.ofFloat x).magnitude = infinity) :
    programText x = infinityText (Binary.ofFloat x).negative := by
  unfold programText
  simp only [if_pos h]

/-- **The program text of a finite double is a sign and a spelling of its magnitude.** A zero is written
    without a sign. -/
theorem exists_spelling_programText {x : Float} (h : (Binary.ofFloat x).magnitude < infinity) :
    ∃ (s : Spelling) (negative : Bool), (programText x).toList = signText negative ++ s.text ∧
      s.scientific.nearest = (Binary.ofFloat x).magnitude ∧
      ((Binary.ofFloat x).magnitude ≠ 0 → negative = (Binary.ofFloat x).negative) := by
  generalize hb : Binary.ofFloat x = b at h ⊢
  obtain ⟨sign, magnitude⟩ := b
  unfold programText
  simp only [hb]
  rw [if_neg (Nat.ne_of_lt h)]
  split
  · -- a whole number
    rename_i hwhole
    have hunits : units magnitude / unitsInOne * unitsInOne = units magnitude :=
      Nat.div_mul_cancel (Nat.dvd_of_mod_eq_zero hwhole.2)
    -- its digits are exact, so nothing is rounded when they are read
    have hnearest : Scientific.nearest ⟨units magnitude / unitsInOne, 0⟩ = magnitude := by
      have := nearest_mul_mul_right (units magnitude / unitsInOne) 1 unitsInOne unitsInOne_pos
      rw [hunits, Nat.one_mul, nearest_units h] at this
      rw [Scientific.nearest_natural]
      exact this.symm
    obtain ⟨s, htext, hs⟩ := spells_toDigits (units magnitude / unitsInOne)
    refine ⟨s, _, by rw [String.toList_ofList, htext], hs.trans hnearest, fun hne => ?_⟩
    have hnonzero : units magnitude / unitsInOne ≠ 0 :=
      Scientific.coefficient_ne_zero (by rw [hnearest]; exact hne)
    rw [bne_iff_ne.2 hnonzero, Bool.and_true]
  · -- a fraction, in the shortest decimal that is read as the same double
    rename_i hfraction
    have hzero : units 0 = 0 := rfl
    have hne : magnitude ≠ 0 := fun h0 => hfraction ⟨h, by rw [h0, hzero, Nat.zero_mod]⟩
    obtain ⟨s, htext, hs⟩ := spells_shortest diagnosticLayout h hne
    refine ⟨s, sign, ?_, hs.trans (nearest_shortest h), fun _ => rfl⟩
    unfold diagnosticText
    simp only [hb]
    rw [if_neg (Nat.lt_asymm h), if_neg (Nat.ne_of_lt h), if_neg hne, String.toList_ofList, htext]

end SmallLisp.Decimal
