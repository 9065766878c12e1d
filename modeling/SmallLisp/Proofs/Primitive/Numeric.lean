import SmallLisp.Proofs.Number.Order
import SmallLisp.Proofs.Value.Written

/-!
# `Proofs.Primitive.Numeric` — when arithmetic and comparison fail

The numeric primitives all work in the same way (`Numeric.compute_eq`): they count their arguments, then all
of them have to be numbers, and only then something is computed from these. So too few arguments, or one that
is no number, are noticed before anything is divided or compared, wherever that argument stands. What is
computed fails only if it divides by zero (`Numeric.finish_eq_error_iff`), and `call_outcome` puts the two
together.
-/

namespace SmallLisp

/-- The value is a number of the language. -/
def Value.IsNumber (v : Value) : Prop := ∃ x, v = .number x

namespace Primitive

variable {depth least : Nat} {p : Primitive} {args : List Value} {x : Float} {xs : List Float}
  {fault : Fault} {v : Value}

/-! ## What the numeric primitives have in common -/

/-- The primitives that compare numbers, with the relation that they look for. -/
inductive Compares : Primitive → (Float → Float → Bool) → Prop
  | equal : Compares .equal (· == ·)
  | less : Compares .less (· < ·)
  | greater : Compares .greater (· > ·)

/-- **The numeric primitives**, with the number of arguments that they ask for and what they compute from
    the numbers that they are given. -/
inductive Numeric : Primitive → Nat → (List Float → Except Fault Value) → Prop
  | add : Numeric .add 0 fun xs => .ok (.number (xs.foldl (· + ·) 0))
  | sub : Numeric .sub 1 fun xs => do return .number (← difference .sub xs)
  | mul : Numeric .mul 0 fun xs => .ok (.number (xs.foldl (· * ·) 1))
  | div : Numeric .div 1 fun xs => do return .number (← quotient .div xs)
  | compare {p : Primitive} {related : Float → Float → Bool} (h : Compares p related) :
    Numeric p 2 fun xs => .ok (.truth (isChain related xs))

variable {finish : List Float → Except Fault Value}

/-- **Arguments are counted first, then checked**, and then used. -/
theorem Numeric.compute_eq (hp : Numeric p least finish) :
    p.compute depth args =
      if args.length < least then .error (tooFew p least) else numbers depth p args >>= finish := by
  have hcompare (related : Float → Float → Bool) : Primitive.compare depth p related args =
      if args.length < 2 then .error (tooFew p 2)
      else numbers depth p args >>= fun xs => .ok (.truth (isChain related xs)) := rfl
  cases hp with
  | add | mul => rfl
  | sub | div =>
    cases args with
    | nil => rfl
    | cons first rest =>
      rw [if_neg (by simp)]
      rfl
  | compare h =>
    cases h with
    | equal | less | greater => exact hcompare _

/-- A numeric primitive changes nothing. -/
theorem Numeric.on_call (hp : Numeric p least finish) (m : Machine) :
    (p.call depth args).on m = (p.compute depth args, m) := by
  have hprint : p ≠ .print := by
    rintro rfl
    cases hp with
    | compare h => cases h
  unfold call
  rw [if_neg hprint]
  exact Action.on_ofExcept _ m

/-! ## Which arguments are numbers -/

/-- The doubles that arguments are taken for, if all of them are numbers that have one. -/
def Doubles (args : List Value) (xs : List Float) : Prop :=
  List.Forall₂ (fun v x => double? v = some (.ok x)) args xs

theorem doubles_number (xs : List Float) : Doubles (xs.map .number) xs :=
  List.forall₂_map_left_iff.2 (List.forall₂_same.2 fun _ _ => rfl)

theorem mapM_requireNumber (h : Doubles args xs) :
    args.mapM (requireNumber depth p) = .ok (xs.map .ok) := by
  apply mapM_eq_ok
  rw [List.forall₂_map_right_iff]
  refine h.imp ?_
  intro v x hv
  unfold requireNumber
  rw [hv]

theorem numbers_of_doubles (h : Doubles args xs) : numbers depth p args = .ok xs := by
  unfold numbers
  rw [mapM_requireNumber h]
  exact mapM_eq_ok (List.forall₂_map_left_iff.2 (List.forall₂_same.2 fun _ _ => rfl))

theorem double?_eq_none (hv : v.NotInteger) (hnumber : ¬ v.IsNumber) : double? v = none := by
  cases v with
  | number x => exact absurd ⟨x, rfl⟩ hnumber
  | embedded e =>
    cases e with
    | int n => exact hv.elim
    | bool | nothing => rfl
  | _ => rfl

/-- **The first argument that is no number is refused**, unless it cannot be written. -/
theorem numbers_of_not_number (depth : Nat) (p : Primitive) (hv : double? v = none) (xs : List Float)
    (rest : List Value) :
    ∃ fault, numbers depth p (xs.map .number ++ v :: rest) = .error fault ∧
      ((∃ shown, v.written depth = .ok shown ∧ fault = .argument (.notNumeric p shown)) ∨
        v.written depth = .error fault) := by
  obtain ⟨fault, hfault, hcases⟩ := refuse_cases (α := Except Fault Float) (.notNumeric p) (v.written depth)
  have hrefused : requireNumber depth p v = .error fault := by
    unfold requireNumber
    rw [hv, hfault]
  refine ⟨fault, ?_, hcases⟩
  unfold numbers
  rw [mapM_eq_error (mapM_requireNumber (doubles_number xs)) hrefused]
  rfl

/-! ## What is computed from numbers -/

/-- What a list of numbers is divided by: all but the first, or the only one. -/
def divisors : List Float → List Float
  | [x] => [x]
  | xs => xs.tail

/-- Division fails exactly at a divisor that is a zero, whatever was divided before. -/
theorem divideBy_eq_error_iff {divisors : List Float} :
    divideBy x divisors = .error fault ↔
      fault = .divisionByZero ∧ ∃ d ∈ divisors, d = 0 ∨ d = -0 := by
  induction divisors generalizing x with
  | nil => simp [divideBy]
  | cons d rest ih =>
    rw [divideBy, List.exists_mem_cons_iff, ← Double.beq_zero_iff]
    by_cases hd : (d == 0) = true
    · rw [if_pos hd, Except.error.injEq]
      constructor
      · rintro rfl
        exact ⟨rfl, .inl hd⟩
      · rintro ⟨rfl, _⟩
        rfl
    · rw [if_neg hd, ih, or_iff_right hd]

theorem quotient_eq_error_iff (h : xs ≠ []) :
    quotient p xs = .error fault ↔ fault = .divisionByZero ∧ ∃ d ∈ divisors xs, d = 0 ∨ d = -0 := by
  match xs, h with
  | [x], _ => exact divideBy_eq_error_iff
  | x :: y :: rest, _ => exact divideBy_eq_error_iff

theorem difference_ne_error (h : xs ≠ []) : difference p xs ≠ .error fault := by
  match xs, h with
  | [x], _ => exact nofun
  | x :: y :: rest, _ => exact nofun

/-- **Only division fails**, and only by a zero divisor. -/
theorem Numeric.finish_eq_error_iff (hp : Numeric p least finish) (h : least ≤ xs.length) :
    finish xs = .error fault ↔
      p = .div ∧ fault = .divisionByZero ∧ ∃ d ∈ divisors xs, d = 0 ∨ d = -0 := by
  cases hp with
  | add | mul => exact iff_of_false nofun nofun
  | compare hp => 
    refine iff_of_false nofun ?_
    rintro ⟨rfl, _⟩
    cases hp
  | sub =>
    refine iff_of_false ?_ nofun
    intro herror
    rcases exists_of_bind_eq_error herror with hdifference | ⟨y, _, hy⟩
    · exact difference_ne_error (List.ne_nil_of_length_pos h) hdifference
    · cases hy
  | div =>
    rw [← quotient_eq_error_iff (List.ne_nil_of_length_pos h)]
    constructor
    · intro herror
      rcases exists_of_bind_eq_error herror with hquotient | ⟨y, _, hy⟩
      · exact ⟨rfl, hquotient⟩
      · cases hy
    · rintro ⟨_, hquotient⟩
      show quotient .div xs >>= _ = _
      rw [hquotient]
      rfl

/-- The kind of value that a numeric primitive returns: a number, or the truth about a comparison. -/
def Yields (p : Primitive) (v : Value) : Prop :=
  match p with
  | .add | .sub | .mul | .div => v.IsNumber
  | .equal | .less | .greater => ∃ b, v = .truth b
  | _ => False

theorem Numeric.yields (hp : Numeric p least finish) (h : finish xs = .ok v) : p.Yields v := by
  cases hp with
  | add | mul =>
    cases h
    exact ⟨_, rfl⟩
  | sub | div =>
    obtain ⟨y, _, hy⟩ := exists_of_bind_eq_ok h
    cases hy
    exact ⟨y, rfl⟩
  | compare hp =>
    cases h
    cases hp with
    | equal | less | greater => exact ⟨_, rfl⟩

/-! ## The outcome of a call -/

/-- There are too few arguments, or one of them is no number. -/
def Misused (least : Nat) (args : List Value) : Prop :=
  args.length < least ∨ ∃ v ∈ args, ¬ v.IsNumber

/-- All arguments are numbers, and one of those that are divided by is a zero, of either sign. -/
def DividesByZero (p : Primitive) (args : List Value) : Prop :=
  p = .div ∧ ∃ xs : List Float, args = xs.map .number ∧ ∃ d ∈ divisors xs, d = 0 ∨ d = -0

/-- An argument was refused, or one that is no number is nested too deep to be shown in a refusal. -/
def Refused (depth : Nat) (args : List Value) (outcome : Except Fault Value) : Prop :=
  (∃ why, outcome = .error (.argument why)) ∨
    outcome = .error (.host .tooDeep) ∧
      ∃ v ∈ args, ¬ v.IsNumber ∧ v.written depth = .error (.host .tooDeep)

/-- **Wrong arguments are refused**, wherever they stand. -/
theorem Numeric.refused (hp : Numeric p least finish)
    (hargs : ∀ v ∈ args, v.Everywhere Value.NotInteger) (h : Misused least args) :
    Refused depth args (p.compute depth args) := by
  rw [hp.compute_eq]
  by_cases hfew : args.length < least
  · rw [if_pos hfew]
    exact .inl ⟨_, rfl⟩
  · obtain ⟨w, hw, hnumber⟩ := h.resolve_left hfew
    rw [if_neg hfew]
    rcases eq_map_or_exists_first Value.number args with ⟨xs, rfl⟩ | ⟨xs, v, rest, rfl, hv⟩
    · obtain ⟨x, _, rfl⟩ := List.mem_map.1 hw
      exact absurd ⟨x, rfl⟩ hnumber
    · have hmem : v ∈ xs.map Value.number ++ v :: rest := List.mem_append_right _ List.mem_cons_self
      have hv : ¬ v.IsNumber := fun ⟨x, hx⟩ => hv x hx
      obtain ⟨fault, hfault, hcases⟩ :=
        numbers_of_not_number depth p (double?_eq_none (hargs v hmem).self hv) xs rest
      rw [hfault]
      rcases hcases with ⟨shown, _, rfl⟩ | hwritten
      · exact .inl ⟨_, rfl⟩
      · obtain rfl := Value.tooDeep_of_written_error (hargs v hmem) hwritten
        exact .inr ⟨rfl, v, hmem, hv, hwritten⟩

/-- Right arguments are numbers, from which the outcome is computed. -/
theorem Numeric.exists_numbers (hp : Numeric p least finish) (h : ¬ Misused least args) (depth : Nat) :
    ∃ xs : List Float, args = xs.map .number ∧ least ≤ xs.length ∧ p.compute depth args = finish xs := by
  obtain ⟨henough, hnumbers⟩ := not_or.1 h
  rcases eq_map_or_exists_first Value.number args with ⟨xs, rfl⟩ | ⟨xs, v, rest, rfl, hv⟩
  · refine ⟨xs, rfl, ?_, ?_⟩
    · rw [List.length_map] at henough
      exact Nat.le_of_not_lt henough
    · rw [hp.compute_eq, if_neg henough, numbers_of_doubles (doubles_number xs)]
      rfl
  · refine absurd ⟨v, List.mem_append_right _ List.mem_cons_self, ?_⟩ hnumbers
    rintro ⟨x, hx⟩
    exact hv x hx

/-- Arguments among which a number is divided by zero are not misused. -/
theorem DividesByZero.not_misused (hp : Numeric p least finish) (h : DividesByZero p args) :
    ¬ Misused least args := by
  obtain ⟨rfl, xs, rfl, d, hd, _⟩ := h
  cases hp with
  | compare h => cases h
  | div =>
    rintro (hfew | ⟨v, hv, hnumber⟩)
    · rw [List.length_map, Nat.lt_one_iff, List.length_eq_zero_iff] at hfew
      subst hfew
      cases hd
    · obtain ⟨x, _, rfl⟩ := List.mem_map.1 hv
      exact hnumber ⟨x, rfl⟩

/-- **Which fault a numeric primitive ends with.** It changes nothing. It refuses an argument exactly if there
    are too few of them or one is no number, wherever it stands; only an argument that is nested too deep
    makes it impossible to say so. Arguments are counted before they are looked at. It divides by zero exactly
    if all arguments are numbers and one that is divided by is a zero. In all other cases it returns a
    value. -/
theorem call_outcome (hp : Numeric p least finish)
    (hargs : ∀ v ∈ args, v.Everywhere Value.NotInteger) (depth : Nat) (m : Machine) :
    ∃ outcome, (p.call depth args).on m = (outcome, m) ∧
      (Refused depth args outcome ↔ Misused least args) ∧
      (args.length < least → outcome = .error (tooFew p least)) ∧
      (outcome = .error .divisionByZero ↔ DividesByZero p args) ∧
      (¬ Misused least args → ¬ DividesByZero p args → ∃ v, outcome = .ok v ∧ p.Yields v) := by
  refine ⟨p.compute depth args, hp.on_call m, ?_⟩
  have hfew (h : args.length < least) : p.compute depth args = .error (tooFew p least) := by
    rw [hp.compute_eq, if_pos h]
  by_cases hmisused : Misused least args
  · have hrefused : Refused depth args (p.compute depth args) := hp.refused hargs hmisused
    refine ⟨iff_of_true hrefused hmisused, hfew, iff_of_false ?_ ?_, fun h => absurd hmisused h⟩
    · intro hzero
      rw [hzero] at hrefused
      rcases hrefused with ⟨why, h⟩ | ⟨h, _⟩
      · cases h
      · cases h
    · intro hzero
      exact hzero.not_misused hp hmisused
  · obtain ⟨xs, hxs, hlength, hcompute⟩ := hp.exists_numbers hmisused depth
    rw [hcompute]
    -- a computation from numbers has a value, or it divides by zero
    have hfault (fault : Fault) :
        finish xs = .error fault ↔ fault = .divisionByZero ∧ DividesByZero p args := by
      rw [hp.finish_eq_error_iff hlength]
      constructor
      · rintro ⟨hdiv, rfl, hzero⟩
        exact ⟨rfl, hdiv, xs, hxs, hzero⟩
      · rintro ⟨rfl, hdiv, ys, hys, hzero⟩
        obtain rfl : xs = ys :=
          List.map_injective_iff.2 (fun _ _ => Value.number.inj) (hxs.symm.trans hys)
        exact ⟨hdiv, rfl, hzero⟩
    refine ⟨iff_of_false ?_ hmisused, fun h => absurd (.inl h) hmisused, ?_, ?_⟩
    · rintro (⟨why, h⟩ | ⟨h, _⟩)
      · cases ((hfault _).1 h).1
      · cases ((hfault _).1 h).1
    · rw [hfault, and_iff_right rfl]
    · intro _ hzero
      cases hfinish : finish xs with
      | ok v => exact ⟨v, rfl, hp.yields hfinish⟩
      | error fault => exact absurd ((hfault fault).1 hfinish).2 hzero

/-- A text after a divisor that is zero is refused all the same; without it, infinity is divided by zero. -/
theorem call_outcome_zero_divisor :
    let m := Machine.fresh false .texts
    let args : List Value := [.number (1 / 0), .number (-0)]
    (∃ outcome, (Primitive.div.call 9 (args ++ [.text "x"])).on m = (outcome, m) ∧
      Refused 9 (args ++ [.text "x"]) outcome) ∧
    (Primitive.div.call 9 args).on m = (.error .divisionByZero, m) := by
  intro m args
  have hnumber (x : Float) : (Value.number x).Everywhere Value.NotInteger := Value.everywhere_number trivial
  have hargs : ∀ v ∈ args, v.Everywhere Value.NotInteger :=
    List.forall_mem_cons.2 ⟨hnumber _, List.forall_mem_singleton.2 (hnumber _)⟩
  have hmore : ∀ v ∈ args ++ [.text "x"], v.Everywhere Value.NotInteger :=
    List.forall_mem_append.2 ⟨hargs, List.forall_mem_singleton.2 (Value.everywhere_text trivial)⟩
  constructor
  · obtain ⟨outcome, hcall, hrefused, _⟩ := call_outcome .div hmore 9 m
    exact ⟨outcome, hcall, hrefused.2 (.inr ⟨.text "x", by simp, nofun⟩)⟩
  · obtain ⟨outcome, hcall, _, _, hzero, _⟩ := call_outcome .div hargs 9 m
    rw [hcall, hzero.2 ⟨rfl, [1 / 0, -0], rfl, -0, List.mem_cons_self, .inr rfl⟩]

end Primitive

end SmallLisp
