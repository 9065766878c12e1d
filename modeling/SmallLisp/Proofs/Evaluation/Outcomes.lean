import SmallLisp.Proofs.Evaluation.Simulation

/-!
# `Proofs.Evaluation.Outcomes` — the pure steps of two evaluations

What an evaluation does without its machine ends alike for values that stand for one another: the
primitives, the binding of arguments and the checks of the special forms. Only the binding of arguments
looks at an arity policy (`Lawful.ends_bindArguments`).
-/

namespace SmallLisp

namespace Simulation

variable {S : Simulation} {α β : Type} {good : α → α → Prop} {goal : β → β → Prop}

/-! ## Outcomes one after the other -/

theorem Ends.bind {outcome outcome' : Except Fault α} {next next' : α → Except Fault β}
    (h : S.Ends good outcome outcome') (hn : ∀ a b, good a b → S.Ends goal (next a) (next' b)) :
    S.Ends goal (outcome >>= next) (outcome' >>= next') := by
  cases h with
  | ok hab => exact hn _ _ hab
  | error h => exact .error h
  | escape h => exact .escape h _

theorem Ends.bind_same {outcome outcome' : Except Fault α} {next next' : α → Except Fault β}
    (h : S.Ends Eq outcome outcome') (hn : ∀ a, S.Ends goal (next a) (next' a)) :
    S.Ends goal (outcome >>= next) (outcome' >>= next') :=
  h.bind fun a _ hab => hab ▸ hn a

theorem Ends.mapM {γ : Type} {related : γ → γ → Prop} {f g : γ → Except Fault α} {xs ys : List γ}
    (h : List.Forall₂ related xs ys) (hf : ∀ x y, related x y → S.Ends good (f x) (g y)) :
    S.Ends (List.Forall₂ good) (xs.mapM f) (ys.mapM g) := by
  induction h with
  | nil => exact .ok .nil
  | cons hxy _ ih =>
    rw [List.mapM_cons, List.mapM_cons]
    exact (hf _ _ hxy).bind fun a b hab => ih.bind fun as bs habs => .ok (.cons hab habs)

/-- A refusal of related values fails on both sides, or in writing them. -/
theorem Ends.refuse {why why' : Text → ArgumentFault} {shown shown' : Except Fault Text}
    (hw : S.Refusals why why') (h : S.Ends S.text shown shown') :
    S.Ends good (ArgumentFault.refuse why shown) (ArgumentFault.refuse why' shown') :=
  h.bind fun _ _ ht => .error (.refused hw ht)

/-! ## Primitives -/

theorem ends_difference (p : Primitive) (xs : List Float) :
    S.Ends Eq (Primitive.difference p xs) (Primitive.difference p xs) := by
  match xs with
  | [] => exact .error (.tooFew p 1)
  | [_] => exact .ok rfl
  | _ :: _ :: _ => exact .ok rfl

theorem ends_divideBy (x : Float) (xs : List Float) :
    S.Ends Eq (Primitive.divideBy x xs) (Primitive.divideBy x xs) := by
  induction xs generalizing x with
  | nil => exact .ok rfl
  | cons divisor rest ih =>
    unfold Primitive.divideBy
    split
    · exact .error .divisionByZero
    · exact ih _

theorem ends_quotient (p : Primitive) (xs : List Float) :
    S.Ends Eq (Primitive.quotient p xs) (Primitive.quotient p xs) := by
  match xs with
  | [] => exact .error (.tooFew p 1)
  | [x] => exact ends_divideBy 1 [x]
  | x :: y :: rest => exact ends_divideBy x (y :: rest)

theorem ends_requireOne {args args' : List Value} (ha : List.Forall₂ S.Values args args')
    (p : Primitive) :
    S.Ends S.Values (Primitive.requireOne p args) (Primitive.requireOne p args') := by
  cases ha with
  | nil => exact .error (.exactly p 1)
  | cons hv hrest =>
    cases hrest with
    | nil => exact .ok hv
    | cons => exact .error (.exactly p 1)

namespace Lawful

variable {args args' : List Value} {d d' : Nat}

theorem ends_requireNumber (h : S.Lawful) {v w : Value} (hv : S.Values v w) (hd : S.Depths d d')
    (p : Primitive) :
    S.Ends (S.Ends Eq) (Primitive.requireNumber d p v) (Primitive.requireNumber d' p w) := by
  have hrefuse : S.Ends (S.Ends (@Eq Float)) (ArgumentFault.refuse (.notNumeric p) (v.written d))
      (ArgumentFault.refuse (.notNumeric p) (w.written d')) :=
    .refuse (.notNumeric p) (h.written hv hd)
  cases hv with
  | number x => exact .ok (.ok rfl)
  | embedded e =>
    cases e with
    | int n =>
      simp only [Primitive.requireNumber, Primitive.double?]
      cases Decimal.ofInt? n with
      | some x => exact .ok (.ok rfl)
      | none => exact .ok (.error (.host .integerTooLarge))
    | _ => exact hrefuse
  | _ => exact hrefuse

theorem ends_numbers (h : S.Lawful) (ha : List.Forall₂ S.Values args args') (hd : S.Depths d d')
    (p : Primitive) : S.Ends Eq (Primitive.numbers d p args) (Primitive.numbers d' p args') := by
  unfold Primitive.numbers
  refine (Ends.mapM ha fun v w hv => h.ends_requireNumber hv hd p).bind ?_
  intro found found' hf
  have hall := Ends.mapM (f := id) (g := id) hf fun _ _ hx => hx
  rwa [List.forall₂_eq_eq_eq] at hall

theorem ends_requireList (h : S.Lawful) {v w : Value} (hv : S.Values v w) (hd : S.Depths d d')
    (p : Primitive) :
    S.Ends (List.Forall₂ S.Values) (Primitive.requireList d p v) (Primitive.requireList d' p w) := by
  have hrefuse : S.Ends (List.Forall₂ S.Values) (ArgumentFault.refuse (.notList p) (v.written d))
      (ArgumentFault.refuse (.notList p) (w.written d')) :=
    .refuse (.notList p) (h.written hv hd)
  cases hv with
  | list hitems => exact .ok hitems
  | _ => exact hrefuse

/-- **Primitives on arguments that stand for one another** compute values that do. -/
theorem ends_compute (h : S.Lawful) (ha : List.Forall₂ S.Values args args') (hd : S.Depths d d')
    (p : Primitive) : S.Ends S.Values (p.compute d args) (p.compute d' args') := by
  have hcompare (related : Float → Float → Bool) :
      S.Ends S.Values (Primitive.compare d p related args)
        (Primitive.compare d' p related args') := by
    unfold Primitive.compare
    rw [ha.length_eq]
    split
    · exact .error (.tooFew p 2)
    · exact (h.ends_numbers ha hd p).bind_same fun _ => .ok (.truth _)
  cases p with
  | add => exact (h.ends_numbers ha hd _).bind_same fun _ => .ok (.number _)
  | mul => exact (h.ends_numbers ha hd _).bind_same fun _ => .ok (.number _)
  | sub =>
    exact (h.ends_numbers ha hd _).bind_same fun xs =>
      (ends_difference _ xs).bind_same fun _ => .ok (.number _)
  | div =>
    exact (h.ends_numbers ha hd _).bind_same fun xs =>
      (ends_quotient _ xs).bind_same fun _ => .ok (.number _)
  | equal => exact hcompare _
  | less => exact hcompare _
  | greater => exact hcompare _
  | list => exact .ok (.list ha)
  | car =>
    refine (ends_requireOne ha _).bind ?_
    intro v w hv
    refine (h.ends_requireList hv hd _).bind ?_
    intro items items' hitems
    cases hitems with
    | nil => exact .ok (.truth false)
    | cons hx _ => exact .ok hx
  | cdr =>
    refine (ends_requireOne ha _).bind ?_
    intro v w hv
    refine (h.ends_requireList hv hd _).bind ?_
    intro items items' hitems
    cases hitems with
    | nil => exact .ok (.list .nil)
    | cons _ hrest => exact .ok (.list hrest)
  | cons =>
    -- the second of two arguments has to be a list, on both sides
    cases ha with
    | nil => exact .error (.exactly _ 2)
    | cons hfirst hrest =>
      cases hrest with
      | nil => exact .error (.exactly _ 2)
      | cons hsecond hmore =>
        cases hmore with
        | cons => cases hsecond <;> exact .error (.exactly _ 2)
        | nil =>
          cases hsecond with
          | list hitems => exact .ok (.list (.cons hfirst hitems))
          | _ => exact .error .consTail
  | not =>
    refine (ends_requireOne ha _).bind ?_
    intro v w hv
    cases hv with
    | truth b => exact .ok (.truth _)
    | _ => exact .ok (.truth false)
  | print =>
    -- without arguments the value is `nil`
    have hlast := Values.getLastD ha (.truth false)
    rw [List.getLastD_eq_getLast?, List.getLastD_eq_getLast?] at hlast
    exact .ok hlast

/-! ## Arguments and operands -/

variable {formals formals' : List Value}

theorem ends_bindFormals (h : S.Lawful) {bound bound' : Bindings} (hb : S.Bound bound bound')
    (hf : List.Forall₂ S.Values formals formals') (ha : List.Forall₂ S.Values args args')
    (hd : S.Depths d d') :
    S.Ends S.Bound (bindFormals d bound formals args) (bindFormals d' bound' formals' args') := by
  induction hf generalizing bound bound' args args' with
  | nil => exact .ok hb
  | @cons formal formal' formals formals' hformal _ ih =>
    cases ha with
    | nil =>
      cases hformal <;> exact .ok hb
    | @cons arg arg' args args' harg hargs =>
      have hrefuse : S.Ends S.Bound (ArgumentFault.refuse .parameter (formal.inspected d))
          (ArgumentFault.refuse .parameter (formal'.inspected d')) :=
        .refuse .parameter (h.inspected hformal hd)
      cases hformal with
      | symbol hst => exact ih (h.bound_put hst harg hb) hargs
      | _ => exact hrefuse

/-- A strict closure and a lenient one bind the same, unless the strict one refuses the call. -/
theorem ends_bindArguments (h : S.Lawful) {strict strict' : Bool} {name name' : Option Text}
    (hp : S.policy strict strict') (hl : S.label name name')
    (hf : List.Forall₂ S.Values formals formals') (ha : List.Forall₂ S.Values args args')
    (hd : S.Depths d d') :
    S.Ends S.Bound (bindArguments d strict name formals args)
      (bindArguments d' strict' name' formals' args') := by
  have hnone : S.Bound [] [] := fun _ _ _ => .none
  have hbind := h.ends_bindFormals hnone hf ha hd
  unfold bindArguments
  rw [← ha.length_eq, ← hf.length_eq]
  rcases h.policy hp with rfl | ⟨rfl, hescapes⟩
  · split
    · exact .error (.arity hl _ _)
    · exact hbind
  · by_cases hcount : args.length ≠ formals.length
    · rw [if_pos ⟨rfl, hcount⟩]
      exact .escape (hescapes _ _ _) _
    · rw [if_neg fun hc => hcount hc.2, if_neg fun hc => hcount hc.2]
      exact hbind

theorem ends_requireTarget (h : S.Lawful) {form form' : SpecialForm} {v w : Value}
    (hf : S.Forms form form') (hv : S.Values v w) (hd : S.Depths d d') :
    S.Ends S.name (requireTarget d form v) (requireTarget d' form' w) := by
  have hrefuse : S.Ends S.name (ArgumentFault.refuse (.target form) (v.inspected d))
      (ArgumentFault.refuse (.target form') (w.inspected d')) :=
    .refuse (.target hf) (h.inspected hv hd)
  cases hv with
  | symbol hst => exact .ok hst
  | _ => exact hrefuse

theorem ends_requireParameters (h : S.Lawful) {form form' : SpecialForm} {v w : Value}
    (hf : S.Forms form form') (hv : S.Values v w) (hd : S.Depths d d') :
    S.Ends (List.Forall₂ S.Values) (requireParameters d form v) (requireParameters d' form' w) := by
  have hrefuse : S.Ends (List.Forall₂ S.Values)
      (ArgumentFault.refuse (.parameterList form) (v.inspected d))
      (ArgumentFault.refuse (.parameterList form') (w.inspected d')) :=
    .refuse (.parameterList hf) (h.inspected hv hd)
  cases hv with
  | list hitems => exact .ok hitems
  | _ => exact hrefuse

end Lawful

end Simulation

end SmallLisp
