import SmallLisp.Proofs.Session.Room

/-!
# `Proofs.Session.Conditionals` — the conditional forms agree with one another

`and`, `or`, `if` and `cond` are loops of their own, and `not` is no special form at all. Yet each of them can
be said in terms of the others, with the same operands evaluated in the same order and the same effects,
values and faults. Two loops that evaluate the same operands are the same action under any evaluator
(`evalClauses_tests`, `evalBody_eq_evalEach`), so calls of them are the same under every limit.

An operand may bind the name of a form to something else while it is evaluated. That matters only where the
name is looked up after it: `and` looks at its operands one after the other by itself, where `if` has to look
the name up again to go on with the rest. It also has to go one level deeper for it, so these two agree but
for exhaustion (`Machine.Interchangeable`).

`nil` and `t` are not names here but the truth values themselves, which is how source texts are read.
-/

namespace SmallLisp

/-- The literals are read as truth values. -/
example : Source.ofAtom "nil" = .nil ∧ Source.ofAtom "t" = .truth true := ⟨rfl, rfl⟩

/-- A call of a name. -/
def callOf (name : Text) (operands : List Value) : Value := .list (.symbol name :: operands)

/-- The first name of the form denotes it, seen from frame `f`. -/
def Machine.Denotes (m : Machine) (f : FrameId) (form : SpecialForm) : Prop :=
  m.lookup? form.name f = some (.special form)

/-- **The second run repeats the first one**, unless that was exhausted: with the same outcome, and with the
    same state after it. -/
def Repeats (run run' : Except Fault Value × Machine) : Prop :=
  (∀ fault, run.1 = .error fault → fault.guarded ≠ .exhausted) → run'.1 = run.1 ∧ run.2.Same run'.2

/-- **Expressions that can stand in each other's place.** Whichever of the two is evaluated without being
    exhausted, the other one does the same under every greater limit. -/
def Machine.Interchangeable (m : Machine) (f : FrameId) (e e' : Value) : Prop :=
  ∀ n k, n < k → Repeats ((eval n f e).on m) ((eval k f e').on m) ∧
    Repeats ((eval n f e').on m) ((eval k f e).on m)

/-- A call of a name that denotes a form runs the form. -/
theorem Machine.Denotes.on_call {m : Machine} {f : FrameId} {form : SpecialForm} (h : m.Denotes f form)
    (n : Nat) (operands : List Value) :
    (eval (n + 1) f (callOf form.name operands)).on m = (runForm n (eval n) f form operands).on m :=
  on_eval_form h n

/-- Calls of two forms do the same under every limit if the forms do on their operands. -/
theorem Machine.Denotes.on_call_congr {m : Machine} {f : FrameId} {form form' : SpecialForm}
    (h : m.Denotes f form) (h' : m.Denotes f form') {operands operands' : List Value}
    (hrun : ∀ n, runForm n (eval n) f form operands = runForm n (eval n) f form' operands') (n : Nat) :
    (eval n f (callOf form.name operands)).on m = (eval n f (callOf form'.name operands')).on m := by
  cases n with
  | zero => rfl
  | succ n => rw [h.on_call, h'.on_call, hrun]

/-! ## The loops of the forms -/

section

variable {depth : Nat} {ev : Evaluator} {f : FrameId}

/-- A literal is its own value, as soon as there is room for an evaluation. -/
theorem eval_truth (n : Nat) (f : FrameId) (b : Bool) : eval (n + 1) f (.truth b) = pure (.truth b) := rfl

/-- Only `nil` is false. -/
theorem eq_nil_of_not_truthy {v : Value} (h : ¬ v.isTruthy) : v = .nil := by
  cases v with
  | truth b =>
    cases b with
    | true => exact absurd rfl h
    | false => rfl
  | _ => exact absurd rfl h

/-- Clauses without a body are the operands of a disjunction. -/
theorem evalClauses_tests (depth : Nat) (ev : Evaluator) (f : FrameId) (es : List Value) :
    evalClauses depth ev f (es.map fun e => .list [e]) = evalDisjunction ev f es := by
  induction es with
  | nil => rfl
  | cons e rest ih =>
    show (ev f e >>= fun v => if v.isTruthy then pure v else
      evalClauses depth ev f (rest.map fun e => .list [e])) = _
    rw [ih]
    rfl

/-- A body is evaluated like operands, of which the last one counts. -/
theorem evalBody_eq_evalEach (ev : Evaluator) (f : FrameId) (v : Value) (es : List Value) :
    evalBody ev f v es = evalEach ev f es >>= fun values => pure (values.getLastD v) := by
  induction es generalizing v with
  | nil => rfl
  | cons e rest ih =>
    simp only [evalBody, evalEach, ih, bind_assoc, pure_bind, List.getLastD_cons]

theorem evalBody_singleton (ev : Evaluator) (f : FrameId) (v e : Value) : evalBody ev f v [e] = ev f e :=
  bind_pure (ev f e)

/-- `if` evaluates its test, and then one of its other operands, if it has one for the case. -/
theorem runForm_choice (depth : Nat) (ev : Evaluator) (f : FrameId) (test yes : Value)
    (no : List Value) (hno : no.length ≤ 1) :
    runForm depth ev f .choice (test :: yes :: no) =
      ev f test >>= fun v => if v.isTruthy then ev f yes else evalBody ev f .nil no := by
  simp only [runForm, if_neg (Nat.not_lt_of_le hno)]

/-- A clause with a test that is a literal has the value of its body. -/
theorem evalClauses_literal (depth n : Nat) (f : FrameId) (e : Value) (es rest : List Value) :
    evalClauses depth (eval n) f (.list (.truth true :: e :: es) :: rest) =
      evalEach (eval n) f (e :: es) >>= fun values => pure (values.getLastD .nil) := by
  cases n with
  | zero => rfl
  | succ n =>
    have hbody := evalBody_eq_evalEach (eval (n + 1)) f .nil (e :: es)
    rw [← hbody]
    rfl

/-- `if` with two branches is a choice between two clauses, of which the second one is always taken. -/
theorem runForm_choice_eq_clauses (depth n : Nat) (f : FrameId) (c a b : Value) :
    runForm depth (eval n) f .choice [c, a, b] =
      evalClauses depth (eval n) f [.list [c, a], .list [.truth true, b]] := by
  have hclauses : evalClauses depth (eval n) f [.list [c, a], .list [.truth true, b]] =
      eval n f c >>= fun v => if v.isTruthy then evalBody (eval n) f v [a] else
        evalClauses depth (eval n) f [.list [.truth true, b]] := rfl
  have hlast : evalClauses depth (eval n) f [.list [.truth true, b]] = evalBody (eval n) f .nil [b] := by
    rw [evalClauses_literal, evalBody_eq_evalEach]
  rw [runForm_choice depth (eval n) f c a [b] (Nat.le_refl 1), hclauses, hlast]
  simp only [evalBody_singleton]

/-- `if` with one branch is a choice whether to take a clause. -/
theorem runForm_choice_eq_clause (depth : Nat) (ev : Evaluator) (f : FrameId) (c a : Value) :
    runForm depth ev f .choice [c, a] = evalClauses depth ev f [.list [c, a]] := by
  have hclauses : evalClauses depth ev f [.list [c, a]] =
      ev f c >>= fun v => if v.isTruthy then evalBody ev f v [a] else pure .nil := rfl
  rw [runForm_choice depth ev f c a [] (Nat.zero_le 1), hclauses]
  simp only [evalBody_singleton]
  rfl

/-- `not` is a choice between the truth values. -/
theorem evalEach_not_eq_choice (n : Nat) (f : FrameId) (e : Value) :
    (evalEach (eval n) f [e] >>= Primitive.not.call n) =
      runForm n (eval n) f .choice [e, .nil, .truth true] := by
  cases n with
  | zero => rfl
  | succ n =>
    have hvalue (v : Value) : Primitive.not.call (n + 1) [v] =
        if v.isTruthy then pure .nil else pure (.truth true) := by
      cases v with
      | truth b => cases b <;> rfl
      | _ => rfl
    have hargs : evalEach (eval (n + 1)) f [e] = eval (n + 1) f e >>= fun v => pure [v] := by
      simp only [evalEach, pure_bind]
    rw [runForm_choice (n + 1) (eval (n + 1)) f e .nil [.truth true] (Nat.le_refl 1), hargs, bind_assoc]
    simp only [pure_bind, hvalue, evalBody_singleton, eval_truth]

/-- The first operand decides whether the others are looked at. -/
theorem evalConjunction_cons (ev : Evaluator) (f : FrameId) (v e : Value) (es : List Value) :
    evalConjunction ev f v (e :: es) =
      ev f e >>= fun w => if w.isTruthy then evalConjunction ev f w es else pure w := rfl

theorem evalConjunction_singleton (ev : Evaluator) (f : FrameId) (v e : Value) :
    evalConjunction ev f v [e] = ev f e := by
  have hsame (w : Value) : (if w.isTruthy then evalConjunction ev f w [] else pure w) = pure w := by
    split <;> rfl
  simp only [evalConjunction_cons, hsame, bind_pure]

end

/-! ## Runs with more room -/

section

open Simulation

variable {m k k' : Machine} {f : FrameId} {a b : Nat}

theorem agree_eval (h : a ≤ b) (f : FrameId) (e : Value) (m : Machine) :
    roomier.Agree roomier.Values ((eval a f e).on m) ((eval b f e).on m) :=
  (roomier_lawful.parallel_eval (roomier_depths.2 h) f (roomier_reflexive.values e)).agree (roomier_machines m)

theorem repeats_of_agree {run run' : Except Fault Value × Machine}
    (h : roomier.Agree roomier.Values run run') : Repeats run run' := by
  intro hfinished
  rcases roomier_cases (roomier_exact.values_eq fun _ => rfl) h with hsame | ⟨fault, hfault, hexhausted⟩
  · exact hsame
  · exact absurd hexhausted (hfinished fault hfault)

/-- Two steps are repeated if the first one is, with more room, and the second one after it. -/
theorem Repeats.bind {action action' : Action Value} {next next' : Value → Action Value}
    (h : roomier.Agree roomier.Values (action.on m) (action'.on m))
    (hn : ∀ v k k', action.on m = (.ok v, k) → action'.on m = (.ok v, k') → roomier.Machines k k' →
      Repeats ((next v).on k) ((next' v).on k')) :
    Repeats ((action >>= next).on m) ((action' >>= next').on m) := by
  rw [Action.on_bind, Action.on_bind]
  generalize hleft : action.on m = left, hright : action'.on m = right at h
  cases h with
  | ok hv hm =>
    obtain rfl := roomier_exact.values_eq (fun _ => rfl) _ _ hv
    exact hn _ _ _ hleft hright hm
  | error hf hm => exact repeats_of_agree (.error hf hm)
  | escape he hb outcome =>
    intro hfinished
    exact absurd he (hfinished _ rfl)

/-- What a conjunction starts from does not count if it has an operand. -/
theorem repeats_conjunction (hk : roomier.Machines k k') (h : a ≤ b) (f : FrameId) (v w e : Value)
    (es : List Value) :
    Repeats ((evalConjunction (eval a) f v (e :: es)).on k) ((evalConjunction (eval b) f w (e :: es)).on k') := by
  have hev : roomier.ParallelAll (eval a) (eval b) := roomier_lawful.parallel_eval (roomier_depths.2 h)
  have hparallel : roomier.Parallel roomier.Values (evalConjunction (eval a) f v (e :: es))
      (evalConjunction (eval b) f v (e :: es)) :=
    roomier_lawful.parallel_evalConjunction hev (roomier_reflexive.values v) (roomier_reflexive.all _)
  exact repeats_of_agree (hparallel.agree hk)

/-- **A conjunction is a choice** between the conjunction of its other operands and `nil`, as long as the
    first operand leaves the name alone that the choice looks up again. -/
theorem interchangeable_and {e e' : Value} {es : List Value} (hand : m.Denotes f .conjunction)
    (hif : m.Denotes f .choice)
    (hkept : ∀ n v k, (eval n f e).on m = (.ok v, k) → v.isTruthy → k.Denotes f .conjunction) :
    m.Interchangeable f (callOf "and" (e :: e' :: es))
      (callOf "if" [e, callOf "and" (e' :: es), .nil]) := by
  have hconjunction (d : Nat) : (eval (d + 1) f (callOf "and" (e :: e' :: es))).on m =
      (evalConjunction (eval d) f (.truth true) (e :: e' :: es)).on m := hand.on_call d _
  have hchoice (d : Nat) : (eval (d + 1) f (callOf "if" [e, callOf "and" (e' :: es), .nil])).on m =
      (eval d f e >>= fun v =>
        if v.isTruthy then eval d f (callOf "and" (e' :: es)) else evalBody (eval d) f .nil [.nil]).on m :=
    (hif.on_call d _).trans (by rw [runForm_choice d (eval d) f e _ [.nil] (Nat.le_refl 1)])
  have hrest {n : Nat} {v : Value} {k : Machine} (hon : (eval n f e).on m = (.ok v, k)) (hv : v.isTruthy)
      (d : Nat) : (eval (d + 1) f (callOf "and" (e' :: es))).on k =
        (evalConjunction (eval d) f (.truth true) (e' :: es)).on k :=
    (hkept n v k hon hv).on_call d _
  intro n l hnl
  -- without room for an operand there is nothing to be repeated
  cases n with
  | zero => exact ⟨fun h => absurd rfl (h _ rfl), fun h => absurd rfl (h _ rfl)⟩
  | succ a =>
    obtain ⟨b, rfl⟩ := Nat.exists_eq_add_one_of_ne_zero (Nat.ne_zero_of_lt hnl)
    have hab : a < b := Nat.lt_of_succ_lt_succ hnl
    obtain ⟨c, rfl⟩ := Nat.exists_eq_add_one_of_ne_zero (Nat.ne_zero_of_lt hab)
    rw [hconjunction, hconjunction, hchoice, hchoice]
    constructor
    · refine Repeats.bind (agree_eval (Nat.le_of_lt hab) f e m) ?_
      intro v k k' _ hon' hk
      split
      · rename_i hv
        rw [hrest hon' hv]
        exact repeats_conjunction hk (Nat.le_of_lt_succ hab) f v _ e' es
      · rename_i hv
        rw [eq_nil_of_not_truthy hv, evalBody_singleton, eval_truth]
        exact repeats_of_agree (.ok (.truth false) hk)
    · refine Repeats.bind (agree_eval (Nat.le_of_lt hab) f e m) ?_
      intro v k k' hon _ hk
      cases a with
      | zero => cases hon
      | succ a =>
        split
        · rename_i hv
          rw [hrest hon hv]
          exact repeats_conjunction hk (Nat.le_of_lt (Nat.lt_of_succ_lt hab)) f _ v e' es
        · rename_i hv
          rw [eq_nil_of_not_truthy hv, evalBody_singleton, eval_truth]
          exact repeats_of_agree (.ok (.truth false) hk)

end

/-! ## The forms -/

/-- **The conditional forms agree with one another**, in every state and in every frame where the names that
    are used denote the built-in functions, whatever the operands do.  `or` is `cond` with its operands as
    clauses; `if` is `cond` with a clause for each branch; `not` is `if` between the truth values: with the
    same outcome and the same machine after it, under every limit. `and` of one operand is the operand. `and`
    of more operands is `if` with the `and` of the others, where the first operand leaves the name `and`
    alone; these are interchangeable, which is the same but for exhaustion. And a clause whose test is `t`
    evaluates its forms one after the other, up to the first fault, and has the last value. -/
theorem conditionals_agree (m : Machine) (f : FrameId) :
    (m.Denotes f .disjunction → m.Denotes f .cond → ∀ n es,
      (eval n f (callOf "or" es)).on m = (eval n f (callOf "cond" (es.map fun e => .list [e]))).on m) ∧
    (m.Denotes f .choice → m.Denotes f .cond → ∀ n c a,
      (∀ b, (eval n f (callOf "if" [c, a, b])).on m =
        (eval n f (callOf "cond" [.list [c, a], .list [.truth true, b]])).on m) ∧
      (eval n f (callOf "if" [c, a])).on m = (eval n f (callOf "cond" [.list [c, a]])).on m) ∧
    (m.lookup? "not" f = some (.primitive .not) → m.Denotes f .choice → ∀ n e,
      (eval n f (callOf "not" [e])).on m = (eval n f (callOf "if" [e, .nil, .truth true])).on m) ∧
    (m.Denotes f .conjunction → ∀ n e, (eval (n + 1) f (callOf "and" [e])).on m = (eval n f e).on m) ∧
    (m.Denotes f .conjunction → m.Denotes f .choice → ∀ e e' es,
      (∀ n v k, (eval n f e).on m = (.ok v, k) → v.isTruthy → k.Denotes f .conjunction) →
      m.Interchangeable f (callOf "and" (e :: e' :: es))
        (callOf "if" [e, callOf "and" (e' :: es), .nil])) ∧
    (m.Denotes f .cond → ∀ n e es,
      (eval (n + 1) f (callOf "cond" [.list (.truth true :: e :: es)])).on m =
        (evalEach (eval n) f (e :: es) >>= fun values => pure (values.getLastD .nil)).on m) := by
  refine ⟨?disjunction, ?choice, ?negation, ?single,
    fun hand hif _ _ _ => interchangeable_and hand hif, ?sequence⟩
  case disjunction =>
    intro hor hcond n es
    exact hor.on_call_congr hcond (fun n => (evalClauses_tests n (eval n) f es).symm) n
  case choice =>
    intro hif hcond n c a
    constructor
    · intro b
      exact hif.on_call_congr hcond (fun n => runForm_choice_eq_clauses n n f c a b) n
    · exact hif.on_call_congr hcond (fun n => runForm_choice_eq_clause n (eval n) f c a) n
  case negation =>
    intro hnot hif n e
    cases n with
    | zero => rfl
    | succ n =>
      have hchoice : (eval (n + 1) f (callOf "if" [e, .nil, .truth true])).on m = _ := hif.on_call n _
      rw [hchoice, ← evalEach_not_eq_choice]
      exact on_eval_primitive hnot n
  case single =>
    intro hand n e
    have hconjunction : (eval (n + 1) f (callOf "and" [e])).on m =
        (evalConjunction (eval n) f (.truth true) [e]).on m := hand.on_call n _
    rw [hconjunction, evalConjunction_singleton]
  case sequence =>
    intro hcond n e es
    have hclauses : (eval (n + 1) f (callOf "cond" [.list (.truth true :: e :: es)])).on m =
        (evalClauses n (eval n) f [.list (.truth true :: e :: es)]).on m := hcond.on_call n _
    rw [hclauses, evalClauses_literal]

/-- In a new session: an operand that makes a binding, which the other operand reads; and an operand that
    changes what `or` denotes while it is evaluated, which makes no difference. -/
theorem conditionals_agree_fresh :
    let m := Machine.fresh true .texts
    let f := Machine.globalFrame
    let define : Value := callOf "defvar" [.symbol "x", .truth true]
    let spoil : Value := callOf "setq" [.symbol "or", .nil]
    (∀ form ∈ [SpecialForm.conjunction, .disjunction, .choice, .cond], m.Denotes f form) ∧
      m.lookup? "not" f = some (.primitive .not) ∧
      m.Interchangeable f (callOf "and" [define, .symbol "x"])
        (callOf "if" [define, callOf "and" [.symbol "x"], .nil]) ∧
      (eval 9 f (callOf "or" [spoil, .symbol "or"])).on m =
        (eval 9 f (callOf "cond" [.list [spoil], .list [.symbol "or"]])).on m ∧
      (eval 9 f (callOf "if" [spoil, spoil])).on m = (eval 9 f (callOf "cond" [.list [spoil, spoil]])).on m ∧
      (eval 9 f (callOf "not" [spoil])).on m = (eval 9 f (callOf "if" [spoil, .nil, .truth true])).on m := by
  intro m f define spoil
  have hlookup (name : Text) : m.lookup? name f = m.local? name f :=
    Machine.lookup?_last (by decide) rfl name
  have hforms : ∀ form ∈ [SpecialForm.defvar, .conjunction, .disjunction, .choice, .cond], m.Denotes f form := by
    simp only [List.forall_mem_cons, Machine.Denotes, hlookup]
    exact ⟨rfl, rfl, rfl, rfl, rfl, fun _ h => (List.not_mem_nil h).elim⟩
  have hnot : m.lookup? "not" f = some (.primitive .not) := hlookup "not"
  obtain ⟨hdefvar, hforms⟩ := List.forall_mem_cons.1 hforms
  have hall := hforms
  simp only [List.forall_mem_cons] at hall
  obtain ⟨hand, hor, hif, hcond, _⟩ := hall
  -- with room for the definition it binds a name that is not that of the form
  have hkept : ∀ n v k, (eval n f define).on m = (.ok v, k) → v.isTruthy → k.Denotes f .conjunction := by
    intro n v k hon _
    match n with
    | 0 => cases hon
    | 1 =>
      have hdeep : (eval 1 f define).on m = (.error (.host .tooDeep), m) := hdefvar.on_call 0 _
      rw [hdeep] at hon
      cases hon
    | n + 2 =>
      have hdefined : (eval (n + 2) f define).on m = (.ok (.truth true), m.define "x" (.truth true) f) :=
        hdefvar.on_call (n + 1) _
      rw [hdefined] at hon
      cases hon
      exact Machine.lookup?_last (by decide) rfl _
  obtain ⟨horLaw, hifLaw, hnotLaw, _, handLaw, _⟩ := conditionals_agree m f
  exact ⟨hforms, hnot, handLaw hand hif define (.symbol "x") [] hkept, horLaw hor hcond 9 [spoil, .symbol "or"],
    (hifLaw hif hcond 9 spoil spoil).2, hnotLaw hnot hif 9 spoil⟩

end SmallLisp
