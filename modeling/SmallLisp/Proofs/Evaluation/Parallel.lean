import SmallLisp.Proofs.Evaluation.Outcomes

/-!
# `Proofs.Evaluation.Parallel` — two evaluations side by side, by one induction

Under a lawful simulation, evaluating expressions that stand for one another from machines that do leads
to machines and outcomes that do (`Lawful.parallel_eval`), and each elementary step is looked at once.
`Parallel` is the statement about a pair of actions: from machines that stand for one another they agree
(`Agree`), and a second action that goes on alone, after the first one has ended the comparison, only adds
to what is printed.
-/

namespace SmallLisp

namespace Simulation

variable (S : Simulation)

/-- **What two actions come to**: results that go together or faults that do, with machines that do; or
    the first has ended the comparison, with the start of what the second one prints. -/
inductive Agree {α : Type} (good : α → α → Prop) :
    Except Fault α × Machine → Except Fault α × Machine → Prop
  | ok {a b : α} {m n : Machine} (h : good a b) (hm : S.Machines m n) : Agree good (.ok a, m) (.ok b, n)
  | error {fault fault' : Fault} {m n : Machine} (h : S.Faults fault fault') (hm : S.Machines m n) :
      Agree good (.error fault, m) (.error fault', n)
  | escape {fault : Fault} {m n : Machine} (h : S.escapes fault) (hb : S.Behind m n)
      (outcome : Except Fault α) : Agree good (.error fault, m) (outcome, n)

/-- **Actions side by side.** -/
structure Parallel {α : Type} (good : α → α → Prop) (action action' : Action α) : Prop where
  agree {m n : Machine} : S.Machines m n → S.Agree good (action.on m) (action'.on n)
  prints {fault : Fault} : S.escapes fault → ∀ n : Machine,
    n.printed.toList <+: (action'.on n).2.printed.toList

/-- Evaluators side by side, in all frames and on all expressions that stand for one another. -/
def ParallelAll (ev ev' : Evaluator) : Prop :=
  ∀ f {e e' : Value}, S.Values e e' → S.Parallel S.Values (ev f e) (ev' (S.frame f) e')

variable {S} {α β : Type} {good : α → α → Prop} {goal : β → β → Prop}

/-! ## Single steps -/

theorem Ends.agree {outcome outcome' : Except Fault α} {m n : Machine}
    (h : S.Ends good outcome outcome') (hm : S.Machines m n) :
    S.Agree good (outcome, m) (outcome', n) := by
  cases h with
  | ok h => exact .ok h hm
  | error h => exact .error h hm
  | escape h => exact .escape h hm.behind outcome'

theorem Ends.parallel {outcome outcome' : Except Fault α} (h : S.Ends good outcome outcome') :
    S.Parallel good (Action.ofExcept outcome) (Action.ofExcept outcome') where
  agree hm := by
    rw [Action.on_ofExcept, Action.on_ofExcept]
    exact h.agree hm
  prints _ n := by simp

theorem parallel_pure {a b : α} (h : good a b) : S.Parallel good (pure a) (pure b) :=
  Ends.parallel (.ok h)

theorem parallel_throw {fault fault' : Fault} (h : S.Faults fault fault') :
    S.Parallel good (throw fault) (throw fault') :=
  Ends.parallel (.error h)

theorem printed_prefix_on_print (line : Text) (n : Machine) :
    n.printed.toList <+: ((Action.print line).on n).2.printed.toList := by
  rw [Action.on_print]
  cases n.output.refusal? line with
  | none => simp [Machine.print]
  | some why => exact List.prefix_refl _

theorem parallel_print {line line' : Text} (ht : S.text line line') :
    S.Parallel (fun _ _ => True) (Action.print line) (Action.print line') where
  agree {m n} hm := by
    rw [Action.on_print]
    rcases hm.streams line line' ht with hsame | ⟨why, hrefused, he⟩
    · rw [Action.on_print, hsame]
      cases n.output.refusal? line' with
      | none => exact .ok trivial (hm.print ht)
      | some why => exact .error (.host _) hm
    · rw [hrefused]
      exact .escape he (hm.behind.mono (printed_prefix_on_print line' n)) _
  prints _ n := printed_prefix_on_print line' n

namespace Lawful

variable {action action' : Action α} {next next' : α → Action β}

theorem parallel_lookup (h : S.Lawful) {s t : Text} (hst : S.name s t) (f : FrameId) :
    S.Parallel S.Values (Action.lookup s f) (Action.lookup t (S.frame f)) where
  agree {m n} hm := by
    rw [Action.on_lookup, Action.on_lookup]
    have hrel := hm.lookup? h hst f
    generalize m.lookup? s f = here, n.lookup? t (S.frame f) = there at hrel
    cases hrel with
    | some hv => exact .ok hv hm
    | none => exact .error (.unbound hst) hm
  prints _ n := by simp

/-- New frames stand for one another. -/
theorem parallel_allocate (h : S.Lawful) {bindings bindings' : Bindings}
    (hb : S.Bound bindings bindings') (outer : Option FrameId) :
    S.Parallel (fun f g => S.frame f = g) (Action.allocate bindings outer)
      (Action.allocate bindings' (outer.map S.frame)) where
  agree hm := .ok hm.frame_size (hm.allocate h hb outer)
  prints _ _ := List.prefix_refl _

/-- A second step that is taken alone is one that follows the same result twice, so it only adds to what
    is printed. -/
theorem prints_bind (h : S.Lawful) (hr : S.Reflexive → ∀ a, good a a)
    (hn : ∀ a b, good a b → S.Parallel goal (next a) (next' b)) {fault : Fault}
    (he : S.escapes fault) (n : Machine) :
    (action'.on n).2.printed.toList <+: ((action' >>= next').on n).2.printed.toList := by
  rw [Action.on_bind]
  cases hon : action'.on n with
  | mk outcome k =>
    cases outcome with
    | error fault => exact List.prefix_refl _
    | ok b =>
      have hgood : good b b := hr (h.reflexive he) b
      exact (hn b b hgood).prints he k

/-- Two steps are side by side if the first ones are, and the second ones are after them. -/
theorem parallel_bind (h : S.Lawful) (ha : S.Parallel good action action')
    (hr : S.Reflexive → ∀ a, good a a)
    (hn : ∀ a b, good a b → S.Parallel goal (next a) (next' b)) :
    S.Parallel goal (action >>= next) (action' >>= next') where
  prints he n := (ha.prints he n).trans (h.prints_bind hr hn he n)
  agree {m n} hm := by
    have hagree := ha.agree hm
    have hleft := Action.on_bind action next m
    have hright := Action.on_bind action' next' n
    cases hon : action.on m with
    | mk outcome k =>
      cases hon' : action'.on n with
      | mk outcome' k' =>
        rw [hon] at hagree hleft
        rw [hon'] at hagree hright
        cases hagree with
        | ok hab hk =>
          rw [hleft, hright]
          exact (hn _ _ hab).agree hk
        | error hf hk =>
          rw [hleft, hright]
          exact .error hf hk
        | escape he hb =>
          -- the second action may go on, but what it has printed stays printed
          have hmore : (action'.on n).2.printed.toList <+:
              ((action' >>= next').on n).2.printed.toList := h.prints_bind hr hn he n
          rw [hon'] at hmore
          rw [hleft]
          exact .escape he (hb.mono hmore) _

theorem parallel_ofExcept_bind (h : S.Lawful) {outcome outcome' : Except Fault α}
    (ho : S.Ends good outcome outcome')
    (hr : S.Reflexive → ∀ a, good a a)
    (hn : ∀ a b, good a b → S.Parallel goal (next a) (next' b)) :
    S.Parallel goal (Action.ofExcept outcome >>= next) (Action.ofExcept outcome' >>= next') :=
  h.parallel_bind ho.parallel hr hn

theorem parallel_define (h : S.Lawful) {s t : Text} {v w : Value} (hst : S.name s t)
    (hv : S.Values v w) (f : FrameId) :
    S.Parallel (fun _ _ => True) (Action.define s v f) (Action.define t w (S.frame f)) where
  agree hm := .ok trivial (hm.define h hst hv f)
  prints _ _ := List.prefix_refl _

theorem parallel_assign (h : S.Lawful) {s t : Text} {v w : Value} (hst : S.name s t)
    (hv : S.Values v w) (f : FrameId) :
    S.Parallel (fun _ _ => True) (Action.assign s v f) (Action.assign t w (S.frame f)) where
  agree {m n} hm := by
    rw [Action.on_assign, Action.on_assign, Machine.assign?, Machine.assign?, hm.find?_eq h hst f]
    cases m.find? s f with
    | none => exact .error (.unassignable hst) hm
    | some g => exact .ok trivial (hm.define h hst hv g)
  prints _ n := by
    rw [Action.on_assign, Machine.assign?]
    cases n.find? t (S.frame f) <;> exact List.prefix_refl _

variable {ev ev' : Evaluator} {f : FrameId} {d d' : Nat}

/-! ## Operands and bodies -/

theorem parallel_evalEach (h : S.Lawful) (hev : S.ParallelAll ev ev') {es es' : List Value}
    (hes : List.Forall₂ S.Values es es') :
    S.Parallel (List.Forall₂ S.Values) (evalEach ev f es) (evalEach ev' (S.frame f) es') := by
  induction hes with
  | nil => exact parallel_pure .nil
  | cons he _ ih =>
    refine h.parallel_bind (hev f he) (·.values) ?_
    intro v w hv
    refine h.parallel_bind ih (·.all) ?_
    intro vs ws hvs
    exact parallel_pure (.cons hv hvs)

theorem parallel_evalBody (h : S.Lawful) (hev : S.ParallelAll ev ev') {es es' : List Value}
    {v w : Value} (hv : S.Values v w) (hes : List.Forall₂ S.Values es es') :
    S.Parallel S.Values (evalBody ev f v es) (evalBody ev' (S.frame f) w es') := by
  induction hes generalizing v w with
  | nil => exact parallel_pure hv
  | cons he _ ih => exact h.parallel_bind (hev f he) (·.values) fun v w hv => ih hv

theorem parallel_callClosure (h : S.Lawful) (hev : S.ParallelAll ev ev')
    {formals formals' body body' args args' : List Value} {strict strict' : Bool}
    {name name' : Option Text} (hf : List.Forall₂ S.Values formals formals')
    (hb : List.Forall₂ S.Values body body') (scope : FrameId) (hp : S.policy strict strict')
    (hl : S.label name name') (ha : List.Forall₂ S.Values args args') (hd : S.Depths d d') :
    S.Parallel S.Values (callClosure d ev formals body scope strict name args)
      (callClosure d' ev' formals' body' (S.frame scope) strict' name' args') := by
  have hbind := h.ends_bindArguments hp hl hf ha hd
  refine h.parallel_ofExcept_bind hbind (h.bound_refl ·) ?_
  intro bindings bindings' hbound
  refine h.parallel_bind (h.parallel_allocate hbound _) (·.frame) ?_
  rintro frame _ rfl
  exact h.parallel_evalBody hev (.embedded .nothing) hb

/-! ## Special forms -/

theorem parallel_evalConjunction (h : S.Lawful) (hev : S.ParallelAll ev ev') {es es' : List Value}
    {v w : Value} (hv : S.Values v w) (hes : List.Forall₂ S.Values es es') :
    S.Parallel S.Values (evalConjunction ev f v es)
      (evalConjunction ev' (S.frame f) w es') := by
  induction hes generalizing v w with
  | nil => exact parallel_pure hv
  | cons he _ ih =>
    refine h.parallel_bind (hev f he) (·.values) ?_
    intro v w hv
    rw [hv.truthy_eq]
    split
    · exact ih hv
    · exact parallel_pure hv

theorem parallel_evalDisjunction (h : S.Lawful) (hev : S.ParallelAll ev ev') {es es' : List Value}
    (hes : List.Forall₂ S.Values es es') :
    S.Parallel S.Values (evalDisjunction ev f es) (evalDisjunction ev' (S.frame f) es') := by
  induction hes with
  | nil => exact parallel_pure (.truth false)
  | cons he _ ih =>
    refine h.parallel_bind (hev f he) (·.values) ?_
    intro v w hv
    rw [hv.truthy_eq]
    split
    · exact parallel_pure hv
    · exact ih

theorem parallel_evalClauses (h : S.Lawful) (hev : S.ParallelAll ev ev')
    {clauses clauses' : List Value} (hcs : List.Forall₂ S.Values clauses clauses')
    (hd : S.Depths d d') :
    S.Parallel S.Values (evalClauses d ev f clauses)
      (evalClauses d' ev' (S.frame f) clauses') := by
  induction hcs with
  | nil => exact parallel_pure (.truth false)
  | @cons clause clause' rest rest' hclause _ ih =>
    have hrefuse : S.Parallel S.Values
        (Action.ofExcept (ArgumentFault.refuse .clauseNotList (clause.inspected d)))
        (Action.ofExcept (ArgumentFault.refuse .clauseNotList (clause'.inspected d'))) :=
      (Ends.refuse .clauseNotList (h.inspected hclause hd)).parallel
    cases hclause with
    | list hitems =>
      cases hitems with
      | nil => exact parallel_throw .clauseEmpty
      | cons htest hbody =>
        refine h.parallel_bind (hev f htest) (·.values) ?_
        intro v w hv
        rw [hv.truthy_eq]
        split
        · exact h.parallel_evalBody hev hv hbody
        · exact ih
    | _ => exact hrefuse

theorem parallel_choice (h : S.Lawful) (hev : S.ParallelAll ev ev') {test test' yes yes' : Value}
    {no no' : List Value} (htest : S.Values test test') (hyes : S.Values yes yes')
    (hno : List.Forall₂ S.Values no no') :
    S.Parallel S.Values (runForm d ev f .choice (test :: yes :: no))
      (runForm d' ev' (S.frame f) .choice (test' :: yes' :: no')) := by
  simp only [runForm, hno.length_eq]
  split
  · exact parallel_throw (.operandCount .choice)
  · refine h.parallel_bind (hev f htest) (·.values) ?_
    intro v w hv
    rw [hv.truthy_eq]
    split
    · exact hev f hyes
    · exact h.parallel_evalBody hev (.truth false) hno

/-- What `defvar` and `setq` have in common: the first operand is a name, which is given the value of the
    second one. -/
theorem parallel_given (h : S.Lawful) (hev : S.ParallelAll ev ev') {form : SpecialForm}
    {target target' e e' : Value} {give give' : Text → Value → Action Unit} (hform : S.Forms form form)
    (ht : S.Values target target') (he : S.Values e e') (hd : S.Depths d d')
    (hgive : ∀ s t v w, S.name s t → S.Values v w →
      S.Parallel (fun _ _ => True) (give s v) (give' t w)) :
    S.Parallel S.Values
      (do
        let name ← Action.ofExcept (requireTarget d form target)
        let value ← ev f e
        give name value
        return value)
      (do
        let name ← Action.ofExcept (requireTarget d' form target')
        let value ← ev' (S.frame f) e'
        give' name value
        return value) := by
  refine h.parallel_ofExcept_bind (h.ends_requireTarget hform ht hd) (·.name) ?_
  intro s t hst
  refine h.parallel_bind (hev f he) (·.values) ?_
  intro v w hv
  refine h.parallel_bind (hgive s t v w hst hv) (fun _ _ => trivial) ?_
  intro _ _ _
  exact parallel_pure hv

theorem parallel_defun (h : S.Lawful) {strict strict' : Bool} (hp : S.policy strict strict')
    {target target' parameters parameters' first first' : Value} {rest rest' : List Value}
    (ht : S.Values target target') (hps : S.Values parameters parameters')
    (hfirst : S.Values first first') (hrest : List.Forall₂ S.Values rest rest')
    (hd : S.Depths d d') :
    S.Parallel S.Values (runForm d ev f (.defun strict) (target :: parameters :: first :: rest))
      (runForm d' ev' (S.frame f) (.defun strict') (target' :: parameters' :: first' :: rest')) := by
  have hform := Forms.defun hp
  refine h.parallel_ofExcept_bind (h.ends_requireTarget hform ht hd) (·.name) ?_
  intro s t hst
  refine h.parallel_ofExcept_bind (h.ends_requireParameters hform hps hd) (·.all) ?_
  intro formals formals' hformals
  have hclosure := Values.closure hformals (.cons hfirst hrest) f hp (h.named hst)
  refine h.parallel_bind (h.parallel_define hst hclosure f) (fun _ _ => trivial) ?_
  intro _ _ _
  exact parallel_pure (.symbol hst)

theorem parallel_lambda (h : S.Lawful) {strict strict' : Bool} (hp : S.policy strict strict')
    {parameters parameters' first first' : Value} {rest rest' : List Value}
    (hps : S.Values parameters parameters') (hfirst : S.Values first first')
    (hrest : List.Forall₂ S.Values rest rest') (hd : S.Depths d d') :
    S.Parallel S.Values (runForm d ev f (.lambda strict) (parameters :: first :: rest))
      (runForm d' ev' (S.frame f) (.lambda strict') (parameters' :: first' :: rest')) := by
  have hparameters := h.ends_requireParameters (.lambda hp) hps hd
  refine h.parallel_ofExcept_bind hparameters (·.all) ?_
  intro formals formals' hformals
  exact parallel_pure (.closure hformals (.cons hfirst hrest) f hp h.unnamed)

theorem parallel_runForm (h : S.Lawful) (hev : S.ParallelAll ev ev') {form form' : SpecialForm}
    {operands operands' : List Value} (hform : S.Forms form form')
    (hos : List.Forall₂ S.Values operands operands') (hd : S.Depths d d') :
    S.Parallel S.Values (runForm d ev f form operands)
      (runForm d' ev' (S.frame f) form' operands') := by
  have hcount : S.Parallel S.Values (throw (.argument (.operandCount form)))
      (throw (.argument (.operandCount form'))) := parallel_throw (.operandCount hform)
  cases hform with
  | conjunction => exact h.parallel_evalConjunction hev (.truth true) hos
  | disjunction => exact h.parallel_evalDisjunction hev hos
  | cond => exact h.parallel_evalClauses hev hos hd
  | choice =>
    match hos with
    | .nil | .cons _ .nil => exact hcount
    | .cons htest (.cons hyes hno) => exact h.parallel_choice hev htest hyes hno
  | defvar =>
    match hos with
    | .nil | .cons _ .nil | .cons _ (.cons _ (.cons _ _)) => exact hcount
    | .cons ht (.cons he .nil) =>
      exact h.parallel_given hev .defvar ht he hd fun s t v w hst hv => h.parallel_define hst hv f
  | setq =>
    match hos with
    | .nil | .cons _ .nil | .cons _ (.cons _ (.cons _ _)) => exact hcount
    | .cons ht (.cons he .nil) =>
      exact h.parallel_given hev .setq ht he hd fun s t v w hst hv => h.parallel_assign hst hv f
  | defun hp =>
    match hos with
    | .nil | .cons _ .nil | .cons _ (.cons _ .nil) => exact hcount
    | .cons ht (.cons hps (.cons hfirst hrest)) =>
      exact h.parallel_defun hp ht hps hfirst hrest hd
  | lambda hp =>
    match hos with
    | .nil | .cons _ .nil => exact hcount
    | .cons hps (.cons hfirst hrest) => exact h.parallel_lambda hp hps hfirst hrest hd

/-! ## Calls -/

theorem parallel_callPrimitive (h : S.Lawful) (p : Primitive) {args args' : List Value}
    (ha : List.Forall₂ S.Values args args') (hd : S.Depths d d') :
    S.Parallel S.Values (p.call d args) (p.call d' args') := by
  have hcompute := (h.ends_compute ha hd p).parallel
  unfold Primitive.call
  split
  · have htexts := Ends.mapM ha fun v w hv => h.written hv hd
    refine h.parallel_ofExcept_bind htexts (fun hr texts => ?_) fun texts texts' ht => ?_
    · exact List.forall₂_same.2 fun _ _ => hr.text.2 rfl
    · exact h.parallel_bind (parallel_print (h.joined ht)) (fun _ _ => trivial) fun _ _ _ => hcompute
  · exact hcompute

theorem parallel_callValue (h : S.Lawful) (hev : S.ParallelAll ev ev') {function function' : Value}
    {args args' : List Value} (hfun : S.Values function function')
    (ha : List.Forall₂ S.Values args args') (hd : S.Depths d d') :
    S.Parallel S.Values (callValue d ev f function args)
      (callValue d' ev' (S.frame f) function' args') := by
  have hrefuse : S.Parallel S.Values
      (Action.ofExcept (function.inspected d) >>= fun text => throw (.notCallable (.value text)))
      (Action.ofExcept (function'.inspected d') >>= fun text => throw (.notCallable (.value text))) :=
    h.parallel_ofExcept_bind (h.inspected hfun hd) (fun hr _ => hr.text.2 rfl) fun s t hst =>
      parallel_throw (.uncallable hst)
  cases hfun with
  | primitive p => exact h.parallel_callPrimitive p ha hd
  | special hform => exact h.parallel_runForm hev hform ha hd
  | closure hf hb scope hp hl => exact h.parallel_callClosure hev hf hb scope hp hl ha hd
  | _ => exact hrefuse

theorem parallel_evalNamedCall (h : S.Lawful) (hev : S.ParallelAll ev ev') {s t : Text}
    (hst : S.name s t) {operands operands' : List Value}
    (hos : List.Forall₂ S.Values operands operands') (hd : S.Depths d d') :
    S.Parallel S.Values (evalNamedCall d ev f s operands)
      (evalNamedCall d' ev' (S.frame f) t operands') := by
  refine h.parallel_bind (h.parallel_lookup hst f) (·.values) ?_
  intro function function' hfun
  have hcall : S.Parallel S.Values
      (evalEach ev f operands >>= fun args => callValue d ev f function args)
      (evalEach ev' (S.frame f) operands' >>= fun args =>
        callValue d' ev' (S.frame f) function' args) :=
    h.parallel_bind (h.parallel_evalEach hev hos) (·.all) fun args args' ha =>
      h.parallel_callValue hev hfun ha hd
  have hrefuse : S.Parallel S.Values (throw (.notCallable (.boundTo s)))
      (throw (.notCallable (.boundTo t))) := parallel_throw (.boundTo hst)
  cases hfun with
  | special hform => exact h.parallel_runForm hev hform hos hd
  | primitive | closure => exact hcall
  | _ => exact hrefuse

theorem parallel_evalComputedCall (h : S.Lawful) (hev : S.ParallelAll ev ev') {head head' : Value}
    (hhead : S.Values head head') {operands operands' : List Value}
    (hos : List.Forall₂ S.Values operands operands') (hd : S.Depths d d') :
    S.Parallel S.Values (evalComputedCall d ev f head operands)
      (evalComputedCall d' ev' (S.frame f) head' operands') := by
  refine h.parallel_bind (hev f hhead) (·.values) ?_
  intro function function' hfun
  cases hfun with
  | closure hf hb scope hp hl =>
    exact h.parallel_bind (h.parallel_evalEach hev hos) (·.all) fun args args' ha =>
      h.parallel_callClosure hev hf hb scope hp hl ha hd
  | _ => exact parallel_throw .head

/-! ## Whole evaluations -/

/-- Where running out of room ends the comparison, the second evaluation may have any room. -/
theorem parallel_exhausted (he : S.escapes (.host .tooDeep)) (n : Nat) :
    S.ParallelAll (eval 0) (eval n) := by
  intro f e e' _
  have hprints (m : Machine) :
      m.printed.toList <+: ((eval n (S.frame f) e').on m).2.printed.toList :=
    (Discipline.growth_lawful.keeps_eval n (f := S.frame f) (e := e') (m := m) trivial trivial
      trivial).change.printed_prefix
  exact ⟨fun hm => .escape he (hm.behind.mono (hprints _)) _, fun _ => hprints⟩

theorem parallel_evalStep (h : S.Lawful) (hev : S.ParallelAll ev ev') (hd : S.Depths d d') :
    S.ParallelAll (evalStep d ev) (evalStep d' ev') := by
  intro f e e' he
  have hself : S.Parallel S.Values (pure e) (pure e') := parallel_pure he
  cases he with
  | symbol hst => exact h.parallel_lookup hst f
  | list hitems =>
    cases hitems with
    | nil => exact hself
    | cons hhead hos =>
      have hcomputed := h.parallel_evalComputedCall hev (f := f) hhead hos hd
      cases hhead with
      | symbol hst => exact h.parallel_evalNamedCall hev hst hos hd
      | _ => exact hcomputed
  | _ => exact hself

/-- **Every two evaluations of expressions that stand for one another are side by side**, however they
    end, under limits that go together. -/
theorem parallel_eval (h : S.Lawful) {n n' : Nat} (hn : S.Depths n n') :
    S.ParallelAll (eval n) (eval n') := by
  -- on the limit, and not on the expressions: a call goes on with the body of a closure
  induction n generalizing n' with
  | zero =>
    rcases hn with rfl | ⟨he, _⟩
    · exact fun _ _ _ _ => parallel_throw (.host .tooDeep)
    · exact parallel_exhausted he n'
  | succ n ih =>
    obtain ⟨k, rfl, hk⟩ := hn.of_succ
    exact h.parallel_evalStep (ih hk) hk

end Lawful

end Simulation

end SmallLisp
