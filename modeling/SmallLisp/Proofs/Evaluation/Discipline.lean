import SmallLisp.Proofs.Evaluation.Provenance

/-!
# `Proofs.Evaluation.Discipline` — what every evaluation keeps, by one induction

The evaluator is one recursion over expressions, special forms and closures, and a property of whole
evaluations needs that recursion only once. A `Discipline` says which machines, frames and values may
be at hand, and what an evaluation in a frame may make of a machine. `Discipline.Lawful` asks one law
of it for each elementary step (a lookup, a definition, an assignment, a printed line, a new frame);
`Lawful.keeps_eval` carries the discipline through every evaluation, whether it ends with a value or
with a fault.

`Keeps` is the statement about a single action. It is not about the outcome alone: what was done to
the machine before a fault stays done, so the machine and the change are stated for both endings.
Faults show values, and may show more than an evaluation can get at: a formal parameter of a closure is
never evaluated. So what may be `shown` is kept apart from what may be a `value` at hand.

A discipline can be asked to look after the printed lines too (`Lawful.printing`): only the step that prints
has anything to do with them.
-/

namespace SmallLisp

/-- **A discipline.** Which machines, frames and values may be at hand during an evaluation, which
    values its faults may show, and what an evaluation in a frame may make of a machine. -/
structure Discipline where
  machine : Machine → Prop
  frame : Machine → FrameId → Prop
  value : Machine → Value → Prop
  shown : Machine → Value → Prop
  change : FrameId → Machine → Machine → Prop

namespace Discipline

/-- **What a discipline has to obey**, one law for each elementary step of an evaluation. -/
structure Lawful (D : Discipline) : Prop where
  refl (f : FrameId) (m : Machine) : D.change f m m
  trans {f : FrameId} {m n k : Machine} : D.change f m n → D.change f n k → D.change f m k
  frame_mono {f g : FrameId} {m n : Machine} : D.change f m n → D.frame m g → D.frame n g
  value_mono {f : FrameId} {m n : Machine} {v : Value} : D.change f m n → D.value m v → D.value n v
  shown {m : Machine} {v : Value} : D.value m v → D.shown m v
  number (m : Machine) (x : Float) : D.value m (.number x)
  truth (m : Machine) (b : Bool) : D.value m (.truth b)
  list (m : Machine) (items : List Value) : D.value m (.list items) ↔ ∀ v ∈ items, D.value m v
  /-- A closure is made in the frame at hand, and has at least one body form. -/
  closure {m : Machine} {f : FrameId} {formals rest : List Value} {first : Value} {strict : Bool}
    {name : Option Text} : D.frame m f → (∀ v ∈ formals, D.value m v) →
    (∀ v ∈ first :: rest, D.value m v) → NameAmong (D.shown m) name →
    D.value m (.closure formals (first :: rest) f strict name)
  scope {m : Machine} {formals body : List Value} {scope : FrameId} {strict : Bool}
    {name : Option Text} : D.value m (.closure formals body scope strict name) → D.frame m scope
  formals {m : Machine} {formals body : List Value} {scope : FrameId} {strict : Bool}
    {name : Option Text} : D.value m (.closure formals body scope strict name) →
    ∀ v ∈ formals, D.shown m v
  body {m : Machine} {formals body : List Value} {scope : FrameId} {strict : Bool}
    {name : Option Text} : D.value m (.closure formals body scope strict name) →
    ∀ v ∈ body, D.value m v
  noBody {m : Machine} {formals : List Value} {scope : FrameId} {strict : Bool}
    {name : Option Text} : D.value m (.closure formals [] scope strict name) →
    D.value m (.embedded .nothing)
  name {m : Machine} {formals body : List Value} {scope : FrameId} {strict : Bool}
    {name : Option Text} : D.value m (.closure formals body scope strict name) →
    NameAmong (D.shown m) name
  lookup {m : Machine} {f : FrameId} {name : Text} {v : Value} : D.machine m → D.frame m f →
    m.lookup? name f = some v → D.value m v
  define {m : Machine} {f : FrameId} {name : Text} {v : Value} : D.machine m → D.frame m f →
    D.value m v → D.machine (m.define name v f) ∧ D.change f m (m.define name v f)
  assign {m : Machine} {f g : FrameId} {name : Text} {v : Value} : D.machine m → D.frame m f →
    D.value m v → m.find? name f = some g →
    D.machine (m.define name v g) ∧ D.change f m (m.define name v g)
  print {m : Machine} {args : List Value} {depth : Nat} {texts : List Text} (f : FrameId) :
    D.machine m → (∀ v ∈ args, D.value m v) → args.mapM (Value.written depth) = .ok texts →
    D.machine (m.print (Text.intercalate " " texts)) ∧ D.change f m (m.print (Text.intercalate " " texts))
  enter {m : Machine} {scope : FrameId} {bindings : Bindings} : D.machine m → D.frame m scope →
    (∀ b ∈ bindings, D.value m b.2) →
    D.machine (m.allocate bindings (some scope)).2 ∧
      D.frame (m.allocate bindings (some scope)).2 m.frames.size
  /-- What is done in the frame of a call is no more than the call may do. -/
  leave {m k : Machine} {scope : FrameId} {bindings : Bindings} (f : FrameId) :
    D.change m.frames.size (m.allocate bindings (some scope)).2 k → D.change f m k

/-- **The discipline is kept** by an action of an evaluation in frame `f`: it leaves a machine of the
    discipline, changes it as allowed, and ends with a good result or a fault of what is at hand. -/
structure Keeps (D : Discipline) {α : Type} (f : FrameId) (good : Machine → α → Prop)
    (action : Action α) (m : Machine) : Prop where
  machine : D.machine (action.on m).2
  change : D.change f m (action.on m).2
  settles : Settles (D.shown (action.on m).2) (action.on m).2.output (good (action.on m).2) (action.on m).1

/-- An evaluator keeps the discipline from every machine, in every frame and on every expression. -/
def KeepsAll (D : Discipline) (ev : Evaluator) : Prop :=
  ∀ {f : FrameId} {e : Value} {m : Machine}, D.machine m → D.frame m f → D.value m e →
    D.Keeps f D.value (ev f e) m

namespace Lawful

variable {D : Discipline} {α β : Type} {f : FrameId} {m : Machine}
  {good : Machine → α → Prop} {goal : Machine → β → Prop}

/-! ## Single steps -/

theorem keeps_ofExcept (h : D.Lawful) (hm : D.machine m) {outcome : Except Fault α}
    (ho : Settles (D.shown m) m.output (good m) outcome) : D.Keeps f good (Action.ofExcept outcome) m := by
  refine ⟨?_, ?_, ?_⟩ <;> rw [Action.on_ofExcept]
  · exact hm
  · exact h.refl f m
  · exact ho

theorem keeps_pure (h : D.Lawful) (hm : D.machine m) {a : α} (ha : good m a) :
    D.Keeps f good (pure a) m :=
  h.keeps_ofExcept hm (show Settles (D.shown m) m.output (good m) (.ok a) from ha)

theorem keeps_throw (h : D.Lawful) (hm : D.machine m) {fault : Fault}
    (hf : fault.Arises (D.shown m) m.output) : D.Keeps f good (throw fault) m :=
  h.keeps_ofExcept hm (show Settles (D.shown m) m.output (good m) (.error fault) from hf)

/-- Two steps keep the discipline if the first does, and the second does after it. -/
theorem keeps_bind (h : D.Lawful) {action : Action α} {next : α → Action β}
    (ha : D.Keeps f good action m)
    (hn : ∀ n a, D.machine n → D.change f m n → good n a → D.Keeps f goal (next a) n) :
    D.Keeps f goal (action >>= next) m := by
  obtain ⟨hmachine, hchange, hsettles⟩ := ha
  have hbind := Action.on_bind action next m
  -- a fault of the first step is that of both, and the second is not taken
  cases hon : action.on m with
  | mk outcome n =>
    rw [hon] at hmachine hchange hsettles hbind
    cases outcome with
    | ok a =>
      obtain ⟨hmachine', hchange', hsettles'⟩ := hn n a hmachine hchange hsettles
      refine ⟨?_, ?_, ?_⟩ <;> rw [hbind]
      · exact hmachine'
      · exact h.trans hchange hchange'
      · exact hsettles'
    | error fault =>
      refine ⟨?_, ?_, ?_⟩ <;> rw [hbind]
      · exact hmachine
      · exact hchange
      · exact hsettles

/-- A step on outcomes needs no machine: what follows it goes on from the same one. -/
theorem keeps_ofExcept_bind (h : D.Lawful) (hm : D.machine m) {p : α → Prop}
    {outcome : Except Fault α} (ho : Settles (D.shown m) m.output p outcome) {next : α → Action β}
    (hn : ∀ a, p a → D.Keeps f goal (next a) m) :
    D.Keeps f goal (Action.ofExcept outcome >>= next) m := by
  cases outcome with
  | ok a => exact hn a ho
  | error fault => exact h.keeps_throw hm ho

theorem keeps_lookup (h : D.Lawful) (hm : D.machine m) (hf : D.frame m f) {name : Text}
    (hname : D.value m (.symbol name)) : D.Keeps f D.value (Action.lookup name f) m := by
  refine ⟨?_, ?_, ?_⟩ <;> rw [Action.on_lookup]
  · exact hm
  · exact h.refl f m
  · cases hl : m.lookup? name f with
    | none => exact .unbound (h.shown hname)
    | some v => exact h.lookup hm hf hl

theorem keeps_define (h : D.Lawful) (hm : D.machine m) (hf : D.frame m f) (name : Text) {v : Value}
    (hv : D.value m v) : D.Keeps f (fun _ _ => True) (Action.define name v f) m :=
  ⟨(h.define hm hf hv).1, (h.define hm hf hv).2, trivial⟩

theorem keeps_assign (h : D.Lawful) (hm : D.machine m) (hf : D.frame m f) {name : Text}
    (hname : D.value m (.symbol name)) {v : Value} (hv : D.value m v) :
    D.Keeps f (fun _ _ => True) (Action.assign name v f) m := by
  have hon := Action.on_assign name v f m
  unfold Machine.assign? at hon
  cases hg : m.find? name f with
  | none =>
    rw [hg] at hon
    refine ⟨?_, ?_, ?_⟩ <;> rw [hon]
    · exact hm
    · exact h.refl f m
    · exact .unassignable (h.shown hname)
  | some g =>
    rw [hg] at hon
    refine ⟨?_, ?_, ?_⟩ <;> rw [hon]
    · exact (h.assign hm hf hv hg).1
    · exact (h.assign hm hf hv hg).2
    · trivial

/-! ## Operands and bodies -/

variable {ev : Evaluator}

theorem keeps_evalEach (h : D.Lawful) (hev : D.KeepsAll ev) {es : List Value} (hm : D.machine m)
    (hf : D.frame m f) (hes : ∀ e ∈ es, D.value m e) :
    D.Keeps f (fun n vs => ∀ v ∈ vs, D.value n v) (evalEach ev f es) m := by
  induction es generalizing m with
  | nil => exact h.keeps_pure hm fun v hv => absurd hv List.not_mem_nil
  | cons e rest ih =>
    refine h.keeps_bind (hev hm hf (hes e List.mem_cons_self)) fun n v hn hc hv => ?_
    -- what was at hand before the first operand is at hand after it
    have hrest : ∀ e ∈ rest, D.value n e := fun e he =>
      h.value_mono hc (hes e (List.mem_cons_of_mem _ he))
    refine h.keeps_bind (ih hn (h.frame_mono hc hf) hrest) fun k vs hk hc' hvs => ?_
    exact h.keeps_pure hk (List.forall_mem_cons.2 ⟨h.value_mono hc' hv, hvs⟩)

theorem keeps_evalBody (h : D.Lawful) (hev : D.KeepsAll ev) {es : List Value} {v : Value}
    (hm : D.machine m) (hf : D.frame m f) (hv : es = [] → D.value m v)
    (hes : ∀ e ∈ es, D.value m e) : D.Keeps f D.value (evalBody ev f v es) m := by
  induction es generalizing m v with
  | nil => exact h.keeps_pure hm (hv rfl)
  | cons e rest ih =>
    refine h.keeps_bind (hev hm hf (hes e List.mem_cons_self)) fun n w hn hc hw => ?_
    exact ih hn (h.frame_mono hc hf) (fun _ => hw) fun e he =>
      h.value_mono hc (hes e (List.mem_cons_of_mem _ he))

/-- The body of a closure runs in a new frame, and what it does there is allowed to every caller. -/
theorem keeps_callClosure (h : D.Lawful) (hev : D.KeepsAll ev) (depth : Nat)
    {formals body args : List Value} {scope : FrameId} {strict : Bool} {name : Option Text}
    (hm : D.machine m) (hc : D.value m (.closure formals body scope strict name))
    (ha : ∀ v ∈ args, D.value m v) :
    D.Keeps f D.value (callClosure depth ev formals body scope strict name args) m := by
  have hbind : Settles (D.shown m) m.output (fun bindings => ∀ b ∈ bindings, D.value m b.2)
      (bindArguments depth strict name formals args) :=
    settles_bindArguments (h.name hc) (h.formals hc) ha depth strict
  refine h.keeps_ofExcept_bind hm hbind fun bindings hb => ?_
  obtain ⟨hn, hframe⟩ := h.enter hm (h.scope hc) hb
  have hmono {v : Value} (hv : D.value m v) : D.value (m.allocate bindings (some scope)).2 v :=
    h.value_mono (h.leave f (h.refl _ _)) hv
  have hbody : D.Keeps m.frames.size D.value (evalBody ev m.frames.size (.embedded .nothing) body)
      (m.allocate bindings (some scope)).2 := by
    refine h.keeps_evalBody hev hn hframe ?_ fun e he => hmono (h.body hc e he)
    rintro rfl
    exact hmono (h.noBody hc)
  -- the body changes the machine as its own frame may; `leave` makes that a change of the caller's
  exact ⟨hbody.machine, h.leave f hbody.change, hbody.settles⟩

/-! ## Special forms -/

theorem keeps_evalConjunction (h : D.Lawful) (hev : D.KeepsAll ev) {es : List Value} {v : Value}
    (hm : D.machine m) (hf : D.frame m f) (hv : D.value m v) (hes : ∀ e ∈ es, D.value m e) :
    D.Keeps f D.value (evalConjunction ev f v es) m := by
  induction es generalizing m v with
  | nil => exact h.keeps_pure hm hv
  | cons e rest ih =>
    refine h.keeps_bind (hev hm hf (hes e List.mem_cons_self)) fun n w hn hc hw => ?_
    split
    · exact ih hn (h.frame_mono hc hf) hw fun e he =>
        h.value_mono hc (hes e (List.mem_cons_of_mem _ he))
    · exact h.keeps_pure hn hw

theorem keeps_evalDisjunction (h : D.Lawful) (hev : D.KeepsAll ev) {es : List Value}
    (hm : D.machine m) (hf : D.frame m f) (hes : ∀ e ∈ es, D.value m e) :
    D.Keeps f D.value (evalDisjunction ev f es) m := by
  induction es generalizing m with
  | nil => exact h.keeps_pure hm (h.truth m false)
  | cons e rest ih =>
    refine h.keeps_bind (hev hm hf (hes e List.mem_cons_self)) fun n w hn hc hw => ?_
    split
    · exact h.keeps_pure hn hw
    · exact ih hn (h.frame_mono hc hf) fun e he =>
        h.value_mono hc (hes e (List.mem_cons_of_mem _ he))

theorem keeps_evalClauses (h : D.Lawful) (hev : D.KeepsAll ev) (depth : Nat) {clauses : List Value}
    (hm : D.machine m) (hf : D.frame m f) (hcs : ∀ e ∈ clauses, D.value m e) :
    D.Keeps f D.value (evalClauses depth ev f clauses) m := by
  fun_induction evalClauses depth ev f clauses generalizing m with
  | case1 => exact h.keeps_pure hm (h.truth m false)
  | case2 test body rest ih =>
    have hclause : ∀ e ∈ test :: body, D.value m e :=
      (h.list m _).1 (hcs (.list (test :: body)) List.mem_cons_self)
    refine h.keeps_bind (hev hm hf (hclause test List.mem_cons_self)) fun n w hn hc hw => ?_
    have hf' : D.frame n f := h.frame_mono hc hf
    split
    · exact h.keeps_evalBody hev hn hf' (fun _ => hw) fun e he =>
        h.value_mono hc (hclause e (List.mem_cons_of_mem _ he))
    · exact ih hn hf' fun e he => h.value_mono hc (hcs e (List.mem_cons_of_mem _ he))
  | case3 rest => exact h.keeps_throw hm .clauseEmpty
  | case4 clause rest _ _ =>
    exact h.keeps_ofExcept hm
      (settles_refuse_inspected .clauseNotList (h.shown (hcs clause List.mem_cons_self)) depth)

theorem keeps_runForm (h : D.Lawful) (hev : D.KeepsAll ev) (depth : Nat) (form : SpecialForm)
    {operands : List Value} (hm : D.machine m) (hf : D.frame m f)
    (hos : ∀ e ∈ operands, D.value m e) : D.Keeps f D.value (runForm depth ev f form operands) m := by
  unfold runForm
  split
  · exact h.keeps_evalConjunction hev hm hf (h.truth m true) hos
  · exact h.keeps_evalDisjunction hev hm hf hos
  · exact h.keeps_evalClauses hev depth hm hf hos
  · -- `if`: the operand count is checked before anything is evaluated
    rename_i test yes no
    split
    · exact h.keeps_throw hm (.operandCount _)
    · refine h.keeps_bind (hev hm hf (hos test List.mem_cons_self)) fun n w hn hc _ => ?_
      have hos' : ∀ e ∈ yes :: no, D.value n e := fun e he =>
        h.value_mono hc (hos e (List.mem_cons_of_mem _ he))
      split
      · exact hev hn (h.frame_mono hc hf) (hos' yes List.mem_cons_self)
      · exact h.keeps_evalBody hev hn (h.frame_mono hc hf) (fun _ => h.truth n false) fun e he =>
          hos' e (List.mem_cons_of_mem _ he)
  · -- `defvar`: the target is looked at first, so a wrong one leaves the machine alone
    rename_i target e
    have htarget : D.value m target := hos target List.mem_cons_self
    refine h.keeps_ofExcept_bind hm (settles_requireTarget (h.shown htarget) depth _) fun name _ => ?_
    refine h.keeps_bind (hev hm hf (hos e (by simp))) fun n v hn hc hv => ?_
    refine h.keeps_bind (h.keeps_define hn (h.frame_mono hc hf) name hv) fun k _ hk hc' _ => ?_
    exact h.keeps_pure hk (h.value_mono hc' hv)
  · -- `setq`: the name is that of the target, which is a symbol at hand
    rename_i target e
    have htarget : D.value m target := hos target List.mem_cons_self
    refine h.keeps_ofExcept_bind hm (settles_requireTarget (h.shown htarget) depth _) fun name hname => ?_
    refine h.keeps_bind (hev hm hf (hos e (by simp))) fun n v hn hc hv => ?_
    have hsymbol : D.value n (.symbol name) := h.value_mono hc (hname ▸ htarget)
    refine h.keeps_bind (h.keeps_assign hn (h.frame_mono hc hf) hsymbol hv) fun k _ hk hc' _ => ?_
    exact h.keeps_pure hk (h.value_mono hc' hv)
  · -- `defun`: the closure is over the frame of the call, and bound in it
    rename_i strict target parameters first rest
    have htarget : D.value m target := hos target List.mem_cons_self
    have hparameters : D.value m parameters := hos parameters (by simp)
    refine h.keeps_ofExcept_bind hm (settles_requireTarget (h.shown htarget) depth _) fun name hname => ?_
    refine h.keeps_ofExcept_bind hm (settles_requireParameters (h.shown hparameters) depth _) ?_
    intro formals hp
    have hsymbol : D.value m (.symbol name) := hname ▸ htarget
    have hclosure : D.value m (.closure formals (first :: rest) f strict (some name)) := by
      refine h.closure hf ((h.list m formals).1 (hp ▸ hparameters)) (fun e he => hos e ?_) ?_
      · exact List.mem_cons_of_mem _ (List.mem_cons_of_mem _ he)
      · rintro s ⟨⟩
        exact h.shown hsymbol
    refine h.keeps_bind (h.keeps_define hm hf name hclosure) fun n _ hn hc _ => ?_
    exact h.keeps_pure hn (h.value_mono hc hsymbol)
  · -- `lambda`: the same closure, without a name
    rename_i strict parameters first rest
    have hparameters : D.value m parameters := hos parameters List.mem_cons_self
    refine h.keeps_ofExcept_bind hm (settles_requireParameters (h.shown hparameters) depth _) ?_
    intro formals hp
    refine h.keeps_pure hm (h.closure hf ((h.list m formals).1 (hp ▸ hparameters)) ?_ ?_)
    · exact fun e he => hos e (List.mem_cons_of_mem _ he)
    · exact fun s hs => nomatch hs
  · exact h.keeps_throw hm (.operandCount form)

/-! ## Calls -/

/-- A line is printed, or the stream refuses it and nothing else happens. -/
theorem keeps_print (h : D.Lawful) {args : List Value} {depth : Nat} {texts : List Text} (hm : D.machine m)
    (ha : ∀ v ∈ args, D.value m v) (ht : args.mapM (Value.written depth) = .ok texts) :
    D.Keeps f (fun _ _ => True) (Action.print (Text.intercalate " " texts)) m := by
  have hon := Action.on_print (Text.intercalate " " texts) m
  cases hr : m.output.refusal? (Text.intercalate " " texts) with
  | none =>
    rw [hr] at hon
    obtain ⟨hn, hc⟩ := h.print f hm ha ht
    refine ⟨?_, ?_, ?_⟩ <;> rw [hon]
    · exact hn
    · exact hc
    · trivial
  | some why =>
    rw [hr] at hon
    refine ⟨?_, ?_, ?_⟩ <;> rw [hon]
    · exact hm
    · exact h.refl f m
    · exact .unwritable ⟨args, depth, texts, fun v hv => h.shown (ha v hv), ht, hr⟩

theorem keeps_callPrimitive (h : D.Lawful) (depth : Nat) (p : Primitive) {args : List Value}
    (hm : D.machine m) (ha : ∀ v ∈ args, D.value m v) :
    D.Keeps f D.value (p.call depth args) m := by
  have hcompute {n : Machine} (hn : D.machine n) (hargs : ∀ v ∈ args, D.value n v) :
      D.Keeps f D.value (Action.ofExcept (p.compute depth args)) n :=
    h.keeps_ofExcept hn <|
      (p.settles_compute (h.number n) (h.truth n) (h.list n) hargs depth).widen fun _ => h.shown
  unfold Primitive.call
  split
  · -- `print` writes its line before it computes anything
    have hshown : ∀ v ∈ args, D.shown m v := fun v hv => h.shown (ha v hv)
    refine h.keeps_ofExcept_bind hm (settles_writtenAll hshown depth) fun texts ht => ?_
    exact h.keeps_bind (h.keeps_print hm ha ht) fun n _ hn hc _ =>
      hcompute hn fun v hv => h.value_mono hc (ha v hv)
  · exact hcompute hm ha

theorem keeps_callValue (h : D.Lawful) (hev : D.KeepsAll ev) (depth : Nat) {function : Value}
    {args : List Value} (hm : D.machine m) (hf : D.frame m f) (hfun : D.value m function)
    (ha : ∀ v ∈ args, D.value m v) :
    D.Keeps f D.value (callValue depth ev f function args) m := by
  unfold callValue
  split
  · exact h.keeps_callPrimitive depth _ hm ha
  · exact h.keeps_runForm hev depth _ hm hf ha
  · exact h.keeps_callClosure hev depth hm hfun ha
  · refine h.keeps_ofExcept_bind hm (settles_inspected (h.shown hfun) depth) fun text ht => ?_
    exact h.keeps_throw hm (.uncallable (h.shown hfun) ht)

theorem keeps_evalNamedCall (h : D.Lawful) (hev : D.KeepsAll ev) (depth : Nat) {name : Text}
    {operands : List Value} (hm : D.machine m) (hf : D.frame m f)
    (hname : D.value m (.symbol name)) (hos : ∀ e ∈ operands, D.value m e) :
    D.Keeps f D.value (evalNamedCall depth ev f name operands) m := by
  refine h.keeps_bind (h.keeps_lookup hm hf hname) fun n function hn hc hfun => ?_
  have hf' : D.frame n f := h.frame_mono hc hf
  have hos' : ∀ e ∈ operands, D.value n e := fun e he => h.value_mono hc (hos e he)
  split
  · exact h.keeps_runForm hev depth _ hn hf' hos'
  · split
    · refine h.keeps_bind (h.keeps_evalEach hev hn hf' hos') fun k args hk hc' hargs => ?_
      exact h.keeps_callValue hev depth hk (h.frame_mono hc' hf') (h.value_mono hc' hfun) hargs
    · exact h.keeps_throw hn (.boundTo (h.shown (h.value_mono hc hname)))

theorem keeps_evalComputedCall (h : D.Lawful) (hev : D.KeepsAll ev) (depth : Nat) {head : Value}
    {operands : List Value} (hm : D.machine m) (hf : D.frame m f) (hhead : D.value m head)
    (hos : ∀ e ∈ operands, D.value m e) :
    D.Keeps f D.value (evalComputedCall depth ev f head operands) m := by
  refine h.keeps_bind (hev hm hf hhead) fun n function hn hc hfun => ?_
  have hf' : D.frame n f := h.frame_mono hc hf
  split
  · refine h.keeps_bind (h.keeps_evalEach hev hn hf' fun e he => h.value_mono hc (hos e he)) ?_
    intro k args hk hc' hargs
    exact h.keeps_callClosure hev depth hk (h.value_mono hc' hfun) hargs
  · exact h.keeps_throw hn .head

/-! ## Whole evaluations -/

theorem keeps_evalStep (h : D.Lawful) (hev : D.KeepsAll ev) (depth : Nat) :
    D.KeepsAll (evalStep depth ev) := by
  intro f e m hm hf he
  unfold evalStep
  split
  · exact h.keeps_lookup hm hf he
  · have hitems := (h.list m _).1 he
    exact h.keeps_evalNamedCall hev depth hm hf (hitems _ List.mem_cons_self) fun e he =>
      hitems e (List.mem_cons_of_mem _ he)
  · have hitems := (h.list m _).1 he
    exact h.keeps_evalComputedCall hev depth hm hf (hitems _ List.mem_cons_self) fun e he =>
      hitems e (List.mem_cons_of_mem _ he)
  · exact h.keeps_pure hm he

/-- **Every evaluation keeps a lawful discipline**, whatever its limit and however it ends. -/
theorem keeps_eval (h : D.Lawful) (n : Nat) : D.KeepsAll (eval n) := by
  -- on the limit, and not on the expression: a call goes on with the body of a closure
  induction n with
  | zero => exact fun hm _ _ => h.keeps_throw hm .tooDeep
  | succ n ih => exact h.keeps_evalStep ih n

/-- **Every call keeps a lawful discipline**: of a primitive, a special form or a closure, and of a
    value that cannot be called. -/
theorem keeps_apply (h : D.Lawful) (n : Nat) {function : Value} {args : List Value}
    (hm : D.machine m) (hf : D.frame m f) (hfun : D.value m function)
    (ha : ∀ v ∈ args, D.value m v) : D.Keeps f D.value (apply n f function args) m :=
  h.keeps_callValue (h.keeps_eval n) n hm hf hfun ha

end Lawful

/-! ## Printed lines -/

/-- The discipline, on machines that have printed no other lines than `q`. -/
def printing (D : Discipline) (q : Text → Prop) : Discipline where
  machine m := D.machine m ∧ ∀ line ∈ m.printed, q line
  frame := D.frame
  value := D.value
  shown := D.shown
  change := D.change

/-- Only `print` adds a line, so it is enough that the texts of values at hand make such lines. -/
theorem Lawful.printing {D : Discipline} (h : D.Lawful) {q : Text → Prop}
    (hq : ∀ {m : Machine} {args : List Value} {depth : Nat} {texts : List Text}, D.machine m →
      (∀ v ∈ args, D.value m v) → args.mapM (Value.written depth) = .ok texts →
      q (Text.intercalate " " texts)) : (D.printing q).Lawful where
  refl := h.refl
  trans := h.trans
  frame_mono := h.frame_mono
  value_mono := h.value_mono
  shown := h.shown
  number := h.number
  truth := h.truth
  list := h.list
  closure := h.closure
  scope := h.scope
  formals := h.formals
  body := h.body
  noBody := h.noBody
  name := h.name
  lookup hm := h.lookup hm.1
  -- a definition, an assignment and a new frame leave the lines as they are
  define hm hf hv := ⟨⟨(h.define hm.1 hf hv).1, hm.2⟩, (h.define hm.1 hf hv).2⟩
  assign hm hf hv hg := ⟨⟨(h.assign hm.1 hf hv hg).1, hm.2⟩, (h.assign hm.1 hf hv hg).2⟩
  print f hm ha ht := by
    obtain ⟨hmachine, hchange⟩ := h.print f hm.1 ha ht
    refine ⟨⟨hmachine, ?_⟩, hchange⟩
    intro line hline
    rcases Array.mem_push.1 hline with hold | rfl
    · exact hm.2 line hold
    · exact hq hm.1 ha ht
  enter hm hs hb := ⟨⟨(h.enter hm.1 hs hb).1, hm.2⟩, (h.enter hm.1 hs hb).2⟩
  leave := h.leave

end Discipline

end SmallLisp
