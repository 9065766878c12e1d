import Mathlib.Data.List.Forall2
import Mathlib.Order.Monotone.Basic
import SmallLisp.Proofs.Evaluation.Frames

/-!
# `Proofs.Evaluation.Simulation` — what stands for what in two runs

Two runs can be compared value by value and frame by frame without being equal: under two arity policies,
say, they make other closures in the same places, and in a store with other frames in it the same ones in
other places. A `Simulation` says which names, policies, closure names, texts and frames of the second run
stand for those of the first. What follows from that for values, faults and machines is the same for every
simulation: `Values`, `Faults` and `Machines`.

A run can stop where the other goes on. The faults for which that is allowed are those that `escapes` lists;
what was printed up to such a fault is then the start of what the other run prints (`Behind`).

The machines are compared name by name. A binding whose name stands for nothing is not compared at all. The
frames that the second run makes itself stand for those that the first one makes, in their order; a frame
that stands for none is never written to.
-/

namespace SmallLisp

/-- **A simulation.** Which names, arity policies, closure names and texts of a second run stand for those
    of a first one, which frame stands for a frame, what the frames hold that stand for none, and at which
    faults of the first run the comparison ends. -/
structure Simulation where
  name : Text → Text → Prop
  policy : Bool → Bool → Prop
  label : Option Text → Option Text → Prop
  text : Text → Text → Prop
  frame : FrameId → FrameId
  apart : FrameId → Option Frame
  escapes : Fault → Prop

namespace Simulation

variable (S : Simulation)

/-! ## Values -/

/-- Special forms that are the same but for the policy that they hold. -/
inductive Forms : SpecialForm → SpecialForm → Prop
  | conjunction : Forms .conjunction .conjunction
  | disjunction : Forms .disjunction .disjunction
  | defvar : Forms .defvar .defvar
  | setq : Forms .setq .setq
  | defun {strict strict' : Bool} (h : S.policy strict strict') :
      Forms (.defun strict) (.defun strict')
  | lambda {strict strict' : Bool} (h : S.policy strict strict') :
      Forms (.lambda strict) (.lambda strict')
  | choice : Forms .choice .choice
  | cond : Forms .cond .cond

/-- **A value that stands for a value**: built the same way from names, policies and closure names that
    stand for one another. Closures are made in frames that do. -/
inductive Values : Value → Value → Prop
  | number (x : Float) : Values (.number x) (.number x)
  | text (s : Text) : Values (.text s) (.text s)
  | truth (b : Bool) : Values (.truth b) (.truth b)
  | symbol {s t : Text} (h : S.name s t) : Values (.symbol s) (.symbol t)
  | list {items items' : List Value} (h : List.Forall₂ Values items items') :
      Values (.list items) (.list items')
  | primitive (p : Primitive) : Values (.primitive p) (.primitive p)
  | special {form form' : SpecialForm} (h : S.Forms form form') :
      Values (.special form) (.special form')
  | closure {formals formals' body body' : List Value} {strict strict' : Bool}
      {name name' : Option Text} (hf : List.Forall₂ Values formals formals')
      (hb : List.Forall₂ Values body body') (scope : FrameId) (hp : S.policy strict strict')
      (hl : S.label name name') :
      Values (.closure formals body scope strict name)
        (.closure formals' body' (S.frame scope) strict' name')
  | embedded (e : Embedded) : Values (.embedded e) (.embedded e)

/-- Bindings of which each name has a value that stands for the value of its counterpart. -/
def Bound (bindings bindings' : Bindings) : Prop :=
  ∀ s t, S.name s t → Option.Rel S.Values (bindings.lookup s) (bindings'.lookup t)

/-! ## Faults -/

/-- Refusals of the same argument, which show texts that stand for one another. -/
inductive Refusals : (Text → ArgumentFault) → (Text → ArgumentFault) → Prop
  | notNumeric (p : Primitive) : Refusals (.notNumeric p) (.notNumeric p)
  | notList (p : Primitive) : Refusals (.notList p) (.notList p)
  | target {form form' : SpecialForm} (h : S.Forms form form') :
      Refusals (.target form) (.target form')
  | parameterList {form form' : SpecialForm} (h : S.Forms form form') :
      Refusals (.parameterList form) (.parameterList form')
  | clauseNotList : Refusals .clauseNotList .clauseNotList
  | parameter : Refusals .parameter .parameter

/-- **A fault that stands for a fault**: the same cause, with names and texts that stand for one another. -/
inductive Faults : Fault → Fault → Prop
  | unreadable (why : Source.SyntaxFault) : Faults (.unreadable why) (.unreadable why)
  | unbound {s t : Text} (h : S.name s t) : Faults (.unbound s) (.unbound t)
  | unassignable {s t : Text} (h : S.name s t) : Faults (.unassignable s) (.unassignable t)
  | tooFew (p : Primitive) (least : Nat) :
      Faults (.argument (.tooFew p least)) (.argument (.tooFew p least))
  | exactly (p : Primitive) (count : Nat) :
      Faults (.argument (.exactly p count)) (.argument (.exactly p count))
  | consTail : Faults (.argument .consTail) (.argument .consTail)
  | operandCount {form form' : SpecialForm} (h : S.Forms form form') :
      Faults (.argument (.operandCount form)) (.argument (.operandCount form'))
  | clauseEmpty : Faults (.argument .clauseEmpty) (.argument .clauseEmpty)
  | arity {name name' : Option Text} (h : S.label name name') (expected given : Nat) :
      Faults (.argument (.arity name expected given)) (.argument (.arity name' expected given))
  | refused {why why' : Text → ArgumentFault} {s t : Text} (hw : S.Refusals why why')
      (h : S.text s t) : Faults (.argument (why s)) (.argument (why' t))
  | boundTo {s t : Text} (h : S.name s t) :
      Faults (.notCallable (.boundTo s)) (.notCallable (.boundTo t))
  | head : Faults (.notCallable .head) (.notCallable .head)
  | uncallable {s t : Text} (h : S.text s t) :
      Faults (.notCallable (.value s)) (.notCallable (.value t))
  | divisionByZero : Faults .divisionByZero .divisionByZero
  | exhausted : Faults .exhausted .exhausted
  | host (why : HostFault) : Faults (.host why) (.host why)

/-! ## Machines -/

/-- Streams that say the same to texts that stand for one another, unless the comparison ends where the first
    one refuses its text. -/
def Streams (output output' : Stream) : Prop :=
  ∀ s t, S.text s t → output.refusal? s = output'.refusal? t ∨
    ∃ why, output.refusal? s = some why ∧ S.escapes (.host (.unwritable why))

/-- **A machine that stands for a machine**: frames with outer frames that stand for one another, and with
    values that do under names that do, and printed lines that do, with more of them to go to streams that
    agree. The frames not made yet stand for one another in their order. -/
structure Machines (m n : Machine) : Prop where
  later : ∀ k, S.frame (m.frames.size + k) = n.frames.size + k
  outer : ∀ g, n.frames[S.frame g]?.map (·.outer) = (m.frames[g]?.map (·.outer)).map (·.map S.frame)
  bound : ∀ g, S.Bound (m.bindings g) (n.bindings (S.frame g))
  apart : ∀ g, (∀ f, S.frame f ≠ g) → n.frames[g]? = S.apart g
  printed : List.Forall₂ S.text m.printed.toList n.printed.toList
  streams : S.Streams m.output n.output

/-- What the first machine has printed is the start of what the second one has. -/
def Behind (m n : Machine) : Prop :=
  ∃ lines, lines <+: n.printed.toList ∧ List.Forall₂ S.text m.printed.toList lines

/-! ## Outcomes -/

/-- **Outcomes that go together**: results that do, or faults that do, unless the comparison has ended. -/
inductive Ends {α : Type} (good : α → α → Prop) : Except Fault α → Except Fault α → Prop
  | ok {a b : α} (h : good a b) : Ends good (.ok a) (.ok b)
  | error {fault fault' : Fault} (h : S.Faults fault fault') : Ends good (.error fault) (.error fault')
  | escape {fault : Fault} (h : S.escapes fault) (outcome : Except Fault α) :
      Ends good (.error fault) outcome

/-- Nestings that go together: the same, or more room where running out of it ends the comparison. -/
def Depths (d d' : Nat) : Prop := d = d' ∨ S.escapes (.host .tooDeep) ∧ d ≤ d'

theorem Depths.of_succ {S : Simulation} {d d' : Nat} (h : S.Depths (d + 1) d') :
    ∃ k, d' = k + 1 ∧ S.Depths d k := by
  rcases h with rfl | ⟨he, hle⟩
  · exact ⟨d, rfl, .inl rfl⟩
  · obtain ⟨k, rfl⟩ := Nat.exists_eq_add_of_le hle
    exact ⟨d + k, Nat.add_right_comm d 1 k, .inr ⟨he, Nat.le_add_right d k⟩⟩

/-- Where running out of room does not end the comparison, there is the same room on both sides. -/
theorem Depths.eq {S : Simulation} {d d' : Nat} (h : S.Depths d d') (hdeep : ¬ S.escapes (.host .tooDeep)) :
    d = d' :=
  h.resolve_right fun ⟨he, _⟩ => hdeep he

/-- Everything stands for itself. -/
structure Reflexive : Prop where
  name (s : Text) : S.name s s
  policy (strict : Bool) : S.policy strict strict
  label (name : Option Text) : S.label name name
  text {s t : Text} : S.text s t ↔ s = t
  frame (f : FrameId) : S.frame f = f

/-- **What a simulation has to obey.** Names stand for one another one to one; so do frames, and in their
    order, which is that of their age; a policy stands for another one only if the comparison ends where
    the stricter one refuses a call; and values that stand for one another are written alike. Where the
    comparison can end, everything stands for itself, because the second run then goes on alone; and it does
    not matter whether the fault at which it ends has passed the stack guard. -/
structure Lawful : Prop where
  name_iff {s s' t t' : Text} : S.name s t → S.name s' t' → (s = s' ↔ t = t')
  frame : StrictMono S.frame
  policy {strict strict' : Bool} : S.policy strict strict' → strict = strict' ∨
    strict = true ∧ ∀ name expected given, S.escapes (.argument (.arity name expected given))
  unnamed : S.label none none
  named {s t : Text} : S.name s t → S.label (some s) (some t)
  written {v w : Value} {d d' : Nat} : S.Values v w → S.Depths d d' →
    S.Ends S.text (v.written d) (w.written d')
  inspected {v w : Value} {d d' : Nat} : S.Values v w → S.Depths d d' →
    S.Ends S.text (v.inspected d) (w.inspected d')
  joined {texts texts' : List Text} : List.Forall₂ S.text texts texts' →
    S.text (Text.intercalate " " texts) (Text.intercalate " " texts')
  reflexive {fault : Fault} : S.escapes fault → S.Reflexive
  guarded {fault : Fault} : S.escapes fault → S.escapes fault.guarded

/-! ## Everything stands for itself -/

/-- A special form stands for itself if its policy does. -/
theorem Forms.refl {S : Simulation} (hp : ∀ strict, S.policy strict strict) (form : SpecialForm) :
    S.Forms form form := by
  cases form with
  | conjunction => exact .conjunction
  | disjunction => exact .disjunction
  | defvar => exact .defvar
  | setq => exact .setq
  | defun strict => exact .defun (hp strict)
  | lambda strict => exact .lambda (hp strict)
  | choice => exact .choice
  | cond => exact .cond

namespace Reflexive

variable {S}

theorem closure (h : S.Reflexive) {formals formals' body body' : List Value}
    (hf : List.Forall₂ S.Values formals formals') (hb : List.Forall₂ S.Values body body')
    (scope : FrameId) (strict : Bool) (name : Option Text) :
    S.Values (.closure formals body scope strict name) (.closure formals' body' scope strict name) := by
  have hclosure := Values.closure hf hb scope (h.policy strict) (h.label name)
  rwa [h.frame] at hclosure

theorem values (h : S.Reflexive) : (v : Value) → S.Values v v
  | .number x => .number x
  | .text s => .text s
  | .truth b => .truth b
  | .symbol name => .symbol (h.name name)
  | .list items => .list (List.forall₂_same.2 fun x _ => h.values x)
  | .primitive p => .primitive p
  | .special form => .special (.refl h.policy form)
  | .closure formals body scope strict name =>
    h.closure (List.forall₂_same.2 fun x _ => h.values x)
      (List.forall₂_same.2 fun x _ => h.values x) scope strict name
  | .embedded e => .embedded e

theorem all (h : S.Reflexive) (vs : List Value) : List.Forall₂ S.Values vs vs :=
  List.forall₂_same.2 fun v _ => h.values v

end Reflexive

namespace Lawful

variable {S}

/-- A name that stands for itself stands for no other. -/
theorem name_eq (h : S.Lawful) {s t : Text} (hs : S.name s s) (hst : S.name s t) : s = t :=
  (h.name_iff hs hst).1 rfl

theorem name_beq (h : S.Lawful) {s s' t t' : Text} (hst : S.name s t) (hst' : S.name s' t') :
    (s == s') = (t == t') := by
  rw [Bool.eq_iff_iff, beq_iff_eq, beq_iff_eq]
  exact h.name_iff hst hst'

theorem bound_refl (h : S.Lawful) (hr : S.Reflexive) (bindings : Bindings) :
    S.Bound bindings bindings := by
  intro s t hst
  obtain rfl := h.name_eq (hr.name s) hst
  cases bindings.lookup s with
  | none => exact .none
  | some v => exact .some (hr.values v)

theorem bound_put (h : S.Lawful) {s t : Text} {v w : Value} {bindings bindings' : Bindings}
    (hst : S.name s t) (hv : S.Values v w) (hb : S.Bound bindings bindings') :
    S.Bound (Table.put s v bindings) (Table.put t w bindings') := by
  intro a b hab
  rw [Table.lookup_put, Table.lookup_put, h.name_beq hab hst]
  split
  · exact .some hv
  · exact hb a b hab

end Lawful

/-! ## Values -/

section

variable {S}

theorem Values.truthy_eq {v w : Value} (h : S.Values v w) : v.isTruthy = w.isTruthy := by
  cases h <;> rfl

theorem Values.getLastD {vs ws : List Value} (h : List.Forall₂ S.Values vs ws) {v w : Value}
    (hv : S.Values v w) : S.Values (vs.getLastD v) (ws.getLastD w) := by
  induction h generalizing v w with
  | nil => exact hv
  | cons hx _ ih =>
    rw [List.getLastD_cons, List.getLastD_cons]
    exact ih hx

/-! ## Values under the same names

Where a name stands for itself alone, values that stand for one another are written the same: neither the
policy of a closure shows nor what it is called. -/

theorem Forms.name_eq {form form' : SpecialForm} (h : S.Forms form form') : form.name = form'.name := by
  cases h <;> rfl

/-- Special forms that hold the same policy are the same. -/
theorem Forms.eq_of_policy (hp : ∀ {strict strict'}, S.policy strict strict' → strict = strict')
    {form form' : SpecialForm} (h : S.Forms form form') : form = form' := by
  cases h with
  | defun h => rw [hp h]
  | lambda h => rw [hp h]
  | _ => rfl

/-- **Faults that stand for one another are of one kind.** -/
theorem Faults.kind_eq {fault fault' : Fault} (h : S.Faults fault fault') : fault.kind = fault'.kind := by
  cases h with
  | refused hw => cases hw <;> rfl
  | _ => rfl

/-- What is the same for related members is the same for the lists that hold them. -/
theorem mapM_eq_of_forall₂ {α β ε : Type} {related : α → α → Prop} {g : α → Except ε β}
    {xs ys : List α} (h : List.Forall₂ related xs ys) (hg : ∀ x y, related x y → g x = g y) :
    xs.mapM g = ys.mapM g := by
  induction h with
  | nil => rfl
  | cons hxy _ ih => rw [List.mapM_cons, List.mapM_cons, hg _ _ hxy, ih]

theorem Values.render_eq (hname : ∀ s t, S.name s t → s = t) {v w : Value} (h : S.Values v w)
    (d : Nat) : v.render d = w.render d := by
  -- on the limit: a closure is written as the two lists that it is made of
  induction d generalizing v w with
  | zero => rfl
  | succ d ih =>
    cases h with
    | symbol hst => rw [hname _ _ hst]
    | list hitems =>
      simp only [Value.render]
      rw [mapM_eq_of_forall₂ hitems fun _ _ => ih]
    | special hform =>
      simp only [Value.render]
      rw [hform.name_eq]
    | closure hf hb =>
      simp only [Value.render]
      rw [ih (.list hf), ih (.list hb)]
    | _ => rfl

theorem Values.inspect_eq (hname : ∀ s t, S.name s t → s = t) {v w : Value} (h : S.Values v w)
    (d : Nat) : v.inspect d = w.inspect d := by
  induction d generalizing v w with
  | zero => rfl
  | succ d ih =>
    have hrender := h.render_eq hname (d + 1)
    cases h with
    | symbol hst => rw [hname _ _ hst]
    | list hitems =>
      simp only [Value.inspect]
      rw [mapM_eq_of_forall₂ hitems fun _ _ => ih]
    | special | closure => exact hrender
    | _ => rfl

/-- What is written the same ends the same. -/
theorem ends_mapError (htext : ∀ s, S.text s s) (outcome : Except HostFault Text) :
    S.Ends S.text (outcome.mapError .host) (outcome.mapError .host) := by
  cases outcome with
  | ok text => exact .ok (htext text)
  | error why => exact .error (.host why)

theorem Values.ends_written (hname : ∀ s t, S.name s t → s = t) (htext : ∀ s, S.text s s)
    (hdeep : ¬ S.escapes (.host .tooDeep)) {v w : Value} (h : S.Values v w) {d d' : Nat}
    (hd : S.Depths d d') : S.Ends S.text (v.written d) (w.written d') := by
  obtain rfl := hd.eq hdeep
  unfold Value.written
  rw [h.render_eq hname]
  exact ends_mapError htext _

theorem Values.ends_inspected (hname : ∀ s t, S.name s t → s = t) (htext : ∀ s, S.text s s)
    (hdeep : ¬ S.escapes (.host .tooDeep)) {v w : Value} (h : S.Values v w) {d d' : Nat}
    (hd : S.Depths d d') : S.Ends S.text (v.inspected d) (w.inspected d') := by
  obtain rfl := hd.eq hdeep
  unfold Value.inspected
  rw [h.inspect_eq hname]
  exact ends_mapError htext _

/-- Texts that are the same one by one are the same when they are joined. -/
theorem text_joined (htext : ∀ s t, S.text s t ↔ s = t) {texts texts' : List Text}
    (h : List.Forall₂ S.text texts texts') :
    S.text (Text.intercalate " " texts) (Text.intercalate " " texts') := by
  have hsame : texts = texts' := List.forall₂_eq_eq_eq ▸ h.imp fun s t => (htext s t).1
  rw [htext, hsame]

end

/-! ## Machines -/

namespace Machines

variable {S} {m n : Machine} {s t : Text} {v w : Value}

/-- What stands for a frame that is there, or is not, is there too, or is not. -/
theorem frame_lt_iff (hS : S.Lawful) (h : S.Machines m n) {f : FrameId} :
    S.frame f < n.frames.size ↔ f < m.frames.size := by
  have hlater := h.later 0
  rw [Nat.add_zero, Nat.add_zero] at hlater
  rw [← hlater]
  exact hS.frame.lt_iff_lt

theorem frame_size (h : S.Machines m n) : S.frame m.frames.size = n.frames.size := h.later 0

/-- The chain of a frame stands for the chain of the other, frame by frame. -/
theorem chain_eq (hS : S.Lawful) (h : S.Machines m n) (f : FrameId) :
    n.chain (S.frame f) = (m.chain f).map S.frame := by
  induction f using Nat.strongRecOn with
  | _ f ih =>
    have houter := h.outer f
    rw [Machine.chain, Machine.chain]
    cases hm : m.frames[f]? with
    | none =>
      rw [hm, Option.map_none, Option.map_none, Option.map_eq_none_iff] at houter
      rw [houter]
      rfl
    | some frame =>
      rw [hm, Option.map_some, Option.map_some] at houter
      obtain ⟨frame', hn, heq⟩ := Option.map_eq_some_iff.1 houter
      rw [hn]
      dsimp only
      rw [heq]
      cases hi : frame.outer with
      | none => rfl
      | some i =>
        simp only [Option.map_some, hS.frame.lt_iff_lt]
        split
        · rename_i hlt
          rw [ih i hlt, List.map_cons]
        · rfl

theorem outer? (h : S.Machines m n) (g : FrameId) :
    n.outer? (S.frame g) = (m.outer? g).map S.frame := by
  have houter := h.outer g
  unfold Machine.outer?
  cases hm : m.frames[g]? <;> cases hn : n.frames[S.frame g]? <;> simp_all

theorem local? (h : S.Machines m n) (hst : S.name s t) (g : FrameId) :
    Option.Rel S.Values (m.local? s g) (n.local? t (S.frame g)) := by
  rw [Machine.local?_eq_lookup, Machine.local?_eq_lookup]
  exact h.bound g s t hst

theorem find?_eq (hS : S.Lawful) (h : S.Machines m n) (hst : S.name s t) (f : FrameId) :
    n.find? t (S.frame f) = (m.find? s f).map S.frame := by
  have hbinds (g : FrameId) : (n.local? t (S.frame g)).isSome = (m.local? s g).isSome := by
    have hrel := h.local? hst g
    generalize m.local? s g = here, n.local? t (S.frame g) = there at hrel ⊢
    cases hrel <;> rfl
  unfold Machine.find?
  rw [h.chain_eq hS f, List.find?_map]
  simp only [Function.comp_def, hbinds]

theorem lookup? (hS : S.Lawful) (h : S.Machines m n) (hst : S.name s t) (f : FrameId) :
    Option.Rel S.Values (m.lookup? s f) (n.lookup? t (S.frame f)) := by
  unfold Machine.lookup?
  rw [h.find?_eq hS hst f]
  cases m.find? s f with
  | none => exact .none
  | some g => exact h.local? hst g

theorem define (hS : S.Lawful) (h : S.Machines m n) (hst : S.name s t) (hv : S.Values v w)
    (f : FrameId) : S.Machines (m.define s v f) (n.define t w (S.frame f)) := by
  refine ⟨?_, ?_, ?_, ?_, h.printed, h.streams⟩
  · intro k
    rw [Machine.size_define, Machine.size_define, h.later]
  · intro g
    rw [Machine.outer_define, h.outer, Machine.outer_define]
  · intro g
    by_cases hg : g = f
    · subst hg
      by_cases hlt : g < m.frames.size
      · rw [Machine.bindings_define_self hlt,
          Machine.bindings_define_self ((h.frame_lt_iff hS).2 hlt)]
        exact hS.bound_put hst hv (h.bound g)
      · -- there is no such frame on either side
        have hlt' := (h.frame_lt_iff hS).not.2 hlt
        have hle : (m.define s v g).frames.size ≤ g := by simpa using hlt
        have hle' : (n.define t w (S.frame g)).frames.size ≤ S.frame g := by simpa using hlt'
        rw [Machine.bindings_of_size_le hle, Machine.bindings_of_size_le hle']
        exact fun _ _ _ => .none
    · rw [Machine.bindings_define_ne hg, Machine.bindings_define_ne (hS.frame.injective.ne hg)]
      exact h.bound g
  · intro g hg
    rw [← h.apart g hg]
    simp [Machine.define, Array.getElem?_modify, hg f]

theorem print (h : S.Machines m n) {line line' : Text} (ht : S.text line line') :
    S.Machines (m.print line) (n.print line') := by
  refine ⟨h.later, h.outer, h.bound, h.apart, ?_, h.streams⟩
  simp only [Machine.print, Array.toList_push]
  exact List.rel_append h.printed (.cons ht .nil)

theorem allocate (hS : S.Lawful) (h : S.Machines m n) {bindings bindings' : Bindings}
    (hb : S.Bound bindings bindings') (outer : Option FrameId) :
    S.Machines (m.allocate bindings outer).2 (n.allocate bindings' (outer.map S.frame)).2 := by
  have hsize := h.frame_size
  refine ⟨?_, ?_, ?_, ?_, h.printed, h.streams⟩
  · intro k
    rw [Machine.size_allocate, Machine.size_allocate, Nat.add_assoc, Nat.add_assoc, h.later]
  · intro g
    have hnew : S.frame g = n.frames.size ↔ g = m.frames.size := by
      rw [← hsize]
      exact hS.frame.injective.eq_iff
    simp only [Machine.allocate, Array.getElem?_push, hnew]
    split
    · rfl
    · exact h.outer g
  · intro g
    rcases Nat.lt_trichotomy g m.frames.size with hg | rfl | hg
    · rw [Machine.bindings_allocate hg, Machine.bindings_allocate ((h.frame_lt_iff hS).2 hg)]
      exact h.bound g
    · rw [hsize, Machine.bindings_allocate_self, Machine.bindings_allocate_self]
      exact hb
    · have hle : (m.allocate bindings outer).2.frames.size ≤ g := by
        rw [Machine.size_allocate]
        exact hg
      have hle' : (n.allocate bindings' (outer.map S.frame)).2.frames.size ≤ S.frame g := by
        rw [Machine.size_allocate, ← hsize]
        exact hS.frame hg
      rw [Machine.bindings_of_size_le hle, Machine.bindings_of_size_le hle']
      exact fun _ _ _ => .none
  · intro g hg
    have hne : g ≠ n.frames.size := fun e => hg m.frames.size (hsize.trans e.symm)
    rw [← h.apart g hg]
    simp [Machine.allocate, Array.getElem?_push, hne]

/-- Where everything stands for itself, so does a machine. -/
theorem refl (hS : S.Lawful) (hr : S.Reflexive) (m : Machine) : S.Machines m m := by
  have hid : S.frame = id := funext hr.frame
  refine ⟨?_, ?_, ?_, ?_, ?_, ?_⟩
  · intro k
    rw [hr.frame]
  · intro g
    rw [hid]
    simp only [id_eq, Option.map_id_fun, Option.map_id_fun']
  · intro g
    rw [hr.frame]
    exact hS.bound_refl hr _
  · intro g hg
    exact absurd (hr.frame g) (hg g)
  · exact List.forall₂_same.2 fun line _ => hr.text.2 rfl
  · intro s t hst
    rw [hr.text.1 hst]
    exact .inl rfl

theorem behind (h : S.Machines m n) : S.Behind m n :=
  ⟨n.printed.toList, List.prefix_refl _, h.printed⟩

end Machines

theorem Behind.mono {S : Simulation} {m n k : Machine} (h : S.Behind m n)
    (hk : n.printed.toList <+: k.printed.toList) : S.Behind m k := by
  obtain ⟨lines, hlines, hrelated⟩ := h
  exact ⟨lines, hlines.trans hk, hrelated⟩

end Simulation

end SmallLisp
