import SmallLisp.Evaluation

/-!
# `Proofs.Evaluation.Provenance` — where the faults of an evaluation come from

`Fault.Arises ok output` lists the faults that can come up when every value at hand satisfies `ok`, and says
out of which value each of them comes: a fault that names something names a symbol at hand, a refusal shows a
value at hand, only an embedded integer at hand can be too large, and the line that the stream `output`
refuses is one of the texts of values at hand. `Settles` says of an outcome that it is either a good result or
such a fault. The pure steps of an evaluation settle: the primitives, the binding of arguments and the checks
of the special forms.
-/

namespace SmallLisp

/-- The refusals that show the value which they refuse. -/
inductive ArgumentFault.Shows : (Text → ArgumentFault) → Prop
  | notNumeric (p : Primitive) : Shows (.notNumeric p)
  | notList (p : Primitive) : Shows (.notList p)
  | target (form : SpecialForm) : Shows (.target form)
  | parameterList (form : SpecialForm) : Shows (.parameterList form)
  | clauseNotList : Shows .clauseNotList
  | parameter : Shows .parameter

/-- The name of a closure, if it has one, is that of a symbol at hand. -/
def NameAmong (ok : Value → Prop) (name : Option Text) : Prop :=
  ∀ s, name = some s → ok (.symbol s)

/-- The stream refuses the line that values which satisfy `ok` make in writing. -/
def Stream.Refuses (output : Stream) (ok : Value → Prop) (why : String) : Prop :=
  ∃ (args : List Value) (depth : Nat) (texts : List Text), (∀ v ∈ args, ok v) ∧
    args.mapM (Value.written depth) = .ok texts ∧
    output.refusal? (Text.intercalate " " texts) = some why

/-- **Provenance.** The faults that can come up when every value at hand satisfies `ok`. -/
inductive Fault.Arises (ok : Value → Prop) (output : Stream) : Fault → Prop
  | tooDeep : Arises ok output (.host .tooDeep)
  | exhausted : Arises ok output .exhausted
  | divisionByZero : Arises ok output .divisionByZero
  | head : Arises ok output (.notCallable .head)
  | tooFew (p : Primitive) (least : Nat) : Arises ok output (.argument (.tooFew p least))
  | exactly (p : Primitive) (count : Nat) : Arises ok output (.argument (.exactly p count))
  | consTail : Arises ok output (.argument .consTail)
  | operandCount (form : SpecialForm) : Arises ok output (.argument (.operandCount form))
  | clauseEmpty : Arises ok output (.argument .clauseEmpty)
  | arity {name : Option Text} (expected given : Nat) (h : NameAmong ok name) :
      Arises ok output (.argument (.arity name expected given))
  | unbound {name : Text} (h : ok (.symbol name)) : Arises ok output (.unbound name)
  | unassignable {name : Text} (h : ok (.symbol name)) : Arises ok output (.unassignable name)
  | boundTo {name : Text} (h : ok (.symbol name)) : Arises ok output (.notCallable (.boundTo name))
  | uncallable {v : Value} {depth : Nat} {text : Text} (h : ok v)
      (hs : v.inspected depth = .ok text) : Arises ok output (.notCallable (.value text))
  | refused {why : Text → ArgumentFault} {v : Value} {depth : Nat} {text : Text}
      (hw : ArgumentFault.Shows why) (h : ok v)
      (hs : v.written depth = .ok text ∨ v.inspected depth = .ok text) :
      Arises ok output (.argument (why text))
  | unwritten {v : Value} {depth : Nat} {fault : Fault} (h : ok v)
      (hs : v.written depth = .error fault ∨ v.inspected depth = .error fault) : Arises ok output fault
  | integer {n : Int} (h : ok (.embedded (.int n))) : Arises ok output (.host .integerTooLarge)
  | unwritable {why : String} (h : output.Refuses ok why) : Arises ok output (.host (.unwritable why))

/-- An outcome is a good result, or a fault that arises out of what is at hand. -/
def Settles {α : Type} (ok : Value → Prop) (output : Stream) (good : α → Prop) : Except Fault α → Prop
  | .ok a => good a
  | .error fault => fault.Arises ok output

section

variable {α β : Type} {ok ok' : Value → Prop} {output : Stream} {good good' : α → Prop}

/-- With more values at hand, more lines can be refused. -/
theorem Stream.Refuses.mono (h : ∀ v, ok v → ok' v) {why : String} (hr : output.Refuses ok why) :
    output.Refuses ok' why := by
  obtain ⟨args, depth, texts, hargs, hs, hr⟩ := hr
  exact ⟨args, depth, texts, fun v hv => h v (hargs v hv), hs, hr⟩

/-- With more values at hand, more faults can come up. -/
theorem Fault.Arises.mono (h : ∀ v, ok v → ok' v) {fault : Fault} (hf : fault.Arises ok output) :
    fault.Arises ok' output := by
  cases hf with
  | tooDeep => exact .tooDeep
  | exhausted => exact .exhausted
  | divisionByZero => exact .divisionByZero
  | head => exact .head
  | tooFew p least => exact .tooFew p least
  | exactly p count => exact .exactly p count
  | consTail => exact .consTail
  | operandCount form => exact .operandCount form
  | clauseEmpty => exact .clauseEmpty
  | arity expected given hn => exact .arity expected given fun s hs => h _ (hn s hs)
  | unbound hv => exact .unbound (h _ hv)
  | unassignable hv => exact .unassignable (h _ hv)
  | boundTo hv => exact .boundTo (h _ hv)
  | uncallable hv hs => exact .uncallable (h _ hv) hs
  | refused hw hv hs => exact .refused hw (h _ hv) hs
  | unwritten hv hs => exact .unwritten (h _ hv) hs
  | integer hv => exact .integer (h _ hv)
  | unwritable hr => exact .unwritable (hr.mono h)

theorem Fault.Arises.guarded {fault : Fault} (h : fault.Arises ok output) :
    fault.guarded.Arises ok output := by
  cases fault with
  | host why =>
    cases why with
    | tooDeep => exact .exhausted
    | _ => exact h
  | _ => exact h

/-! ## Outcomes one after the other -/

theorem Settles.guarded {outcome : Except Fault α} (h : Settles ok output good outcome) :
    Settles ok output good (outcome.mapError Fault.guarded) := by
  cases outcome with
  | ok a => exact h
  | error fault => exact Fault.Arises.guarded h

theorem Settles.mono {outcome : Except Fault α} (h : Settles ok output good outcome)
    (hg : ∀ a, good a → good' a) : Settles ok output good' outcome := by
  cases outcome with
  | ok a => exact hg a h
  | error fault => exact h

theorem Settles.widen {outcome : Except Fault α} (h : Settles ok output good outcome)
    (hok : ∀ v, ok v → ok' v) : Settles ok' output good outcome := by
  cases outcome with
  | ok a => exact h
  | error fault => exact Fault.Arises.mono hok h

theorem Settles.good_of_mem {outcome : Except Fault α} (h : Settles ok output good outcome) :
    ∀ a ∈ outcome.toOption.toList, good a := by
  intro a ha
  cases outcome with
  | ok b => exact List.mem_singleton.1 ha ▸ h
  | error fault => exact absurd ha List.not_mem_nil

/-- What follows an outcome has to settle only after a good result. -/
theorem Settles.bind {outcome : Except Fault α} {next : α → Except Fault β} {goal : β → Prop}
    (h : Settles ok output good outcome) (hn : ∀ a, good a → Settles ok output goal (next a)) :
    Settles ok output goal (outcome >>= next) := by
  cases outcome with
  | ok a => exact hn a h
  | error fault => exact h

/-- A list of outcomes settles if each of them does. -/
theorem Settles.mapM {f : β → Except Fault α} {xs : List β}
    (h : ∀ x ∈ xs, Settles ok output good (f x)) :
    Settles ok output (fun ys => ∀ y ∈ ys, good y) (xs.mapM f) := by
  induction xs with
  | nil => exact fun y hy => absurd hy List.not_mem_nil
  | cons x xs ih =>
    rw [List.mapM_cons]
    refine Settles.bind (h x List.mem_cons_self) fun y hy => ?_
    refine Settles.bind (ih fun x' hx' => h x' (List.mem_cons_of_mem x hx')) fun ys hys => ?_
    intro z hz
    rcases List.mem_cons.1 hz with rfl | hz
    · exact hy
    · exact hys z hz

/-- Writing a value gives its text, or a fault that arises out of it. -/
theorem settles_written {v : Value} (h : ok v) (depth : Nat) :
    Settles ok output (fun text => v.written depth = .ok text) (v.written depth) := by
  cases hs : v.written depth with
  | ok text => exact rfl
  | error fault => exact .unwritten h (.inl hs)

theorem settles_inspected {v : Value} (h : ok v) (depth : Nat) :
    Settles ok output (fun text => v.inspected depth = .ok text) (v.inspected depth) := by
  cases hs : v.inspected depth with
  | ok text => exact rfl
  | error fault => exact .unwritten h (.inr hs)

theorem settles_writtenAll {vs : List Value} (h : ∀ v ∈ vs, ok v) (depth : Nat) :
    Settles ok output (fun texts => vs.mapM (Value.written depth) = .ok texts)
      (vs.mapM (Value.written depth)) := by
  have hall : Settles ok output (fun texts => ∀ text ∈ texts, True) (vs.mapM (Value.written depth)) :=
    Settles.mapM fun v hv => (settles_written (h v hv) depth).mono fun _ _ => trivial
  cases hs : vs.mapM (Value.written depth) with
  | ok texts => exact rfl
  | error fault => rw [hs] at hall; exact hall

/-- A refusal never has a result: it is the fault that it states, or that of writing the value. -/
theorem settles_refuse_written {why : Text → ArgumentFault} (hw : ArgumentFault.Shows why)
    {v : Value} (h : ok v) (depth : Nat) :
    Settles ok output good (ArgumentFault.refuse why (v.written depth)) :=
  (settles_written h depth).bind fun _ hs => .refused hw h (.inl hs)

theorem settles_refuse_inspected {why : Text → ArgumentFault} (hw : ArgumentFault.Shows why)
    {v : Value} (h : ok v) (depth : Nat) :
    Settles ok output good (ArgumentFault.refuse why (v.inspected depth)) :=
  (settles_inspected h depth).bind fun _ hs => .refused hw h (.inr hs)

/-! ## Primitives -/

namespace Primitive

variable {args : List Value}

theorem settles_requireNumber {v : Value} (h : ok v) (depth : Nat) (p : Primitive) :
    Settles ok output (Settles ok output fun _ => True) (requireNumber depth p v) := by
  unfold requireNumber
  cases hd : double? v with
  | none => exact settles_refuse_written (.notNumeric p) h depth
  | some x =>
    show Settles ok output (fun _ => True) x
    -- only an embedded integer can be a number without a double
    cases v with
    | number y => obtain rfl := Option.some.inj hd; trivial
    | embedded e =>
      cases e with
      | int n =>
        obtain rfl := Option.some.inj hd
        cases Decimal.ofInt? n with
        | some y => trivial
        | none => exact .integer h
      | bool b => cases hd
      | nothing => cases hd
    | _ => cases hd

theorem settles_numbers (h : ∀ v ∈ args, ok v) (depth : Nat) (p : Primitive) :
    Settles ok output (fun _ => True) (numbers depth p args) := by
  unfold numbers
  refine (Settles.mapM fun v hv => settles_requireNumber (h v hv) depth p).bind fun found hf => ?_
  exact (Settles.mapM (f := id) hf).mono fun _ _ => trivial

theorem settles_difference (p : Primitive) (xs : List Float) :
    Settles ok output (fun _ => True) (difference p xs) := by
  match xs with
  | [] => exact .tooFew p 1
  | [_] => trivial
  | _ :: _ :: _ => trivial

theorem settles_divideBy (x : Float) (xs : List Float) :
    Settles ok output (fun _ => True) (divideBy x xs) := by
  induction xs generalizing x with
  | nil => trivial
  | cons divisor rest ih =>
    unfold divideBy
    split
    · exact .divisionByZero
    · exact ih _

theorem settles_quotient (p : Primitive) (xs : List Float) :
    Settles ok output (fun _ => True) (quotient p xs) := by
  match xs with
  | [] => exact .tooFew p 1
  | [x] => exact settles_divideBy 1 [x]
  | x :: y :: rest => exact settles_divideBy x (y :: rest)

theorem settles_requireOne (h : ∀ v ∈ args, ok v) (p : Primitive) :
    Settles ok output ok (requireOne p args) := by
  match args with
  | [] => exact .exactly p 1
  | [v] => exact h v List.mem_cons_self
  | _ :: _ :: _ => exact .exactly p 1

theorem settles_requireList {v : Value} (h : ok v) (depth : Nat) (p : Primitive) :
    Settles ok output (fun items => v = .list items) (requireList depth p v) := by
  unfold requireList
  split
  · exact rfl
  · exact settles_refuse_written (.notList p) h depth

/-- **Primitives make nothing up.** The value of a primitive is a number, a truth value, or made of
    its arguments; its faults arise out of its arguments. -/
theorem settles_compute (hnumber : ∀ x, ok (.number x)) (htruth : ∀ b, ok (.truth b))
    (hlist : ∀ items, ok (.list items) ↔ ∀ v ∈ items, ok v) (h : ∀ v ∈ args, ok v) (depth : Nat)
    (p : Primitive) : Settles ok output ok (p.compute depth args) := by
  have hcompare (related : Float → Float → Bool) :
      Settles ok output ok (compare depth p related args) := by
    unfold compare
    split
    · exact .tooFew p 2
    · exact (settles_numbers h depth p).bind fun _ _ => htruth _
  cases p with
  | add => exact (settles_numbers h depth _).bind fun _ _ => hnumber _
  | mul => exact (settles_numbers h depth _).bind fun _ _ => hnumber _
  | sub =>
    exact (settles_numbers h depth _).bind fun xs _ =>
      (settles_difference _ xs).bind fun _ _ => hnumber _
  | div =>
    exact (settles_numbers h depth _).bind fun xs _ =>
      (settles_quotient _ xs).bind fun _ _ => hnumber _
  | equal => exact hcompare _
  | less => exact hcompare _
  | greater => exact hcompare _
  | list => exact (hlist args).2 h
  | car =>
    -- the first of no members is `nil`
    refine (settles_requireOne h _).bind fun v hv => (settles_requireList hv depth _).bind ?_
    rintro items rfl
    cases items with
    | nil => exact htruth false
    | cons first rest => exact (hlist _).1 hv first List.mem_cons_self
  | cdr =>
    refine (settles_requireOne h _).bind fun v hv => (settles_requireList hv depth _).bind ?_
    rintro items rfl
    exact (hlist _).2 fun v hv' => (hlist _).1 hv v (List.mem_of_mem_tail hv')
  | cons =>
    simp only [compute]
    split
    · rename_i first rest
      refine (hlist _).2 fun v hv => ?_
      rcases List.mem_cons.1 hv with rfl | hv
      · exact h v List.mem_cons_self
      · exact (hlist rest).1 (h (.list rest) (by simp)) v hv
    · exact .consTail
    · exact .exactly _ 2
  | not =>
    refine (settles_requireOne h _).bind fun v _ => ?_
    split
    · exact htruth _
    · exact htruth false
  | print =>
    -- without arguments the value is `nil`
    show ok (args.getLast?.getD .nil)
    cases hl : args.getLast? with
    | none => exact htruth false
    | some v => exact h v (List.mem_of_getLast? hl)

end Primitive

/-! ## Arguments and operands -/

/-- The values of a call's bindings are its arguments; a formal parameter is only shown. -/
theorem settles_bindFormals {held : Value → Prop} {bound : Bindings} {formals args : List Value}
    (hb : ∀ b ∈ bound, held b.2) (hf : ∀ v ∈ formals, ok v) (ha : ∀ v ∈ args, held v)
    (depth : Nat) :
    Settles ok output (fun bindings => ∀ b ∈ bindings, held b.2)
      (bindFormals depth bound formals args) := by
  fun_induction bindFormals depth bound formals args with
  | case1 bound name formals arg args ih =>
    refine ih ?_ (fun v hv => hf v (List.mem_cons_of_mem _ hv))
      (fun v hv => ha v (List.mem_cons_of_mem _ hv))
    exact Table.forall_put held (ha arg List.mem_cons_self) hb
  | case2 bound formal _ _ _ _ =>
    exact settles_refuse_inspected .parameter (hf formal List.mem_cons_self) depth
  | case3 bound _ _ _ _ => exact hb

theorem settles_bindArguments {held : Value → Prop} {name : Option Text}
    {formals args : List Value} (hn : NameAmong ok name) (hf : ∀ v ∈ formals, ok v)
    (ha : ∀ v ∈ args, held v) (depth : Nat) (strict : Bool) :
    Settles ok output (fun bindings => ∀ b ∈ bindings, held b.2)
      (bindArguments depth strict name formals args) := by
  unfold bindArguments
  split
  · exact .arity _ _ hn
  · exact settles_bindFormals (fun b hb => absurd hb List.not_mem_nil) hf ha depth

theorem settles_requireTarget {v : Value} (h : ok v) (depth : Nat) (form : SpecialForm) :
    Settles ok output (fun name => v = .symbol name) (requireTarget depth form v) := by
  unfold requireTarget
  split
  · exact rfl
  · exact settles_refuse_inspected (.target form) h depth

theorem settles_requireParameters {v : Value} (h : ok v) (depth : Nat) (form : SpecialForm) :
    Settles ok output (fun formals => v = .list formals) (requireParameters depth form v) := by
  unfold requireParameters
  split
  · exact rfl
  · exact settles_refuse_inspected (.parameterList form) h depth

end

end SmallLisp
