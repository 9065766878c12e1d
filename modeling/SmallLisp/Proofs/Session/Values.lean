import SmallLisp.Proofs.Session.Reachable

/-!
# `Proofs.Session.Values` — source texts make only values of the language

An embedding program can hand in integers, truth values of its own and `nothing`, and a closure without body
forms would return `nothing`. None of these comes out of a source text: the values of a session are *own*
everywhere (`Value.IsOwn`). Own values are always written, unless they are nested too deep, and where the host
runs out of stack, the guard of the session makes a fault of the language of it. So a source text fails with a
fault of the language (`Fault.IsOwn`), or because the output stream refuses a line of own values
(`Fault.Expected`).
-/

namespace SmallLisp

/-- A value of the language itself. A closure has at least one body form. -/
def Value.IsOwn : Value → Prop
  | .closure _ body _ _ _ => body ≠ []
  | .embedded _ => False
  | _ => True

/-- The value is no closure over a frame that is not among the first `n`. -/
def Value.CapturesBelow (n : Nat) : Value → Prop
  | .closure _ _ scope _ _ => scope < n
  | _ => True

theorem Value.CapturesBelow.mono {n k : Nat} (hnk : n ≤ k) {v : Value} (h : v.CapturesBelow n) :
    v.CapturesBelow k := by
  cases v with
  | closure => exact Nat.lt_of_lt_of_le h hnk
  | _ => trivial

namespace Value

/-! ## Writing own values -/

theorem IsOwn.notInteger {v : Value} (h : v.IsOwn) : v.NotInteger := by
  cases v with
  | embedded e => exact h.elim
  | _ => trivial

/-- **Own values are written**, unless they are nested too deep. -/
theorem render_error_tooDeep {depth : Nat} {v : Value} {why : HostFault} (hv : v.Everywhere IsOwn)
    (h : v.render depth = .error why) : why = .tooDeep :=
  tooDeep_of_render_error (hv.mono fun _ => IsOwn.notInteger) h

end Value

/-- **What source texts fail with**: a fault of the language, or the refusal of the stream to write a line of
    values at hand. -/
inductive Fault.Expected (ok : Value → Prop) (output : Stream) : Fault → Prop
  | own {fault : Fault} (h : fault.IsOwn) : Expected ok output fault
  | refused {why : String} (h : output.Refuses ok why) : Expected ok output (.host (.unwritable why))

namespace Fault

variable {ok ok' : Value → Prop} {output : Stream} {fault : Fault}

theorem Expected.mono (h : fault.Expected ok output) (hok : ∀ v, ok v → ok' v) :
    fault.Expected ok' output := by
  cases h with
  | own h => exact .own h
  | refused h => exact .refused (h.mono hok)

/-- Where no line is refused, what source texts fail with is a fault of the language. -/
theorem Expected.isOwn (h : fault.Expected ok output) (hwritten : ∀ why, ¬ output.Refuses ok why) :
    fault.IsOwn := by
  cases h with
  | own h => exact h
  | refused h => exact absurd h (hwritten _)

/-- Out of own values come only such faults, once the stack guard has passed them. -/
theorem Arises.expected {p : Value → Prop} (hp : ∀ v, p v → v.IsOwn)
    (h : fault.Arises (Value.Everywhere p) output) :
    fault.guarded.Expected (Value.Everywhere p) output := by
  cases h with
  | @unwritten v _ _ hv hs =>
    -- the fault of writing a value could be any, but the value is an own one
    have hnotInteger : v.Everywhere Value.NotInteger := hv.mono fun w hw => (hp w hw).notInteger
    have hfault : fault = .host .tooDeep := by
      rcases hs with hs | hs
      · exact Value.tooDeep_of_written_error hnotInteger hs
      · exact Value.tooDeep_of_inspected_error hnotInteger hs
    rw [hfault]
    exact .own trivial
  | integer hv =>
    -- an embedded integer is no own value
    exact (hp _ hv.self).elim
  | unwritable hr => exact .refused hr
  | _ => exact .own trivial

end Fault

theorem Stream.TakesAll.not_refuses {output : Stream} (h : output.TakesAll) (ok : Value → Prop)
    (why : String) : ¬ output.Refuses ok why := by
  rintro ⟨args, depth, texts, _, _, hr⟩
  rw [h] at hr
  cases hr

namespace Interpreter

/-- Literals are own values, and so is every closure that is made; it captures the frame at hand. -/
theorem permissive_isOwn : Permissive fun n v => v.IsOwn ∧ v.CapturesBelow n where
  mono hnk _ h := ⟨h.1, h.2.mono hnk⟩
  number _ _ := ⟨trivial, trivial⟩
  truth _ _ := ⟨trivial, trivial⟩
  list _ _ := ⟨trivial, trivial⟩
  closure hf _ := ⟨List.cons_ne_nil _ _, hf⟩
  scope h := h.2
  body h := h.1 rfl
  name _ _ _ := ⟨trivial, trivial⟩
  atom _ _ _ := Source.everywhere_ofAtom (fun _ => ⟨trivial, trivial⟩)
    (fun _ _ => ⟨trivial, trivial⟩) (fun _ => ⟨trivial, trivial⟩) fun _ => ⟨trivial, trivial⟩
  primitive _ _ := ⟨trivial, trivial⟩
  special _ _ := ⟨trivial, trivial⟩

variable {strict : Bool} {output : Stream} {i : Interpreter}

/-- The values of a session are own values, and its closures capture frames that exist. -/
theorem values_of_reachable (h : i.Reachable strict output) (f : FrameId) :
    ∀ b ∈ i.machine.bindings f, b.2.Everywhere Value.IsOwn ∧
      b.2.Everywhere (Value.CapturesBelow i.machine.frames.size) := fun b hb =>
  have hb := (holds_of_reachable permissive_isOwn h).values f b hb
  ⟨hb.mono fun _ h => h.1, hb.mono fun _ h => h.2⟩

/-- A source text ends with an own value, or fails as expected. -/
theorem evalSource_owned (h : i.Reachable strict output) (source : Text) :
    (∀ v, (i.evalSource source).1 = .ok v → v.Everywhere Value.IsOwn) ∧
      ∀ fault, (i.evalSource source).1 = .error fault →
        fault.Expected (Value.Everywhere Value.IsOwn) output := by
  obtain ⟨_, _, houtcome⟩ :=
    holds_evalSource permissive_isOwn (holds_of_reachable permissive_isOwn h) source
  rcases houtcome with ⟨why, hwhy⟩ | hsettles
  · -- the text cannot be read
    constructor
    · intro v hv
      rw [hwhy] at hv
      cases hv
    · intro fault hf
      rw [hwhy] at hf
      cases hf
      exact .own trivial
  · constructor
    · intro v hv
      rw [hv] at hsettles
      exact Value.Everywhere.mono hsettles fun _ h => h.1
    · intro fault hf
      rw [hf] at hsettles
      have hexpected := Fault.Arises.expected (fun _ h => h.1) hsettles
      rw [guarded_of_evalSource_error hf, output_of_reachable h] at hexpected
      exact hexpected.mono fun v hv => hv.mono fun _ h => h.1

/-- **How a source text ends**: with the text of its value, with the exhaustion that writing the value comes to, or
    with the fault of its evaluation. -/
theorem evalToText_cases (h : i.Reachable strict output) (source : Text) :
    (∃ v text, (i.evalSource source).1 = .ok v ∧ v.render i.limit = .ok text ∧
        (i.evalToText source).1 = .ok text) ∨
      (∃ v, (i.evalSource source).1 = .ok v ∧ v.render i.limit = .error .tooDeep ∧
        (i.evalToText source).1 = .error .exhausted) ∨
      ∃ fault, (i.evalSource source).1 = .error fault ∧ (i.evalToText source).1 = .error fault := by
  rw [evalToText_fst]
  cases hsource : (i.evalSource source).1 with
  | error fault => exact .inr (.inr ⟨fault, rfl, rfl⟩)
  | ok v =>
    rw [Except.bind, textOf, Value.written]
    cases hr : v.render i.limit with
    | ok text => exact .inl ⟨v, text, rfl, hr, rfl⟩
    | error why =>
      cases Value.render_error_tooDeep ((evalSource_owned h source).1 v hsource) hr
      exact .inr (.inl ⟨v, rfl, hr, rfl⟩)

/-- An answer is the text of a value, or reports what is expected. -/
theorem answer_owned (h : i.Reachable strict output) (source : Text) {fault : Fault}
    (hfault : (i.answer source).1.outcome = .error fault) :
    fault.Expected (Value.Everywhere Value.IsOwn) output := by
  have houtcome : (i.evalToText source).1 = .error fault := hfault
  rcases evalToText_cases h source with ⟨_, _, _, _, htext⟩ | ⟨_, _, _, hexhausted⟩ | ⟨_, hsource, hsame⟩
  · rw [htext] at houtcome
    cases houtcome
  · rw [hexhausted] at houtcome
    cases houtcome
    exact .own trivial
  · rw [hsame] at houtcome
    cases houtcome
    exact (evalSource_owned h source).2 fault hsource

end Interpreter

end SmallLisp
