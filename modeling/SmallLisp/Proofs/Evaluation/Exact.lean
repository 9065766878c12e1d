import SmallLisp.Proofs.Evaluation.Parallel

/-!
# `Proofs.Evaluation.Exact` — simulations that tell everything apart

Under many simulations names and texts stand for themselves alone (`Legible`), closure names too (`Literal`),
or everything but frames (`Exact`). The less a simulation confuses, the more is the same in two runs: the
words of a fault, the fault, a value. Where frames stand for themselves as well, two runs that are compared
to the end come to the same outcome in the same state (`Exact.agree_cases`).
-/

namespace SmallLisp

/-- **The same state**: the same frames inside one another, which bind the same names to the same values,
    and the same printed lines. -/
structure Machine.Same (m n : Machine) : Prop where
  size : n.frames.size = m.frames.size
  outer? : ∀ f, n.outer? f = m.outer? f
  local? : ∀ name f, n.local? name f = m.local? name f
  printed : n.printed = m.printed

namespace Simulation

variable {S : Simulation}

/-! ## Names and texts -/

/-- A simulation under which every name and every text stands for itself alone. -/
structure Legible (S : Simulation) : Prop where
  name {s t : Text} : S.name s t → s = t
  text {s t : Text} : S.text s t → s = t

/-- A stream says the same to a text as to the same text. -/
theorem Legible.streams (h : S.Legible) (output : Stream) : S.Streams output output := by
  intro s t hst
  rw [h.text hst]
  exact .inl rfl

/-- A simulation under which every name, closure name and text stands for itself alone. -/
structure Literal (S : Simulation) : Prop extends S.Legible where
  label {name name' : Option Text} : S.label name name' → name = name'

/-- **Only the name of a closure can tell faults apart**, and it shows only where the closure refuses a
    number of arguments. -/
theorem Legible.same_or_arity (h : S.Legible) {fault fault' : Fault} (hf : S.Faults fault fault') :
    fault.kind = fault'.kind ∧ (fault.message = fault'.message ∨
      ∃ name name' expected given, S.label name name' ∧
        fault = .argument (.arity name expected given) ∧
        fault' = .argument (.arity name' expected given)) := by
  cases hf with
  | arity hl expected given => exact ⟨rfl, .inr ⟨_, _, expected, given, hl, rfl, rfl⟩⟩
  | unbound hst => rw [h.name hst]; exact ⟨rfl, .inl rfl⟩
  | unassignable hst => rw [h.name hst]; exact ⟨rfl, .inl rfl⟩
  | boundTo hst => rw [h.name hst]; exact ⟨rfl, .inl rfl⟩
  | uncallable hst => rw [h.text hst]; exact ⟨rfl, .inl rfl⟩
  | operandCount hform => cases hform <;> exact ⟨rfl, .inl rfl⟩
  | refused hw hst =>
    rw [h.text hst]
    cases hw with
    | target hform => cases hform <;> exact ⟨rfl, .inl rfl⟩
    | parameterList hform => cases hform <;> exact ⟨rfl, .inl rfl⟩
    | _ => exact ⟨rfl, .inl rfl⟩
  | _ => exact ⟨rfl, .inl rfl⟩

theorem Literal.same_fault (h : S.Literal) {fault fault' : Fault} (hf : S.Faults fault fault') :
    fault.kind = fault'.kind ∧ fault.message = fault'.message := by
  obtain ⟨hkind, hmessage | ⟨name, name', expected, given, hl, rfl, rfl⟩⟩ := h.same_or_arity hf
  · exact ⟨hkind, hmessage⟩
  · rw [h.label hl]
    exact ⟨rfl, rfl⟩

/-- A simulation under which nothing but frames is told apart. -/
structure Exact (S : Simulation) : Prop extends S.Literal where
  policy {strict strict' : Bool} : S.policy strict strict' → strict = strict'

namespace Exact

theorem forms_eq (h : S.Exact) {form form' : SpecialForm} (hform : S.Forms form form') :
    form = form' := hform.eq_of_policy h.policy

theorem refusals_eq (h : S.Exact) {why why' : Text → ArgumentFault} (hw : S.Refusals why why') :
    why = why' := by
  cases hw with
  | target hform => rw [h.forms_eq hform]
  | parameterList hform => rw [h.forms_eq hform]
  | _ => rfl

/-- **Faults do not show frames.** -/
theorem faults_eq (h : S.Exact) {fault fault' : Fault} (hf : S.Faults fault fault') :
    fault = fault' := by
  cases hf with
  | unbound hst => rw [h.name hst]
  | unassignable hst => rw [h.name hst]
  | boundTo hst => rw [h.name hst]
  | uncallable hst => rw [h.text hst]
  | operandCount hform => rw [h.forms_eq hform]
  | arity hl => rw [h.label hl]
  | refused hw hst => rw [h.refusals_eq hw, h.text hst]
  | _ => rfl

mutual

/-- Where frames are not told apart either, only a value itself stands for it. -/
theorem values_eq (h : S.Exact) (hframe : ∀ f, S.frame f = f) :
    (v w : Value) → S.Values v w → v = w
  | .number _, _, .number _ => rfl
  | .text _, _, .text _ => rfl
  | .truth _, _, .truth _ => rfl
  | .symbol _, _, .symbol hst => congrArg Value.symbol (h.name hst)
  | .list _, _, .list hitems => congrArg Value.list (h.values_eq_all hframe _ _ hitems)
  | .primitive _, _, .primitive _ => rfl
  | .special _, _, .special hform => congrArg Value.special (h.forms_eq hform)
  | .closure _ _ _ _ _, _, .closure hf hb scope hp hl => by
    rw [h.values_eq_all hframe _ _ hf, h.values_eq_all hframe _ _ hb, hframe, h.policy hp,
      h.label hl]
  | .embedded _, _, .embedded _ => rfl

theorem values_eq_all (h : S.Exact) (hframe : ∀ f, S.frame f = f) :
    (vs ws : List Value) → List.Forall₂ S.Values vs ws → vs = ws
  | [], _, .nil => rfl
  | v :: vs, _, .cons hv hvs => by
    rw [h.values_eq hframe v _ hv, h.values_eq_all hframe vs _ hvs]

end

/-! ## The same outcome in the same state -/

/-- Where everything stands for itself alone, only the same state stands for the state of a machine. -/
theorem same (h : S.Exact) (hr : S.Reflexive) {m n : Machine} (hm : S.Machines m n) : m.Same n := by
  refine ⟨?_, ?_, ?_, ?_⟩
  · rw [← hm.frame_size, hr.frame]
  · intro f
    have houter := hm.outer? f
    have hid : S.frame = id := funext hr.frame
    rw [hid, Option.map_id_fun, id, id] at houter
    exact houter
  · intro name f
    have hrel := hm.local? (hr.name name) f
    rw [hr.frame] at hrel
    generalize m.local? name f = here, n.local? name f = there at hrel
    cases hrel with
    | some hv => rw [h.values_eq hr.frame _ _ hv]
    | none => rfl
  · have hlines : List.Forall₂ Eq m.printed.toList n.printed.toList :=
      hm.printed.imp fun _ _ => h.text
    rw [List.forall₂_eq_eq_eq] at hlines
    exact (Array.toList_inj.1 hlines).symm

/-- **Runs that are compared to the end come to the same**; the others have ended the comparison. -/
theorem agree_cases (h : S.Exact) (hr : S.Reflexive) {α : Type} {good : α → α → Prop}
    (hgood : ∀ a b, good a b → a = b) {run run' : Except Fault α × Machine}
    (hagree : S.Agree good run run') :
    run'.1 = run.1 ∧ run.2.Same run'.2 ∨ ∃ fault, run.1 = .error fault ∧ S.escapes fault := by
  cases hagree with
  | ok hab hm => exact .inl ⟨congrArg Except.ok (hgood _ _ hab).symm, h.same hr hm⟩
  | error hf hm => exact .inl ⟨congrArg Except.error (h.faults_eq hf).symm, h.same hr hm⟩
  | escape he => exact .inr ⟨_, rfl, he⟩

end Exact

end Simulation

end SmallLisp
