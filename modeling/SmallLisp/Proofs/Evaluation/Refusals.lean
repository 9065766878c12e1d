import SmallLisp.Proofs.Evaluation.Exact

/-!
# `Proofs.Evaluation.Refusals` — a stream refuses lines and decides nothing else

What is printed cannot be read back, so an evaluation finds out about its output stream only when the stream
refuses a line, and then it ends. The simulation `unrefused` compares a run on any stream with the run on a
stream of texts: everything stands for itself, and only a refused line ends the comparison. Up to there the
two runs are the same (`eval_on_texts`).
-/

namespace SmallLisp

namespace Stream

/-- The fault of a line that the stream refuses. -/
def Refusal (output : Stream) (fault : Fault) : Prop :=
  ∃ why line, fault = .host (.unwritable why) ∧ output.refusal? line = some why

/-- An evaluation ends because the stream refuses a line. -/
def Stops (output : Stream) (outcome : Except Fault Value) : Prop :=
  ∃ fault, outcome = .error fault ∧ output.Refusal fault

theorem TakesAll.not_stops {output : Stream} (h : output.TakesAll) (outcome : Except Fault Value) :
    ¬ output.Stops outcome := by
  rintro ⟨_, _, why, line, _, hline⟩
  rw [h] at hline
  cases hline

end Stream

/-- The machine with a stream of texts to print on. -/
def Machine.onTexts (m : Machine) : Machine := { m with output := .texts }

namespace Simulation

/-- **A run on a stream of texts stands for a run on any stream.** Everything stands for itself, and the
    comparison ends where the first stream refuses a line. -/
def unrefused (output : Stream) : Simulation where
  name := Eq
  policy := Eq
  label := Eq
  text := Eq
  frame := id
  apart _ := none
  escapes := output.Refusal

variable {output : Stream}

theorem unrefused_exact : (unrefused output).Exact := ⟨⟨⟨id, id⟩, id⟩, id⟩

theorem unrefused_reflexive : (unrefused output).Reflexive :=
  ⟨fun _ => rfl, fun _ => rfl, fun _ => rfl, Iff.rfl, fun _ => rfl⟩

theorem unrefused_not_tooDeep : ¬ (unrefused output).escapes (.host .tooDeep) := by
  rintro ⟨why, line, h, _⟩
  cases h

theorem unrefused_lawful : (unrefused output).Lawful where
  name_iff := by
    rintro s s' t t' rfl rfl
    rfl
  frame := strictMono_id
  policy := .inl
  unnamed := rfl
  named := congrArg some
  written hv := hv.ends_written (fun _ _ => id) (fun _ => rfl) unrefused_not_tooDeep
  inspected hv := hv.ends_inspected (fun _ _ => id) (fun _ => rfl) unrefused_not_tooDeep
  joined := text_joined fun _ _ => Iff.rfl
  reflexive _ := unrefused_reflexive
  guarded := by
    rintro _ ⟨why, line, rfl, hline⟩
    exact ⟨why, line, rfl, hline⟩

/-- A machine on a stream of texts stands for the machine. -/
theorem unrefused_machines (m : Machine) : (unrefused m.output).Machines m m.onTexts := by
  have hself : (unrefused m.output).Machines m m := .refl unrefused_lawful unrefused_reflexive m
  refine ⟨hself.later, hself.outer, hself.bound, hself.apart, hself.printed, ?_⟩
  rintro s _ rfl
  cases hs : m.output.refusal? s with
  | none => exact .inl rfl
  | some why => exact .inr ⟨why, rfl, why, s, rfl, hs⟩

end Simulation

/-- **A stream refuses lines and decides nothing else.** Whatever a machine prints on, an evaluation ends
    because the stream refuses a line, or it ends as it does on a stream of texts, in the same state. -/
theorem eval_on_texts (limit : Nat) (f : FrameId) (e : Value) (m : Machine) :
    ((eval limit f e).on m.onTexts).1 = ((eval limit f e).on m).1 ∧
        ((eval limit f e).on m).2.Same ((eval limit f e).on m.onTexts).2 ∨
      m.output.Stops ((eval limit f e).on m).1 := by
  have hlawful : (Simulation.unrefused m.output).Lawful := Simulation.unrefused_lawful
  have hself : (Simulation.unrefused m.output).Values e e := Simulation.unrefused_reflexive.values e
  have hdepths : (Simulation.unrefused m.output).Depths limit limit := .inl rfl
  have hagree := (hlawful.parallel_eval hdepths f hself).agree (Simulation.unrefused_machines m)
  exact Simulation.unrefused_exact.agree_cases Simulation.unrefused_reflexive
    (Simulation.unrefused_exact.values_eq fun _ => rfl) hagree

end SmallLisp
