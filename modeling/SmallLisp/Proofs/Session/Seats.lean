import SmallLisp.Proofs.Session.Placement

/-!
# `Proofs.Session.Seats` — a session that is seated in a store

A call on a session evaluates the first expression of a source text in its global frame. Where that frame is
in a store does not matter: a session that is *seated* in a store which holds other frames too has its frames
at places of its own, answers what it answers alone, and leaves the other frames as they are
(`Seated.perform`). While others evaluate, it keeps its seat as long as its own frames stay as they are
(`Seated.stay`).
-/

namespace SmallLisp

/-! ## Calls -/

/-- What a call asks for: the first expression of a source text is evaluated, in as much room as `limit` says.
    It answers with the value or, if it is to be `written`, with its program text. -/
structure Call where
  limit : Nat
  source : Text
  written : Bool

/-- What is answered to a call. -/
inductive Answer
  | value (v : Value)
  | text (s : Text)

/-- What a call comes to: an answer or a fault. -/
abbrev Outcome := Except Fault Answer

/-- How a value is answered. -/
def Call.answer (call : Call) (v : Value) : Outcome :=
  if call.written then do
    let text ← Interpreter.textOf call.limit v
    return .text text
  else .ok (.value v)

/-- A call in a frame. -/
def Call.action (call : Call) (f : FrameId) : Action Answer := do
  let v ← Interpreter.evalIn call.limit f call.source
  Action.ofExcept (call.answer v)

theorem Call.answer_text (call : Call) (hw : call.written = true) (v : Value) :
    call.answer v = (Interpreter.textOf call.limit v).map .text := by
  rw [Call.answer, if_pos hw]
  cases Interpreter.textOf call.limit v <;> rfl

theorem Call.answer_value (call : Call) (hw : ¬ call.written = true) (v : Value) :
    call.answer v = .ok (.value v) := if_neg hw

/-- Nothing happens to the machine after the evaluation. -/
theorem Call.on_action (call : Call) (f : FrameId) (m : Machine) :
    (call.action f).on m = (((Interpreter.evalIn call.limit f call.source).on m).1.bind call.answer,
      ((Interpreter.evalIn call.limit f call.source).on m).2) := by
  rw [Call.action, Action.on_bind]
  cases (Interpreter.evalIn call.limit f call.source).on m with
  | mk outcome n => cases outcome <;> simp [Except.bind]

/-- A call prints on the stream that is there. -/
theorem Call.output_on_action (call : Call) (f : FrameId) (m : Machine) :
    ((call.action f).on m).2.output = m.output := by
  rw [Call.on_action, Interpreter.evalIn, Action.on_guarded, Action.on_bind, Action.on_ofExcept]
  cases Source.read call.limit call.source with
  | ok e =>
    exact (Discipline.growth_lawful.keeps_eval call.limit (f := f) (e := e) (m := m) trivial trivial
      trivial).change.output_eq
  | error why => rfl

namespace Interpreter

/-- A call on an interpreter. -/
def perform (i : Interpreter) (call : Call) : Outcome × Interpreter :=
  if call.written then
    let done := evalToText { i with limit := call.limit } call.source
    (done.1.map .text, done.2)
  else
    let done := evalSource { i with limit := call.limit } call.source
    (done.1.map .value, done.2)

/-- Calls on an interpreter, one after the other. -/
def performAll (i : Interpreter) : List Call → List Outcome × Interpreter
  | [] => ([], i)
  | call :: rest =>
    let (outcome, i) := i.perform call
    let (outcomes, i) := i.performAll rest
    (outcome :: outcomes, i)

end Interpreter

/-! ## Outcomes at other places -/

namespace Simulation

variable (S : Simulation)

/-- Answers that stand for one another: the same text, or values that do. -/
inductive Answers : Answer → Answer → Prop
  | value {v w : Value} (h : S.Values v w) : Answers (.value v) (.value w)
  | text (s : Text) : Answers (.text s) (.text s)

/-- **Outcomes that stand for one another**: answers that do, or the same fault. -/
inductive Outcomes : Outcome → Outcome → Prop
  | answer {a b : Answer} (h : S.Answers a b) : Outcomes (.ok a) (.ok b)
  | fault (fault : Fault) : Outcomes (.error fault) (.error fault)

end Simulation

/-- The closures of an outcome capture frames among the first `n`. -/
def Outcome.CapturesBelow (n : Nat) : Outcome → Prop
  | .ok (.value v) => v.Everywhere (Value.CapturesBelow n)
  | _ => True

variable {place place' : FrameId → FrameId} {store store' : Array Frame}

theorem Simulation.Outcomes.move {n : Nat} {outcome outcome' : Outcome}
    (h : (placement place store).Outcomes outcome outcome') (hplace : ∀ g < n, place' g = place g)
    (hbelow : outcome.CapturesBelow n) : (placement place' store').Outcomes outcome outcome' := by
  cases h with
  | fault fault => exact .fault fault
  | answer h =>
    cases h with
    | text s => exact .answer (.text s)
    | value hv => exact .answer (.value (Values.move hplace _ _ hv hbelow))

/-- What is shown for an outcome: the program text of a value, in as much room as `limit` says. -/
def Outcome.shown (limit : Nat) : Outcome → Except Fault Text
  | .ok (.value v) => v.written limit
  | .ok (.text s) => .ok s
  | .error fault => .error fault

/-- **Places are not shown.** -/
theorem Simulation.Outcomes.shown_eq {outcome outcome' : Outcome}
    (h : (placement place store).Outcomes outcome outcome') (limit : Nat) :
    outcome.shown limit = outcome'.shown limit := by
  cases h with
  | fault fault => rfl
  | answer h =>
    cases h with
    | text s => rfl
    | value hv => exact congrArg (Except.mapError _) (hv.render_eq (fun _ _ => id) limit)

/-- Calls in frames that stand for one another are side by side. -/
theorem Call.parallel_action (hplace : StrictMono place) (store : Array Frame) (call : Call) (f : FrameId) :
    let S := Simulation.placement place store
    S.Parallel S.Answers (call.action f) (call.action (place f)) := by
  intro S
  have hlawful : S.Lawful := Simulation.placement_lawful hplace
  have hanswers : S.Reflexive → ∀ v : Value, S.Values v v := fun hr => hr.values
  refine hlawful.parallel_bind
    (hlawful.parallel_evalIn (.inl rfl) (Simulation.placement_reads call.limit call.source) f) hanswers ?_
  intro v w hv
  apply Simulation.Ends.parallel
  unfold Call.answer
  split
  · refine ((hlawful.written hv (.inl rfl)).guarded hlawful).bind ?_
    rintro s _ rfl
    exact .ok (.text s)
  · exact .ok (.value hv)

/-! ## One interpreter -/

namespace Interpreter

variable {strict : Bool} {output : Stream} {i : Interpreter}

/-- A call is made in the global frame. -/
theorem perform_eq (i : Interpreter) (call : Call) :
    i.perform call = (((call.action Machine.globalFrame).on i.machine).1,
      { limit := call.limit, machine := ((call.action Machine.globalFrame).on i.machine).2 }) := by
  have hsource : evalSource { i with limit := call.limit } call.source =
      (((evalIn call.limit Machine.globalFrame call.source).on i.machine).1,
        { limit := call.limit,
          machine := ((evalIn call.limit Machine.globalFrame call.source).on i.machine).2 }) := rfl
  rw [Call.on_action]
  unfold perform evalToText
  simp only [hsource]
  generalize (evalIn call.limit Machine.globalFrame call.source).on i.machine = evaluated
  obtain ⟨outcome, m⟩ := evaluated
  by_cases hw : call.written = true
  · rw [if_pos hw]
    cases outcome with
    | error fault => rfl
    | ok v => exact Prod.ext (call.answer_text hw v).symm rfl
  · rw [if_neg hw]
    cases outcome with
    | error fault => rfl
    | ok v => exact Prod.ext (call.answer_value hw v).symm rfl

/-- A call leads from one session to the next, and its closures capture frames of that. -/
theorem perform_reachable (h : i.Reachable strict output) (call : Call) :
    (i.perform call).2.Reachable strict output ∧
      i.machine.frames.size ≤ (i.perform call).2.machine.frames.size ∧
      (i.perform call).1.CapturesBelow (i.perform call).2.machine.frames.size := by
  have hlimited : ({ i with limit := call.limit } : Interpreter).Reachable strict output :=
    h.limited call.limit
  obtain ⟨_, hsize, hsettles⟩ :=
    holds_evalSource permissive_isOwn (holds_of_reachable permissive_isOwn hlimited) call.source
  unfold perform
  split
  · refine ⟨hlimited.evalToText call.source, hsize, ?_⟩
    dsimp only
    cases (evalToText { i with limit := call.limit } call.source).1 <;> trivial
  · refine ⟨hlimited.evalSource call.source, hsize, ?_⟩
    dsimp only
    cases houtcome : (evalSource { i with limit := call.limit } call.source).1 with
    | error fault => trivial
    | ok v =>
      rw [houtcome] at hsettles
      rcases hsettles with ⟨why, hwhy⟩ | hv
      · cases hwhy
      · exact Value.Everywhere.mono hv fun _ h => h.2

/-- The frames of a session are all that is captured in it. -/
theorem outer_lt_size (h : i.Reachable strict output) (f g : FrameId) (hg : i.machine.outer? f = some g) :
    g < i.machine.frames.size := by
  have hholds := holds_of_reachable permissive_isOwn h
  refine Nat.lt_trans (hholds.outer_lt f g hg) ?_
  apply Nat.lt_of_not_le
  intro hf
  rw [Machine.outer?_of_size_le hf] at hg
  cases hg

end Interpreter

/-! ## Seats -/

/-- The seat of a session: its own global frame, what it has printed, and the stream on which it prints. -/
structure Seat where
  root : FrameId
  printed : Array Text
  output : Stream

/-- **A seat for a session**: its frames have places in the store in the order in which they were made, and
    those that it has not made yet have the places after the store. -/
structure Seated (store : Array Frame) (seat : Seat) (i : Interpreter) (place : FrameId → FrameId) :
    Prop where
  mono : StrictMono place
  root : place Machine.globalFrame = seat.root
  machines : (Simulation.placement place store).Machines i.machine ⟨store, seat.printed, seat.output⟩

namespace Seated

variable {seat : Seat} {i : Interpreter} {strict : Bool} {output : Stream}

/-- What the session has made is in the store. -/
theorem place_lt (h : Seated store seat i place) {g : FrameId} (hg : g < i.machine.frames.size) :
    place g < store.size :=
  (h.machines.frame_lt_iff (Simulation.placement_lawful h.mono)).2 hg

/-- What the session has not made is at no place of the store. -/
theorem size_le_place (h : Seated store seat i place) {g : FrameId} (hg : i.machine.frames.size ≤ g) :
    store.size ≤ place g := by
  apply Nat.le_of_not_lt
  intro hlt
  exact Nat.not_lt.2 hg ((h.machines.frame_lt_iff (Simulation.placement_lawful h.mono)).1 hlt)

/-- A seat has what the session has printed. -/
theorem printed_eq (h : Seated store seat i place) : seat.printed = i.machine.printed := by
  have hlines : List.Forall₂ Eq i.machine.printed.toList seat.printed.toList := h.machines.printed
  rw [List.forall₂_eq_eq_eq] at hlines
  exact (Array.toList_inj.1 hlines).symm

/-- **A seated session answers as it does alone**, is seated where it was, and leaves alone all frames that
    are not at its places. -/
theorem perform (h : Seated store seat i place) (hi : i.Reachable strict output) (call : Call) :
    let done := (call.action seat.root).on ⟨store, seat.printed, seat.output⟩
    (Simulation.placement place done.2.frames).Outcomes (i.perform call).1 done.1 ∧
      Seated done.2.frames { seat with printed := done.2.printed } (i.perform call).2 place ∧
      ∀ g, (∀ f, place f ≠ g) → done.2.frames[g]? = store[g]? := by
  intro done
  obtain ⟨hreachable, _, hbelow⟩ := Interpreter.perform_reachable hi call
  have hagree := (call.parallel_action h.mono store Machine.globalFrame).agree h.machines
  have hplaced : (call.action (place Machine.globalFrame)).on ⟨store, seat.printed, seat.output⟩ = done := by
    rw [h.root]
  rw [hplaced] at hagree
  have hmachines : (Simulation.placement place store).Machines (i.perform call).2.machine done.2 ∧
      (Simulation.placement place store).Outcomes (i.perform call).1 done.1 := by
    rw [Interpreter.perform_eq]
    generalize (call.action Machine.globalFrame).on i.machine = alone at hagree
    generalize done = there at hagree
    cases hagree with
    | ok ha hm => exact ⟨hm, .answer ha⟩
    | error hf hm =>
      rw [Simulation.placement_exact.faults_eq hf]
      exact ⟨hm, .fault _⟩
    | escape he => exact he.elim
  obtain ⟨hm, houtcomes⟩ := hmachines
  have hmoved := hm.move (fun _ _ => rfl) hm.later (fun _ _ => rfl)
    (Interpreter.outer_lt_size hreachable)
    (l := ⟨done.2.frames, done.2.printed, seat.output⟩)
    (fun g b hb => (Interpreter.values_of_reachable hreachable g b hb).2) rfl
    (call.output_on_action seat.root ⟨store, seat.printed, seat.output⟩).symm
  exact ⟨houtcomes.move (fun _ _ => rfl) hbelow, ⟨h.mono, h.root, hmoved⟩, hm.apart⟩

end Seated

/-- The first `n` places as they are, and after them those from `size` on. -/
def rebase (place : FrameId → FrameId) (n size : Nat) (g : FrameId) : FrameId :=
  if g < n then place g else size + (g - n)

theorem rebase_of_lt {n size : Nat} {g : FrameId} (h : g < n) : rebase place n size g = place g := if_pos h

theorem rebase_add (n size t : Nat) : rebase place n size (n + t) = size + t := by
  rw [rebase, if_neg (Nat.not_lt.2 (Nat.le_add_right n t)), Nat.add_sub_cancel_left]

theorem strictMono_rebase {n size : Nat} (h : StrictMono place) (hlt : ∀ g < n, place g < size) :
    StrictMono (rebase place n size) := by
  intro f g hfg
  unfold rebase
  by_cases hg : g < n
  · rw [if_pos (Nat.lt_trans hfg hg), if_pos hg]
    exact h hfg
  · by_cases hf : f < n
    · rw [if_pos hf, if_neg hg]
      exact Nat.lt_of_lt_of_le (hlt f hf) (Nat.le_add_right size _)
    · rw [if_neg hf, if_neg hg]
      exact Nat.add_lt_add_left (Nat.sub_lt_sub_right (Nat.le_of_not_lt hf) hfg) size

namespace Seated

variable {seat : Seat} {i : Interpreter} {strict : Bool} {output : Stream}

/-- **A session keeps its seat** while the store grows, if its frames stay as they are. -/
theorem stay (h : Seated store seat i place) (hi : i.Reachable strict output)
    (hsize : store.size ≤ store'.size)
    (hkept : ∀ g < i.machine.frames.size, store'[place g]? = store[place g]?) :
    Seated store' seat i (rebase place i.machine.frames.size store'.size) := by
  have hlt : ∀ g < i.machine.frames.size, place g < store'.size := fun g hg =>
    Nat.lt_of_lt_of_le (h.place_lt hg) hsize
  have hpos : Machine.globalFrame < i.machine.frames.size :=
    (Interpreter.holds_of_reachable Interpreter.permissive_isOwn hi).size_pos
  refine ⟨strictMono_rebase h.mono hlt, (rebase_of_lt hpos).trans h.root, ?_⟩
  exact h.machines.move (l := ⟨store', seat.printed, seat.output⟩) (fun g hg => rebase_of_lt hg)
    (rebase_add _ _)
    hkept (Interpreter.outer_lt_size hi) (fun g b hb => (Interpreter.values_of_reachable hi g b hb).2) rfl rfl

/-- A new session is seated at the end of the store. -/
theorem start (store : Array Frame) (strict : Bool) (output : Stream) :
    Seated (store.push ⟨Value.initial strict, none⟩) ⟨store.size, #[], output⟩ (.fresh strict output)
      fun g => store.size + g := by
  have hmono : StrictMono fun g : FrameId => store.size + g := fun f g hfg =>
    Nat.add_lt_add_left hfg store.size
  have hlawful : (Simulation.placement (fun g => store.size + g) store).Lawful :=
    Simulation.placement_lawful hmono
  have hempty : (Simulation.placement (fun g => store.size + g) store).Machines (.empty output)
      ⟨store, #[], output⟩ :=
    Simulation.machines_empty (fun _ => rfl) (fun _ _ => rfl) rfl (Simulation.placement_exact.streams output)
  have hinitial := hempty.initial hlawful (rfl : strict = strict) fun _ _ => rfl
  have hfresh : (Interpreter.fresh strict output).Reachable strict output := .fresh
  refine ⟨hmono, Nat.add_zero _, ?_⟩
  exact hinitial.move (fun _ _ => rfl) hinitial.later (fun _ _ => rfl)
    (Interpreter.outer_lt_size hfresh)
    (fun g b hb => (Interpreter.values_of_reachable hfresh g b hb).2) rfl rfl

end Seated

end SmallLisp
