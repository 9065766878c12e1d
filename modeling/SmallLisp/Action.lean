import SmallLisp.Fault
import SmallLisp.Scope

/-!
# `SmallLisp.Action`: steps of an evaluation

An `Action` changes the machine and ends with a value or a fault. What it did before a fault stays
done. `Action.on` runs an action on a machine, and the lemmas about it say what each step does.
-/

namespace SmallLisp

/-- A step that changes the machine and ends with a value or a fault. -/
abbrev Action := ExceptT Fault (StateM Machine)

namespace Action

/-- The outcome of an action, and the machine after it. -/
def on {α : Type} (action : Action α) (m : Machine) : Except Fault α × Machine :=
  action.run.run m

/-- Ends with an outcome that is already known. -/
def ofExcept {α : Type} : Except Fault α → Action α
  | .ok a => pure a
  | .error fault => throw fault

/-- The value of `name`, seen from frame `f`. -/
def lookup (name : Text) (f : FrameId) : Action Value := do
  match (← get).lookup? name f with
  | some value => pure value
  | none => throw (.unbound name)

/-- Binds `name` in frame `f`. -/
def define (name : Text) (value : Value) (f : FrameId) : Action Unit :=
  modify (·.define name value f)

/-- Changes the nearest binding of `name`, seen from frame `f`. -/
def assign (name : Text) (value : Value) (f : FrameId) : Action Unit := do
  match (← get).assign? name value f with
  | some m => set m
  | none => throw (.unassignable name)

/-- Makes a new frame. -/
def allocate (bindings : Bindings) (outer : Option FrameId) : Action FrameId :=
  modifyGet (·.allocate bindings outer)

/-- Runs an action under the stack guard. -/
def guarded {α : Type} (action : Action α) : Action α := action.adapt Fault.guarded

/-- Prints a line, unless the stream refuses it. -/
def print (line : Text) : Action Unit := do
  match (← get).output.refusal? line with
  | none => modify (·.print line)
  | some why => throw (.host (.unwritable why))

/-! ## What each step does to the machine -/

section

variable {α β : Type}

@[simp] theorem on_pure (a : α) (m : Machine) : (pure a : Action α).on m = (.ok a, m) := rfl

@[simp] theorem on_throw (fault : Fault) (m : Machine) :
    (throw fault : Action α).on m = (.error fault, m) := rfl

/-- The second of two steps goes on where the first one stopped, unless that was a fault. -/
theorem on_bind (action : Action α) (next : α → Action β) (m : Machine) :
    (action >>= next).on m =
      match action.on m with
      | (.ok a, n) => (next a).on n
      | (.error fault, n) => (.error fault, n) := by
  unfold on ExceptT.run StateT.run
  simp only [bind, ExceptT.bind, ExceptT.mk, StateT.bind, ExceptT.bindCont]
  cases action m with
  | mk outcome n => cases outcome <;> rfl

@[simp] theorem on_ofExcept (outcome : Except Fault α) (m : Machine) :
    (ofExcept outcome).on m = (outcome, m) := by
  cases outcome <;> rfl

@[simp] theorem on_guarded (action : Action α) (m : Machine) :
    (guarded action).on m = ((action.on m).1.mapError Fault.guarded, (action.on m).2) := rfl

@[simp] theorem on_lookup (name : Text) (f : FrameId) (m : Machine) :
    (lookup name f).on m =
      (match m.lookup? name f with
        | some value => .ok value
        | none => .error (.unbound name), m) := by
  unfold lookup
  rw [on_bind]
  change (match m.lookup? name f with
    | some value => (pure value : Action Value)
    | none => throw (Fault.unbound name)).on m = _
  cases m.lookup? name f <;> rfl

@[simp] theorem on_define (name : Text) (value : Value) (f : FrameId) (m : Machine) :
    (define name value f).on m = (.ok (), m.define name value f) := rfl

@[simp] theorem on_assign (name : Text) (value : Value) (f : FrameId) (m : Machine) :
    (assign name value f).on m =
      match m.assign? name value f with
      | some n => (.ok (), n)
      | none => (.error (.unassignable name), m) := by
  unfold assign
  rw [on_bind]
  change (match m.assign? name value f with
    | some n => (set n : Action Unit)
    | none => throw (Fault.unassignable name)).on m = _
  cases m.assign? name value f <;> rfl

@[simp] theorem on_allocate (bindings : Bindings) (outer : Option FrameId) (m : Machine) :
    (allocate bindings outer).on m =
      (.ok (m.allocate bindings outer).1, (m.allocate bindings outer).2) := rfl

@[simp] theorem on_print (line : Text) (m : Machine) :
    (print line).on m =
      match m.output.refusal? line with
      | none => (.ok (), m.print line)
      | some why => (.error (.host (.unwritable why)), m) := by
  unfold print
  rw [on_bind]
  change (match m.output.refusal? line with
    | none => (modify fun m : Machine => m.print line : Action Unit)
    | some why => throw (Fault.host (.unwritable why))).on m = _
  cases m.output.refusal? line <;> rfl

end

end Action

end SmallLisp
