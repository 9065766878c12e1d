import SmallLisp.Action
import SmallLisp.Value.Equal

/-!
# `SmallLisp.Definition`: names that an embedding program hands in

An embedding program names bindings by values, of which only symbols can be bound. To define another
value is a fault; to look one up or to assign to it fails as for a name without a binding. Lists cannot
even be looked for: to do so is a fault of the host.
-/

namespace SmallLisp

/-- The bindings of frame `f` itself. -/
def Machine.bindings (m : Machine) (f : FrameId) : Bindings :=
  (m.frames[f]?.map (·.bindings)).getD []

namespace Value

/-- The nearest frame that binds a name, seen from frame `f`. -/
def findIn (name : Value) (m : Machine) (f : FrameId) : Except Fault (Option FrameId) :=
  match name with
  | .symbol name => .ok (m.find? name f)
  | .list _ => .error (.host .unhashableList)
  | _ => .ok none

/-- The name in words, or the fault of writing it. -/
def labelled (depth : Nat) (name : Value) : Except Fault Text :=
  (name.label depth).mapError .host

/-- The value of a name, seen from frame `f`. -/
def lookupIn (depth : Nat) (name : Value) (f : FrameId) : Action Value :=
  match name with
  | .symbol name => Action.lookup name f
  | .list _ => throw (.host .unhashableList)
  | name => do throw (.unbound (← Action.ofExcept (name.labelled depth)))

/-- Binds a name in frame `f`. -/
def defineIn (depth : Nat) (name value : Value) (f : FrameId) : Action Unit :=
  match name with
  | .symbol name => Action.define name value f
  | name => Action.ofExcept (ArgumentFault.refuse .boundName (name.inspected depth))

/-- Changes the nearest binding of a name, seen from frame `f`. -/
def assignIn (depth : Nat) (name value : Value) (f : FrameId) : Action Unit :=
  match name with
  | .symbol name => Action.assign name value f
  | .list _ => throw (.host .unhashableList)
  | name => do throw (.unassignable (← Action.ofExcept (name.labelled depth)))

/-- Binds the names of a mapping one after the other, up to the first that cannot be bound. -/
def defineAllIn (depth : Nat) (mapping : List (Value × Value)) (f : FrameId) : Action Unit :=
  match mapping with
  | [] => pure ()
  | (name, value) :: rest => do
    name.defineIn depth value f
    defineAllIn depth rest f

end Value

end SmallLisp
