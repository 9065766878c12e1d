import SmallLisp.Stream
import SmallLisp.Table
import SmallLisp.Value.Basic

/-!
# `SmallLisp.Scope`: frames of bindings

A `Frame` binds names to values and may have an outer frame. A `Machine` holds all the frames of a
session, numbered in the order in which they were made, what was printed, and the stream that it was
printed on. Names are looked up along the `chain` of a frame: the frame itself, its outer frame, and
so on. Outer frames are older than the frames inside them, so a chain ends.
-/

namespace SmallLisp

/-- Names and their values, in the order in which the names were first bound. -/
abbrev Bindings := List (Text × Value)

/-- A scope: its own bindings, and the scope around it. -/
structure Frame where
  bindings : Bindings
  outer : Option FrameId

/-- All scopes of a session, the lines that were printed, and the stream on which `print` writes. -/
structure Machine where
  frames : Array Frame
  printed : Array Text
  output : Stream

namespace Machine

/-- No scope, nothing printed. -/
def empty (output : Stream) : Machine := ⟨#[], #[], output⟩

/-- The frames in which the names seen from frame `f` are looked up, nearest first. -/
def chain (m : Machine) (f : FrameId) : List FrameId :=
  match m.frames[f]? with
  | none => []
  | some frame =>
    match frame.outer with
    | none => [f]
    -- the comparison is there for the recursion; outer frames are older in every session
    | some outer => if outer < f then f :: m.chain outer else [f]
termination_by f

/-- What frame `f` itself binds `name` to. -/
def local? (m : Machine) (name : Text) (f : FrameId) : Option Value :=
  m.frames[f]?.bind (·.bindings.lookup name)

/-- The nearest frame that binds `name`, seen from frame `f`. -/
def find? (m : Machine) (name : Text) (f : FrameId) : Option FrameId :=
  (m.chain f).find? fun g => (m.local? name g).isSome

/-- The value of the nearest binding of `name`, seen from frame `f`. -/
def lookup? (m : Machine) (name : Text) (f : FrameId) : Option Value :=
  (m.find? name f).bind (m.local? name)

/-- Binds `name` in frame `f` itself. -/
def define (m : Machine) (name : Text) (value : Value) (f : FrameId) : Machine :=
  { m with
    frames := m.frames.modify f fun frame =>
      { frame with bindings := Table.put name value frame.bindings } }

/-- Changes the nearest binding of `name`, seen from frame `f`; none if there is no binding. -/
def assign? (m : Machine) (name : Text) (value : Value) (f : FrameId) : Option Machine :=
  (m.find? name f).map (m.define name value)

/-- Makes a new frame. -/
def allocate (m : Machine) (bindings : Bindings) (outer : Option FrameId) : FrameId × Machine :=
  (m.frames.size, { m with frames := m.frames.push ⟨bindings, outer⟩ })

/-- Prints a line. -/
def print (m : Machine) (line : Text) : Machine := { m with printed := m.printed.push line }

/-- The frame of a session's own definitions. -/
def globalFrame : FrameId := 0

/-- A new session: one frame, with the initial bindings. -/
def fresh (strict : Bool) (output : Stream) : Machine :=
  ((empty output).allocate (Value.initial strict) none).2

/-- How many names frame `f` binds itself. -/
def bindingCount (m : Machine) (f : FrameId) : Nat := (m.frames[f]?.map (·.bindings.length)).getD 0

/-- How many frames are around frame `f`. -/
def depth (m : Machine) (f : FrameId) : Nat := (m.chain f).length - 1

/-- A frame as a diagnostic shows it. -/
def describe (m : Machine) (f : FrameId) : Text :=
  s!"<Environment {m.bindingCount f} bindings, depth {m.depth f}>"

/-! ## What a definition changes

One binding of one frame, and no chain. -/

/-- What a frame binds after a definition: the new value under the name in the frame itself. -/
theorem local?_define (m : Machine) (name other : Text) (value : Value) (f g : FrameId)
    (h : f < m.frames.size) :
    (m.define name value f).local? other g =
      if g = f ∧ other = name then some value else m.local? other g := by
  by_cases hg : g = f
  · subst hg
    simp [local?, define, Array.getElem_modify, h, Table.lookup_put]
  · have : f ≠ g := fun e => hg e.symm
    simp [local?, define, Array.getElem?_modify, hg, this]

/-- A definition leaves every frame where it is. -/
theorem outer_define (m : Machine) (name : Text) (value : Value) (f g : FrameId) :
    (m.define name value f).frames[g]?.map (·.outer) = m.frames[g]?.map (·.outer) := by
  simp only [define, Array.getElem?_modify]
  by_cases hg : f = g
  · subst hg
    cases m.frames[f]? <;> simp
  · simp [hg]

/-- The chain of a frame hangs on the outer frames alone. -/
theorem chain_congr {m n : Machine}
    (h : ∀ g : FrameId, m.frames[g]?.map (·.outer) = n.frames[g]?.map (·.outer)) (f : FrameId) :
    m.chain f = n.chain f := by
  induction f using Nat.strongRecOn with
  | _ f ih =>
    have hf := h f
    rw [chain, chain]
    cases hm : m.frames[f]? <;> cases hn : n.frames[f]? <;> simp_all

/-- A definition changes no chain. -/
theorem chain_define (m : Machine) (name : Text) (value : Value) (f g : FrameId) :
    (m.define name value f).chain g = m.chain g :=
  chain_congr (fun g => outer_define m name value f g) g

end Machine

end SmallLisp
