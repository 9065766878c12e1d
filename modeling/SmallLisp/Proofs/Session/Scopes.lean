import SmallLisp.Proofs.Session.Values

/-!
# `Proofs.Session.Scopes` — from every frame the way out ends at the global frame

`Machine.chain` goes outwards from a frame only as long as outer frames are older, so it ends by its
definition. What a session needs is that it stops nowhere else: `Walk m f path` says that `path` follows
the outer frames of `f` to the end, without that condition. In every session the chain is that walk, the
walk ends at the global frame, and a lookup goes along it frame by frame (`scopes_of_reachable`).
-/

namespace SmallLisp

namespace Machine

/-- **The way out.** The path goes from a frame to its outer frame, and on to a frame that has none. -/
inductive Walk (m : Machine) : FrameId → List FrameId → Prop
  | last {f : FrameId} (hf : f < m.frames.size) (h : m.outer? f = none) : Walk m f [f]
  | out {f g : FrameId} {path : List FrameId} (h : m.outer? f = some g) (hw : Walk m g path) :
      Walk m f (f :: path)

variable {m : Machine} {f g : FrameId} {name : Text} {p : Nat → Value → Prop}

/-! ## Whole chains -/

namespace Holds

/-- A frame is the global one, or its outer frame is older. -/
theorem eq_global_or_outer (h : m.Holds p) (hf : f < m.frames.size) :
    f = globalFrame ∧ m.outer? f = none ∨ ∃ g, m.outer? f = some g ∧ g < f := by
  cases hg : m.outer? f with
  | none => exact .inl ⟨h.root f hf hg, rfl⟩
  | some g => exact .inr ⟨g, rfl, h.outer_lt f g hg⟩

/-- The chain of a frame is its way out, and ends at the global frame. -/
theorem walk_chain (h : m.Holds p) (hf : f < m.frames.size) :
    m.Walk f (m.chain f) ∧ (m.chain f).getLast? = some globalFrame := by
  -- outwards frames are older, so the induction is on the frame
  induction f using Nat.strongRecOn with
  | _ f ih =>
    rcases h.eq_global_or_outer hf with ⟨rfl, hnone⟩ | ⟨g, hg, hlt⟩
    · rw [chain_last hf hnone]
      exact ⟨.last hf hnone, rfl⟩
    · obtain ⟨hwalk, hlast⟩ := ih g hlt (Nat.lt_trans hlt hf)
      rw [chain_out hg hlt]
      refine ⟨.out hg hwalk, ?_⟩
      rw [List.getLast?_cons, hlast]
      rfl

/-- A name is looked for in the frame itself, and then in its outer frame. -/
theorem find?_eq (h : m.Holds p) (hf : f < m.frames.size) (name : Text) :
    m.find? name f =
      if (m.local? name f).isSome then some f else (m.outer? f).bind (m.find? name) := by
  rcases h.eq_global_or_outer hf with ⟨_, hnone⟩ | ⟨g, hg, hlt⟩
  · rw [find?, chain_last hf hnone, hnone, List.find?_singleton]
    rfl
  · rw [find?_out hg hlt, hg]
    rfl

/-- A name that the global frame binds has a value in every frame. -/
theorem lookup?_of_mem_names (h : m.Holds p) (hname : name ∈ m.names globalFrame)
    (hf : f < m.frames.size) : ∃ v, m.lookup? name f = some v := by
  have hbound : (m.local? name globalFrame).isSome := isSome_local?_iff.2 hname
  have hglobal : globalFrame ∈ m.chain f := List.mem_of_getLast? (h.walk_chain hf).2
  -- the search may stop before the global frame, but it stops
  have hfound : (m.find? name f).isSome := List.find?_isSome.2 ⟨globalFrame, hglobal, hbound⟩
  obtain ⟨g, hg⟩ := Option.isSome_iff_exists.1 hfound
  have hlocal : (m.local? name g).isSome := by simpa using List.find?_some hg
  obtain ⟨v, hv⟩ := Option.isSome_iff_exists.1 hlocal
  exact ⟨v, by rw [lookup?, hg, Option.bind_some, hv]⟩

end Holds

end Machine

/-! ## Sessions -/

namespace Interpreter

variable {strict : Bool} {output : Stream} {i : Interpreter}

/-- **The scopes of a session.** However its texts ended: outer frames are older than the frames inside
    them, closures capture frames that exist, and the way out of every frame ends at the global frame. So
    a lookup, which goes that way frame by frame, ends; and as the global frame still binds the initial
    names, evaluating one of them gives a value in every frame. -/
theorem scopes_of_reachable (h : i.Reachable strict output) :
    (∀ f g, i.machine.outer? f = some g → g < f) ∧
    (∀ f, ∀ b ∈ i.machine.bindings f,
      b.2.Everywhere (Value.CapturesBelow i.machine.frames.size)) ∧
    (∀ f < i.machine.frames.size, i.machine.Walk f (i.machine.chain f) ∧
      (i.machine.chain f).getLast? = some Machine.globalFrame ∧
      ∀ name, i.machine.find? name f =
        if (i.machine.local? name f).isSome then some f
        else (i.machine.outer? f).bind (i.machine.find? name)) ∧
    ∀ name ∈ (Value.initial strict).map (·.1),
      name ∈ i.machine.names Machine.globalFrame ∧
      ∀ f < i.machine.frames.size, ∀ n,
        (∃ v, (eval (n + 1) f (.symbol name)).on i.machine = (.ok v, i.machine)) ∧
        ∀ other, ((eval n f (.symbol name)).on i.machine).1 ≠ .error (.unbound other) := by
  have hholds := holds_of_reachable permissive_isOwn h
  refine ⟨hholds.outer_lt, fun f b hb => (values_of_reachable h f b hb).2, ?_, ?_⟩
  · intro f hf
    exact ⟨(hholds.walk_chain hf).1, (hholds.walk_chain hf).2, hholds.find?_eq hf⟩
  · intro name hname
    have hglobal := initial_names_of_reachable h hname
    refine ⟨hglobal, fun f hf n => ?_⟩
    obtain ⟨v, hv⟩ := hholds.lookup?_of_mem_names hglobal hf
    have heval (n : Nat) : (eval (n + 1) f (.symbol name)).on i.machine = (.ok v, i.machine) := by
      show (Action.lookup name f).on i.machine = _
      rw [Action.on_lookup, hv]
    refine ⟨⟨v, heval n⟩, ?_⟩
    intro other hother
    -- without a single step left the fault is exhaustion
    cases n with
    | zero => cases hother
    | succ n =>
      rw [heval n] at hother
      cases hother

/-- The initial names of a new session are 23 different ones. -/
example : ((Value.initial true).map (·.1)).eraseDups.length = 23 := by decide

/-- A session after a text that failed halfway: `car` is bound to a number by then. -/
theorem scopes_of_reachable_failed :
    let i := ((fresh true .texts).evalSource "(setq car (+ 1 (defvar car 2) (foo)))").2
    i.Reachable true .texts ∧ ∀ f < i.machine.frames.size,
      (i.machine.chain f).getLast? = some Machine.globalFrame :=
  ⟨.evalSource .fresh _, fun f hf => ((scopes_of_reachable (.evalSource .fresh _)).2.2.1 f hf).2.1⟩

end Interpreter

end SmallLisp
