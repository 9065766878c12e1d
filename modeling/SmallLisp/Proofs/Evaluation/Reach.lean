import SmallLisp.Proofs.Evaluation.Frames

/-!
# `Proofs.Evaluation.Reach` — an evaluation touches only the frames that it can reach

From a frame one gets to its outer frame, and to the frames that the closures bound in it capture;
from a value, to the frames that the closures in it capture (`Machine.Reaches`). `eval_reaches` says
that an evaluation changes no frame that it cannot reach, and that afterwards no old frame can be
reached from its frame and its value that could not be reached before.

Both halves are one invariant: a set of frames that is `Closed` stays closed, and only frames of the set
are written to. The set to start with is that of the frames that can be reached, and of all frames that
are not made yet.
-/

namespace SmallLisp

/-- **Capture.** The value is a closure over frame `g`, or one occurs in a member of it if it is a list,
    or in a body form of it if it is a closure. The formal parameters of a closure are never evaluated;
    what occurs in them counts only if `deep`. -/
inductive Value.Captures (deep : Bool) (g : FrameId) : Value → Prop
  | scope {formals body : List Value} {strict : Bool} {name : Option Text} :
      Captures deep g (.closure formals body g strict name)
  | item {x : Value} {items : List Value} (hx : x ∈ items) (h : Captures deep g x) :
      Captures deep g (.list items)
  | form {x : Value} {formals body : List Value} {scope : FrameId} {strict : Bool}
      {name : Option Text} (hx : x ∈ body) (h : Captures deep g x) :
      Captures deep g (.closure formals body scope strict name)
  | formal {x : Value} {formals body : List Value} {scope : FrameId} {strict : Bool}
      {name : Option Text} (hd : deep = true) (hx : x ∈ formals) (h : Captures deep g x) :
      Captures deep g (.closure formals body scope strict name)

/-- **Reachability.** The frames that can be reached from frame `f` and the values `roots`: outwards, and
    through the closures in the roots and in what is bound in a frame that can be reached. -/
inductive Machine.Reaches (deep : Bool) (m : Machine) (f : FrameId) (roots : List Value) :
    FrameId → Prop
  | frame : Reaches deep m f roots f
  | root {v : Value} {g : FrameId} (hv : v ∈ roots) (h : v.Captures deep g) : Reaches deep m f roots g
  | outer {g i : FrameId} (h : Reaches deep m f roots g) (hi : m.outer? g = some i) :
      Reaches deep m f roots i
  | bound {g i : FrameId} {b : Text × Value} (h : Reaches deep m f roots g)
      (hb : b ∈ m.bindings g) (hi : b.2.Captures deep i) : Reaches deep m f roots i

/-- The frames that an evaluation may get at: those that can be reached, and those not made yet. -/
def Machine.Accessible (deep : Bool) (m : Machine) (f : FrameId) (roots : List Value)
    (g : FrameId) : Prop := m.Reaches deep f roots g ∨ m.frames.size ≤ g

/-- Every closure in the value captures a frame of the set `A`. -/
def Value.Within (deep : Bool) (A : FrameId → Prop) (v : Value) : Prop := ∀ g, v.Captures deep g → A g

variable {deep : Bool} {A : FrameId → Prop}

/-! ## Values within a set of frames -/

namespace Value

theorem within_of_captures_nothing {v : Value} (h : ∀ g, ¬ v.Captures deep g) : v.Within deep A :=
  fun g hg => absurd hg (h g)

theorem within_list {items : List Value} :
    (list items).Within deep A ↔ ∀ v ∈ items, v.Within deep A := by
  constructor
  · intro h v hv g hg
    exact h g (.item hv hg)
  · intro h g hg
    cases hg with
    | item hx hg => exact h _ hx g hg

theorem within_closure {formals body : List Value} {scope : FrameId} {strict : Bool}
    {name : Option Text} (hscope : A scope) (hformals : ∀ v ∈ formals, v.Within deep A)
    (hbody : ∀ v ∈ body, v.Within deep A) :
    (closure formals body scope strict name).Within deep A := by
  intro g hg
  cases hg with
  | scope => exact hscope
  | form hx hg => exact hbody _ hx g hg
  | formal _ hx hg => exact hformals _ hx g hg

end Value

/-! ## Closed sets of frames -/

namespace Machine

/-- **A closed set of frames.** Neither an outer frame nor a closure that is bound in one of the frames
    leads out of the set. -/
structure Closed (deep : Bool) (A : FrameId → Prop) (m : Machine) : Prop where
  outer : ∀ g i, A g → m.outer? g = some i → A i
  bound : ∀ g, A g → ∀ b ∈ m.bindings g, b.2.Within deep A

variable {m : Machine} {f g scope : FrameId} {name : Text} {v : Value} {bindings : Bindings}
  {roots : List Value}

namespace Closed

/-- From the set one reaches no frame outside. -/
theorem of_reaches (h : m.Closed deep A) (hf : A f) (hroots : ∀ v ∈ roots, v.Within deep A)
    (hg : m.Reaches deep f roots g) : A g := by
  induction hg with
  | frame => exact hf
  | root hv hg => exact hroots _ hv _ hg
  | outer _ hi ih => exact h.outer _ _ ih hi
  | bound _ hb hi ih => exact h.bound _ ih _ hb _ hi

theorem of_mem_chain (h : m.Closed deep A) (hf : A f) (hg : g ∈ m.chain f) : A g := by
  induction f using Nat.strongRecOn with
  | _ f ih =>
    rw [chain] at hg
    cases hframe : m.frames[f]? with
    | none =>
      rw [hframe] at hg
      cases hg
    | some frame =>
      cases houter : frame.outer with
      | none =>
        simp only [hframe, houter, List.mem_singleton] at hg
        exact hg ▸ hf
      | some i =>
        have hi : A i := h.outer f i hf (by rw [outer?, hframe, Option.bind_some, houter])
        simp only [hframe, houter] at hg
        split at hg
        · rename_i hlt
          rcases List.mem_cons.1 hg with rfl | hg
          · exact hf
          · exact ih i hlt hi hg
        · exact List.mem_singleton.1 hg ▸ hf

theorem define (h : m.Closed deep A) (hv : v.Within deep A) :
    (m.define name v f).Closed deep A := by
  constructor
  · intro g i hg hi
    exact h.outer g i hg (outer?_define ▸ hi)
  · intro g hg
    exact forall_bindings_define (Value.Within deep A) (fun _ => hv) (h.bound g hg)

theorem allocate (h : m.Closed deep A) (hs : A scope) (hb : ∀ b ∈ bindings, b.2.Within deep A) :
    (m.allocate bindings (some scope)).2.Closed deep A := by
  constructor
  · intro g i hg hi
    rcases outer?_allocate_eq_some hi with hi | ⟨_, hi⟩
    · exact h.outer g i hg hi
    · exact Option.some.inj hi ▸ hs
  · intro g hg
    exact forall_bindings_allocate (Value.Within deep A) (some scope) (fun _ => hb) (h.bound g hg)

/-- What an evaluation may get at leads nowhere else. -/
theorem accessible (deep : Bool) (m : Machine) (f : FrameId) (roots : List Value) :
    m.Closed deep (m.Accessible deep f roots) := by
  constructor
  · rintro g i (hg | hg) hi
    · exact .inl (.outer hg hi)
    · rw [outer?_of_size_le hg] at hi
      cases hi
  · rintro g (hg | hg) b hb
    · exact fun i hi => .inl (.bound hg hb hi)
    · rw [bindings_of_size_le hg] at hb
      exact absurd hb List.not_mem_nil

end Closed

/-- On machines with `size` frames or more, nothing but the frames of the set is written to. -/
def WritesWithin (A : FrameId → Prop) (size : Nat) (m n : Machine) : Prop :=
  size ≤ m.frames.size → size ≤ n.frames.size ∧ ∀ g, ¬ A g → n.bindings g = m.bindings g

variable {n k : Machine} {size : Nat}

namespace WritesWithin

theorem refl (m : Machine) : m.WritesWithin A size m := fun hsize => ⟨hsize, fun _ _ => rfl⟩

theorem trans (h : m.WritesWithin A size n) (h' : n.WritesWithin A size k) :
    m.WritesWithin A size k := by
  intro hsize
  obtain ⟨hn, hfirst⟩ := h hsize
  obtain ⟨hk, hsecond⟩ := h' hn
  exact ⟨hk, fun g hg => (hsecond g hg).trans (hfirst g hg)⟩

theorem define (hf : A f) : m.WritesWithin A size (m.define name v f) := by
  intro hsize
  rw [size_define]
  exact ⟨hsize, fun g hg => bindings_define_ne fun e => hg (e ▸ hf)⟩

/-- What is written within the set after a new frame was made is written within it before, if the set
    has all frames that are not made yet. -/
theorem leave (hA : ∀ g, size ≤ g → A g)
    (h : (m.allocate bindings (some scope)).2.WritesWithin A size k) : m.WritesWithin A size k := by
  intro hsize
  have hsize' : size ≤ (m.allocate bindings (some scope)).2.frames.size := by
    rw [size_allocate]
    exact Nat.le_succ_of_le hsize
  obtain ⟨hk, hkept⟩ := h hsize'
  refine ⟨hk, fun g hg => ?_⟩
  -- a frame outside the set is older than the new one
  have hlt : g < m.frames.size := Nat.lt_of_not_le fun hle => hg (hA g (Nat.le_trans hsize hle))
  rw [hkept g hg, bindings_allocate hlt]

end WritesWithin

end Machine

/-! ## Whole evaluations -/

/-- Evaluations in frames of a closed set `A`, on values within it, that write to no other frame. The
    frames from `size` on are those that the evaluation makes itself. -/
def Discipline.within (deep : Bool) (A : FrameId → Prop) (size : Nat) : Discipline where
  machine m := size ≤ m.frames.size ∧ m.Closed deep A
  frame _ := A
  value _ := Value.Within deep A
  shown _ _ := True
  change _ := Machine.WritesWithin A size

theorem Discipline.within_lawful {size : Nat} (hA : ∀ g, size ≤ g → A g) :
    (Discipline.within deep A size).Lawful where
  refl _ := .refl
  trans := .trans
  frame_mono _ hg := hg
  value_mono _ hv := hv
  shown _ := trivial
  number _ _ := Value.within_of_captures_nothing nofun
  truth _ _ := Value.within_of_captures_nothing nofun
  list _ _ := Value.within_list
  closure hf hformals hbody _ := Value.within_closure hf hformals hbody
  scope h := h _ .scope
  formals _ _ _ := trivial
  body h _ hv _ hg := h _ (.form hv hg)
  noBody _ := Value.within_of_captures_nothing nofun
  name _ _ _ := trivial
  lookup hm hf h := by
    obtain ⟨g, hg, b, hb, rfl⟩ := Machine.exists_binding_of_lookup? h
    exact hm.2.bound g (hm.2.of_mem_chain hf hg) b hb
  define hm hf hv := ⟨⟨by simpa using hm.1, hm.2.define hv⟩, .define hf⟩
  assign hm hf hv hfind := by
    -- the frame that binds the name is on the chain, so it is in the set
    have hg := hm.2.of_mem_chain hf (List.mem_of_find?_eq_some hfind)
    exact ⟨⟨by simpa using hm.1, hm.2.define hv⟩, .define hg⟩
  print _ hm _ _ := ⟨⟨hm.1, hm.2.outer, hm.2.bound⟩, .refl _⟩
  enter hm hs hb := by
    refine ⟨⟨?_, hm.2.allocate hs hb⟩, hA _ hm.1⟩
    simpa using Nat.le_succ_of_le hm.1
  leave _ := .leave hA

/-- **An evaluation touches only what it can reach.** However an evaluation ends, the frames that could
    not be reached from its frame and its expression bind exactly what they did, and of the frames that
    were there, those that can be reached from its frame and its value could be reached before. -/
theorem eval_reaches (deep : Bool) (n : Nat) (f : FrameId) (e : Value) (m : Machine) :
    let outcome := ((eval n f e).on m).1
    let after := ((eval n f e).on m).2
    (∀ g < m.frames.size, ¬ m.Reaches deep f [e] g → after.bindings g = m.bindings g) ∧
      ∀ g < m.frames.size, after.Reaches deep f outcome.toOption.toList g →
        m.Reaches deep f [e] g := by
  intro outcome after
  have hlawful : (Discipline.within deep (m.Accessible deep f [e]) m.frames.size).Lawful :=
    Discipline.within_lawful fun g hg => .inr hg
  have hmachine : Discipline.machine (.within deep (m.Accessible deep f [e]) m.frames.size) m :=
    ⟨Nat.le_refl _, .accessible deep m f [e]⟩
  have hexpression : e.Within deep (m.Accessible deep f [e]) := fun g hg =>
    .inl (.root List.mem_cons_self hg)
  obtain ⟨⟨_, hclosed⟩, hchange, hsettles⟩ :=
    hlawful.keeps_eval n hmachine (.inl .frame) hexpression
  constructor
  · intro g hg hunreached
    refine (hchange (Nat.le_refl _)).2 g ?_
    intro hA
    exact hA.elim hunreached (Nat.not_le_of_lt hg)
  · intro g hg hreached
    rcases hclosed.of_reaches (.inl .frame) hsettles.good_of_mem hreached with h | h
    · exact h
    · exact absurd hg (Nat.not_lt.2 h)

end SmallLisp
