import SmallLisp.Definition
import SmallLisp.Proofs.Evaluation.Discipline

/-!
# `Proofs.Evaluation.Frames` — new names stay in the frame where they are bound

Three special forms write to frames: `defvar` and `defun` bind in the frame of the call, `setq` changes
a binding that is there already, wherever on the chain it is. A call of a closure binds its parameters,
but in a frame of its own. So an evaluation in frame `f` brings new names to `f` and to frames that it
has made itself, and to no other (`eval_growsIn`).

`GrowsIn f m n` says that about two machines; it holds of the elementary steps, and the discipline
`growth` carries it through whole evaluations.
-/

namespace SmallLisp

namespace Machine

/-- The names that frame `f` itself binds, in the order in which they were first bound. -/
def names (m : Machine) (f : FrameId) : List Text := (m.bindings f).map (·.1)

/-- The frame around frame `f`, if there is one. -/
def outer? (m : Machine) (f : FrameId) : Option FrameId := m.frames[f]?.bind (·.outer)

/-- **Growth in one frame.** The machine `n` has all frames of `m` in their places; of these only `f`
    may bind names that it did not bind before, after those that it did; and the lines printed so far
    stay the first ones. -/
structure GrowsIn (f : FrameId) (m n : Machine) : Prop where
  size_le : m.frames.size ≤ n.frames.size
  outer_eq : ∀ g < m.frames.size, n.outer? g = m.outer? g
  names_eq : ∀ g < m.frames.size, g ≠ f → n.names g = m.names g
  names_prefix : m.names f <+: n.names f
  printed_prefix : m.printed.toList <+: n.printed.toList
  output_eq : n.output = m.output

/-! ## Names and outer frames after the elementary steps -/

variable {m n k : Machine} {f g scope : FrameId} {name : Text} {v : Value} {bindings : Bindings}

theorem local?_eq_lookup (m : Machine) (name : Text) (f : FrameId) :
    m.local? name f = (m.bindings f).lookup name := by
  unfold local? Machine.bindings
  cases m.frames[f]? <;> rfl

/-- A frame binds the names that it has a value for. -/
theorem isSome_local?_iff : (m.local? name f).isSome ↔ name ∈ m.names f := by
  rw [local?_eq_lookup, List.lookup_isSome_iff, names, List.mem_map]
  constructor
  · rintro ⟨b, hb, hname⟩
    exact ⟨b, hb, (beq_iff_eq.1 hname).symm⟩
  · rintro ⟨b, hb, rfl⟩
    exact ⟨b, hb, beq_self_eq_true b.1⟩

/-- The value of a name is bound in some frame of the chain. -/
theorem exists_binding_of_lookup? (h : m.lookup? name f = some v) :
    ∃ g ∈ m.chain f, ∃ b ∈ m.bindings g, b.2 = v := by
  obtain ⟨g, hfind, hlocal⟩ := Option.bind_eq_some_iff.1 h
  rw [local?_eq_lookup] at hlocal
  obtain ⟨l₁, l₂, hb, _⟩ := List.lookup_eq_some_iff.1 hlocal
  refine ⟨g, List.mem_of_find?_eq_some hfind, (name, v), ?_, rfl⟩
  rw [hb]
  exact List.mem_append_right _ List.mem_cons_self

theorem bindings_define_self (h : f < m.frames.size) :
    (m.define name v f).bindings f = Table.put name v (m.bindings f) := by
  simp [Machine.bindings, define, Array.getElem_modify, h]

theorem bindings_define_ne (h : g ≠ f) : (m.define name v f).bindings g = m.bindings g := by
  have hfg : f ≠ g := fun e => h e.symm
  simp [Machine.bindings, define, Array.getElem?_modify, hfg]

/-- A definition of one name leaves the bindings of the others. -/
theorem local?_define_of_ne {other : Text} (h : other ≠ name) :
    (m.define name v f).local? other g = m.local? other g := by
  have hbeq : (other == name) = false := beq_false_of_ne h
  unfold local? define
  rw [Array.getElem?_modify]
  split
  · cases m.frames[g]? with
    | none => rfl
    | some frame =>
      show (Table.put name v frame.bindings).lookup other = frame.bindings.lookup other
      rw [Table.lookup_put, hbeq, if_neg Bool.false_ne_true]
  · rfl

theorem bindings_of_size_le (h : m.frames.size ≤ f) : m.bindings f = [] := by
  simp [Machine.bindings, Array.getElem?_eq_none h]

theorem outer?_of_size_le (h : m.frames.size ≤ f) : m.outer? f = none := by
  simp [outer?, Array.getElem?_eq_none h]

theorem names_of_size_le (h : m.frames.size ≤ f) : m.names f = [] := by
  simp [names, bindings_of_size_le h]

theorem bindings_allocate (h : g < m.frames.size) (outer : Option FrameId) :
    (m.allocate bindings outer).2.bindings g = m.bindings g := by
  simp [Machine.bindings, allocate, Array.getElem?_push_lt, h]

@[simp] theorem size_define : (m.define name v f).frames.size = m.frames.size := by simp [define]

@[simp] theorem size_allocate (outer : Option FrameId) :
    (m.allocate bindings outer).2.frames.size = m.frames.size + 1 := by simp [allocate]

@[simp] theorem outer?_define : (m.define name v f).outer? g = m.outer? g := by
  have h := outer_define m name v f g
  unfold outer?
  cases hm : m.frames[g]? <;> cases hn : (m.define name v f).frames[g]? <;> simp_all

theorem outer?_allocate (h : g < m.frames.size) (outer : Option FrameId) :
    (m.allocate bindings outer).2.outer? g = m.outer? g := by
  simp [outer?, allocate, Array.getElem?_push_lt, h]

/-- The new frame binds what it was made with, and has the outer frame it was made with. -/
theorem bindings_allocate_self (outer : Option FrameId) :
    (m.allocate bindings outer).2.bindings m.frames.size = bindings := by
  simp [Machine.bindings, allocate]

theorem outer?_allocate_self (outer : Option FrameId) :
    (m.allocate bindings outer).2.outer? m.frames.size = outer := by
  simp [outer?, allocate]

/-- After a definition a frame holds what it held, and the new value if it is the frame's own. -/
theorem forall_bindings_define (p : Value → Prop) (hv : g = f → p v)
    (hg : ∀ b ∈ m.bindings g, p b.2) : ∀ b ∈ (m.define name v f).bindings g, p b.2 := by
  by_cases h : g = f
  · subst h
    by_cases hlt : g < m.frames.size
    · rw [bindings_define_self hlt]
      exact Table.forall_put p (hv rfl) hg
    · -- a frame that is not there is not made by a definition
      have hsize : (m.define name v g).frames.size ≤ g := by simpa using hlt
      rw [bindings_of_size_le hsize]
      exact fun b hb => absurd hb List.not_mem_nil
  · rwa [bindings_define_ne h]

/-- After a new frame every frame holds what it held, and the new one what it was made with. -/
theorem forall_bindings_allocate (p : Value → Prop) (outer : Option FrameId)
    (hb : g = m.frames.size → ∀ b ∈ bindings, p b.2) (hg : ∀ b ∈ m.bindings g, p b.2) :
    ∀ b ∈ (m.allocate bindings outer).2.bindings g, p b.2 := by
  rcases Nat.lt_trichotomy g m.frames.size with h | rfl | h
  · rwa [bindings_allocate h]
  · rw [bindings_allocate_self]
    exact hb rfl
  · have hsize : (m.allocate bindings outer).2.frames.size ≤ g := by
      rw [size_allocate]
      exact h
    rw [bindings_of_size_le hsize]
    exact fun b hb => absurd hb List.not_mem_nil

/-- The new frame is the only one with a new outer frame. -/
theorem outer?_allocate_eq_some {outer : Option FrameId} {i : FrameId}
    (h : (m.allocate bindings outer).2.outer? g = some i) :
    m.outer? g = some i ∨ g = m.frames.size ∧ outer = some i := by
  rcases Nat.lt_trichotomy g m.frames.size with hg | rfl | hg
  · exact .inl (outer?_allocate hg outer ▸ h)
  · exact .inr ⟨rfl, outer?_allocate_self outer ▸ h⟩
  · have hsize : (m.allocate bindings outer).2.frames.size ≤ g := by
      rw [size_allocate]
      exact hg
    rw [outer?_of_size_le hsize] at h
    cases h

/-- A definition binds one name more, or none if the name was bound. -/
theorem names_define_self (h : f < m.frames.size) :
    (m.define name v f).names f =
      if (m.local? name f).isSome then m.names f else m.names f ++ [name] := by
  unfold names
  rw [bindings_define_self h, Table.keys_put, local?_eq_lookup]

theorem names_define_ne (h : g ≠ f) : (m.define name v f).names g = m.names g := by
  unfold names
  rw [bindings_define_ne h]

theorem names_allocate (h : g < m.frames.size) (outer : Option FrameId) :
    (m.allocate bindings outer).2.names g = m.names g := by
  unfold names
  rw [bindings_allocate h]

theorem names_define_prefix : m.names f <+: (m.define name v f).names f := by
  by_cases h : f < m.frames.size
  · rw [names_define_self h]
    split
    · exact List.prefix_refl _
    · exact List.prefix_append _ _
  · rw [names_of_size_le (Nat.le_of_not_lt h)]
    exact List.nil_prefix

/-- An assignment brings no name to any frame: its frame binds the name already. -/
theorem names_define_find (h : m.find? name f = some g) (i : FrameId) :
    (m.define name v g).names i = m.names i := by
  have hbound : (m.local? name g).isSome := by
    have := List.find?_some h
    simpa using this
  by_cases hi : i = g
  · subst hi
    -- a frame that binds a name is there
    have hlt : i < m.frames.size := by
      apply Nat.lt_of_not_le
      intro hge
      simp [local?_eq_lookup, bindings_of_size_le hge] at hbound
    rw [names_define_self hlt, if_pos hbound]
  · exact names_define_ne hi

/-! ## One frame of a chain -/

theorem lt_size_of_outer? (h : m.outer? f = some g) : f < m.frames.size := by
  apply Nat.lt_of_not_le
  intro hf
  rw [outer?_of_size_le hf] at h
  cases h

theorem chain_last (hf : f < m.frames.size) (h : m.outer? f = none) : m.chain f = [f] := by
  rw [outer?, Array.getElem?_eq_getElem hf, Option.bind_some] at h
  rw [chain, Array.getElem?_eq_getElem hf]
  simp only [h]

theorem chain_out (h : m.outer? f = some g) (hg : g < f) : m.chain f = f :: m.chain g := by
  have hf := lt_size_of_outer? h
  rw [outer?, Array.getElem?_eq_getElem hf, Option.bind_some] at h
  rw [chain, Array.getElem?_eq_getElem hf]
  simp only [h, if_pos hg]

/-- Without an outer frame a name means what the frame itself binds it to. -/
theorem lookup?_last (hf : f < m.frames.size) (h : m.outer? f = none) (name : Text) :
    m.lookup? name f = m.local? name f := by
  unfold lookup? find?
  rw [chain_last hf h, List.find?_singleton]
  cases hlocal : m.local? name f with
  | none => rfl
  | some v => exact hlocal

/-- A name is looked for in the frame itself, and then from its outer frame on. -/
theorem find?_out (h : m.outer? f = some g) (hg : g < f) :
    m.find? name f = if (m.local? name f).isSome then some f else m.find? name g := by
  unfold find?
  rw [chain_out h hg, List.find?_cons]
  cases (m.local? name f).isSome <;> rfl

/-- A name is found nowhere if no frame of the chain binds it. -/
theorem find?_eq_none_iff : m.find? name f = none ↔ ∀ g ∈ m.chain f, name ∉ m.names g := by
  unfold find?
  rw [List.find?_eq_none]
  simp only [isSome_local?_iff]

/-! ## Growth -/

namespace GrowsIn

theorem refl (f : FrameId) (m : Machine) : m.GrowsIn f m :=
  ⟨Nat.le_refl _, fun _ _ => rfl, fun _ _ _ => rfl, List.prefix_refl _, List.prefix_refl _, rfl⟩

theorem trans (h : m.GrowsIn f n) (h' : n.GrowsIn f k) : m.GrowsIn f k := by
  -- a frame of the first machine is one of the second, so that both steps speak about it
  refine ⟨Nat.le_trans h.size_le h'.size_le, ?_, ?_, h.names_prefix.trans h'.names_prefix,
    h.printed_prefix.trans h'.printed_prefix, h'.output_eq.trans h.output_eq⟩
  · intro g hg
    rw [h'.outer_eq g (Nat.lt_of_lt_of_le hg h.size_le), h.outer_eq g hg]
  · intro g hg hne
    rw [h'.names_eq g (Nat.lt_of_lt_of_le hg h.size_le) hne, h.names_eq g hg hne]

theorem define (m : Machine) (name : Text) (v : Value) (f : FrameId) :
    m.GrowsIn f (m.define name v f) :=
  ⟨Nat.le_of_eq size_define.symm, fun _ _ => outer?_define, fun _ _ h => names_define_ne h,
    names_define_prefix, List.prefix_refl _, rfl⟩

theorem assign (h : m.find? name f = some g) : m.GrowsIn f (m.define name v g) :=
  ⟨Nat.le_of_eq size_define.symm, fun _ _ => outer?_define, fun i _ _ => names_define_find h i,
    names_define_find h f ▸ List.prefix_refl _, List.prefix_refl _, rfl⟩

theorem print (m : Machine) (line : Text) (f : FrameId) : m.GrowsIn f (m.print line) :=
  ⟨Nat.le_refl _, fun _ _ => rfl, fun _ _ _ => rfl, List.prefix_refl _, by simp [Machine.print],
    rfl⟩

/-- What grows in the frame of a call has grown in none of the frames before the call. -/
theorem leave (f : FrameId) (h : (m.allocate bindings (some scope)).2.GrowsIn m.frames.size k) :
    m.GrowsIn f k ∧ ∀ g < m.frames.size, k.names g = m.names g := by
  have hlt {g : FrameId} (hg : g < m.frames.size) :
      g < (m.allocate bindings (some scope)).2.frames.size := by
    simp only [size_allocate]
    exact Nat.lt_succ_of_lt hg
  -- the frame of the call is new, so it is none of these
  have hnames : ∀ g < m.frames.size, k.names g = m.names g := by
    intro g hg
    rw [h.names_eq g (hlt hg) (Nat.ne_of_lt hg), names_allocate hg]
  refine ⟨⟨?_, ?_, fun g hg _ => hnames g hg, ?_, h.printed_prefix, h.output_eq⟩, hnames⟩
  · have := h.size_le
    rw [size_allocate] at this
    omega
  · intro g hg
    rw [h.outer_eq g (hlt hg), outer?_allocate hg]
  · by_cases hf : f < m.frames.size
    · exact hnames f hf ▸ List.prefix_refl _
    · -- `f` is not there before the call, and has no name to lose
      rw [names_of_size_le (Nat.le_of_not_lt hf)]
      exact List.nil_prefix

/-- No frame loses a name. -/
theorem names_subset (h : m.GrowsIn f n) (g : FrameId) : m.names g ⊆ n.names g := by
  by_cases hg : g = f
  · subst hg
    exact h.names_prefix.subset
  · by_cases hlt : g < m.frames.size
    · rw [h.names_eq g hlt hg]
      exact List.Subset.refl _
    · rw [names_of_size_le (Nat.le_of_not_lt hlt)]
      exact List.nil_subset _

end GrowsIn

end Machine

/-! ## Whole evaluations -/

/-- Evaluations grow in their own frame, on any machine and with any values. -/
def Discipline.growth : Discipline where
  machine _ := True
  frame _ _ := True
  value _ _ := True
  shown _ _ := True
  change := Machine.GrowsIn

theorem Discipline.growth_lawful : Discipline.growth.Lawful where
  refl := Machine.GrowsIn.refl
  trans := Machine.GrowsIn.trans
  frame_mono _ _ := trivial
  value_mono _ _ := trivial
  shown _ := trivial
  number _ _ := trivial
  truth _ _ := trivial
  list _ _ := ⟨fun _ _ _ => trivial, fun _ => trivial⟩
  closure _ _ _ _ := trivial
  scope _ := trivial
  formals _ _ _ := trivial
  body _ _ _ := trivial
  noBody _ := trivial
  name _ _ _ := trivial
  lookup _ _ _ := trivial
  define _ _ _ := ⟨trivial, .define _ _ _ _⟩
  assign _ _ _ h := ⟨trivial, .assign h⟩
  print f _ _ _ := ⟨trivial, .print _ _ f⟩
  enter _ _ _ := ⟨trivial, trivial⟩
  leave f h := (Machine.GrowsIn.leave f h).1

/-- **New bindings stay in the frame of the evaluation.** However an evaluation in frame `f` ends, every frame
    keeps its outer frame and its names, of the frames that were there only `f` has new names, printed lines
    stay printed, and the output stream is the same. A call of a closure brings no new name to any frame that
    was there before the call. -/
theorem eval_growsIn (n : Nat) (f : FrameId) (m : Machine) :
    (∀ e : Value, m.GrowsIn f ((eval n f e).on m).2 ∧
      ∀ g, m.names g ⊆ ((eval n f e).on m).2.names g) ∧
    ∀ (formals body args : List Value) (scope : FrameId) (strict : Bool) (name : Option Text),
      let after := ((apply n f (.closure formals body scope strict name) args).on m).2
      m.GrowsIn f after ∧ ∀ g < m.frames.size, after.names g = m.names g := by
  have hlawful := Discipline.growth_lawful
  constructor
  · intro e
    have hgrows : m.GrowsIn f ((eval n f e).on m).2 :=
      (hlawful.keeps_eval n (f := f) (e := e) (m := m) trivial trivial trivial).change
    exact ⟨hgrows, hgrows.names_subset⟩
  · intro formals body args scope strict name
    -- the call is an evaluation in any frame, also in the one that it makes itself
    have hgrows (g : FrameId) : m.GrowsIn g
        ((apply n f (.closure formals body scope strict name) args).on m).2 := by
      have hkeeps : Discipline.growth.Keeps g Discipline.growth.value
          (apply n g (.closure formals body scope strict name) args) m :=
        hlawful.keeps_apply n trivial trivial trivial fun _ _ => trivial
      exact hkeeps.change
    exact ⟨hgrows f, fun g hg => (hgrows m.frames.size).names_eq g hg (Nat.ne_of_lt hg)⟩

end SmallLisp
