import SmallLisp.Proofs.Evaluation.Frames

/-!
# `Proofs.Evaluation.Contents` — what the values in the frames are made of

A value holds other values: the members of a list, and the formals and body forms of a closure.
`Occurs` goes through all of them, and `Everywhere p` says that nothing else than `p` occurs. Which
closures may occur hangs on how many frames there are, so `p` has that number as an argument.

Whatever is *permissible* (`Permissible p`) and holds everywhere in a machine goes on to hold there:
values come from literals, from arithmetic, from `lambda` and `defun` and from other values, and no step
puts anything else into a frame (`Holds`, and `contents_lawful` for the steps).
-/

namespace SmallLisp

namespace Value

/-- **Occurrence.** `w` is the value itself, or occurs in a member of it if it is a list, or in a
    formal or a body form of it if it is a closure. -/
inductive Occurs (w : Value) : Value → Prop
  | self : Occurs w w
  | item {x : Value} {items : List Value} (hx : x ∈ items) (h : Occurs w x) : Occurs w (.list items)
  | formal {x : Value} {formals body : List Value} {scope : FrameId} {strict : Bool}
      {name : Option Text} (hx : x ∈ formals) (h : Occurs w x) :
      Occurs w (.closure formals body scope strict name)
  | form {x : Value} {formals body : List Value} {scope : FrameId} {strict : Bool}
      {name : Option Text} (hx : x ∈ body) (h : Occurs w x) :
      Occurs w (.closure formals body scope strict name)

/-- Whatever occurs in the value satisfies `p`. -/
def Everywhere (p : Value → Prop) (v : Value) : Prop := ∀ w : Value, w.Occurs v → p w

variable {p q : Value → Prop}

theorem Everywhere.self {v : Value} (h : v.Everywhere p) : p v := h v .self

theorem Everywhere.mono {v : Value} (h : v.Everywhere p) (hpq : ∀ w, p w → q w) :
    v.Everywhere q := fun w hw => hpq w (h w hw)

theorem Everywhere.and {v : Value} (hp : v.Everywhere p) (hq : v.Everywhere q) :
    v.Everywhere fun w => p w ∧ q w := fun w hw => ⟨hp w hw, hq w hw⟩

theorem everywhere_list {items : List Value} :
    (list items).Everywhere p ↔ p (.list items) ∧ ∀ x ∈ items, x.Everywhere p := by
  constructor
  · intro h
    exact ⟨h.self, fun x hx w hw => h w (.item hx hw)⟩
  · rintro ⟨hself, hitems⟩ w hw
    cases hw with
    | self => exact hself
    | item hx hw => exact hitems _ hx w hw

theorem everywhere_closure {formals body : List Value} {scope : FrameId} {strict : Bool}
    {name : Option Text} :
    (closure formals body scope strict name).Everywhere p ↔
      p (.closure formals body scope strict name) ∧
        (∀ x ∈ formals, x.Everywhere p) ∧ ∀ x ∈ body, x.Everywhere p := by
  constructor
  · intro h
    exact ⟨h.self, fun x hx w hw => h w (.formal hx hw), fun x hx w hw => h w (.form hx hw)⟩
  · rintro ⟨hself, hformals, hbody⟩ w hw
    cases hw with
    | self => exact hself
    | formal hx hw => exact hformals _ hx w hw
    | form hx hw => exact hbody _ hx w hw

theorem everywhere_number {x : Float} (h : p (.number x)) : (number x).Everywhere p := by
  intro w hw; cases hw; exact h

theorem everywhere_text {s : Text} (h : p (.text s)) : (text s).Everywhere p := by
  intro w hw; cases hw; exact h

theorem everywhere_truth {b : Bool} (h : p (.truth b)) : (truth b).Everywhere p := by
  intro w hw; cases hw; exact h

theorem everywhere_symbol {name : Text} (h : p (.symbol name)) : (symbol name).Everywhere p := by
  intro w hw; cases hw; exact h

theorem everywhere_primitive {r : Primitive} (h : p (.primitive r)) :
    (primitive r).Everywhere p := by
  intro w hw; cases hw; exact h

theorem everywhere_special {form : SpecialForm} (h : p (.special form)) :
    (special form).Everywhere p := by
  intro w hw; cases hw; exact h

/-- What holds of the initial values holds everywhere in them. -/
theorem everywhere_initial (hprimitive : ∀ r, p (.primitive r)) (hspecial : ∀ form, p (.special form))
    (htruth : ∀ b, p (.truth b)) (strict : Bool) : ∀ b ∈ initial strict, b.2.Everywhere p := by
  intro b hb
  unfold initial at hb
  rcases List.mem_append.1 hb with hb | hb
  · rcases List.mem_append.1 hb with hb | hb
    · obtain ⟨r, _, rfl⟩ := List.mem_map.1 hb
      exact everywhere_primitive (hprimitive r)
    · rcases List.mem_cons.1 hb with rfl | hb
      · exact everywhere_truth (htruth false)
      · rw [List.mem_singleton.1 hb]
        exact everywhere_truth (htruth true)
  · obtain ⟨form, _, rfl⟩ := List.mem_map.1 hb
    exact everywhere_special (hspecial form)

end Value

/-! ## Permissible contents -/

/-- **What a program can keep to.** `p n` is about the values in a machine of `n` frames: it lets pass
    numbers, truth values, lists and closures over one of the frames, and of closures only those. -/
structure Permissible (p : Nat → Value → Prop) : Prop where
  mono {n k : Nat} (h : n ≤ k) {v : Value} : p n v → p k v
  number (n : Nat) (x : Float) : p n (.number x)
  truth (n : Nat) (b : Bool) : p n (.truth b)
  list (n : Nat) (items : List Value) : p n (.list items)
  closure {n : Nat} {f : FrameId} {formals rest : List Value} {first : Value} {strict : Bool}
    {name : Option Text} (hf : f < n) (hn : NameAmong (p n) name) :
    p n (.closure formals (first :: rest) f strict name)
  scope {n : Nat} {formals body : List Value} {scope : FrameId} {strict : Bool}
    {name : Option Text} : p n (.closure formals body scope strict name) → scope < n
  body {n : Nat} {formals : List Value} {scope : FrameId} {strict : Bool} {name : Option Text} :
    ¬ p n (.closure formals [] scope strict name)
  name {n : Nat} {formals body : List Value} {scope : FrameId} {strict : Bool}
    {name : Option Text} : p n (.closure formals body scope strict name) → NameAmong (p n) name

namespace Machine

variable {m : Machine} {f g : FrameId} {name : Text} {v : Value}

/-- **The state of a session.** Outer frames are older than the frames inside them, only the global
    frame has none, and everything that is bound anywhere is made of what `p` lets pass. -/
structure Holds (p : Nat → Value → Prop) (m : Machine) : Prop where
  size_pos : 0 < m.frames.size
  outer_lt : ∀ f g, m.outer? f = some g → g < f
  root : ∀ f < m.frames.size, m.outer? f = none → f = globalFrame
  values : ∀ f, ∀ b ∈ m.bindings f, b.2.Everywhere (p m.frames.size)

variable {p : Nat → Value → Prop}

theorem holds_fresh {strict : Bool} {output : Stream}
    (h : ∀ b ∈ Value.initial strict, b.2.Everywhere (p 1)) : (fresh strict output).Holds p := by
  -- the global frame is the only one
  refine ⟨Nat.zero_lt_one, ?_, ?_, ?_⟩
  · intro f g hg
    rcases Nat.eq_zero_or_pos f with rfl | hpos
    · cases hg
    · rw [outer?_of_size_le hpos] at hg
      cases hg
  · intro f hf _
    exact Nat.lt_one_iff.1 hf
  · intro f b hb
    rcases Nat.eq_zero_or_pos f with rfl | hpos
    · exact h b hb
    · rw [bindings_of_size_le hpos] at hb
      exact absurd hb List.not_mem_nil

namespace Holds

theorem define (h : m.Holds p) (hv : v.Everywhere (p m.frames.size)) :
    (m.define name v f).Holds p := by
  refine ⟨?_, ?_, ?_, ?_⟩
  · simpa using h.size_pos
  · intro i g hg
    exact h.outer_lt i g (outer?_define ▸ hg)
  · intro i hi hnone
    exact h.root i (size_define ▸ hi) (outer?_define ▸ hnone)
  · intro i
    rw [size_define]
    exact forall_bindings_define (Value.Everywhere (p m.frames.size)) (fun _ => hv) (h.values i)

theorem print (h : m.Holds p) (line : Text) : (m.print line).Holds p :=
  ⟨h.size_pos, h.outer_lt, h.root, h.values⟩

/-- A new frame is inside an older one, and binds what was at hand. -/
theorem allocate (hp : Permissible p) (h : m.Holds p) {scope : FrameId} {bindings : Bindings}
    (hs : scope < m.frames.size) (hb : ∀ b ∈ bindings, b.2.Everywhere (p m.frames.size)) :
    (m.allocate bindings (some scope)).2.Holds p := by
  have hmono {v : Value} (hv : v.Everywhere (p m.frames.size)) :
      v.Everywhere (p (m.frames.size + 1)) := hv.mono fun _ => hp.mono (Nat.le_succ _)
  refine ⟨?_, ?_, ?_, ?_⟩
  · simp
  · intro i g hg
    rcases outer?_allocate_eq_some hg with hold | ⟨rfl, hnew⟩
    · exact h.outer_lt i g hold
    · exact Option.some.inj hnew ▸ hs
  · intro i hi hnone
    rw [size_allocate] at hi
    rcases Nat.lt_succ_iff_lt_or_eq.1 hi with hlt | rfl
    · exact h.root i hlt (outer?_allocate hlt _ ▸ hnone)
    · rw [outer?_allocate_self] at hnone
      cases hnone
  · intro i
    rw [size_allocate]
    exact forall_bindings_allocate (Value.Everywhere (p (m.frames.size + 1))) (some scope)
      (fun _ b hmem => hmono (hb b hmem)) fun b hmem => hmono (h.values i b hmem)

end Holds

end Machine

/-! ## Whole evaluations -/

/-- Evaluations in existing frames, on machines in which `p` holds and on values that `p` lets pass. -/
def Discipline.contents (p : Nat → Value → Prop) : Discipline where
  machine := Machine.Holds p
  frame m f := f < m.frames.size
  value m v := v.Everywhere (p m.frames.size)
  shown m v := v.Everywhere (p m.frames.size)
  change _ m n := m.frames.size ≤ n.frames.size

theorem Discipline.contents_lawful {p : Nat → Value → Prop} (hp : Permissible p) :
    (Discipline.contents p).Lawful where
  refl _ _ := Nat.le_refl _
  trans h h' := Nat.le_trans h h'
  frame_mono h hg := Nat.lt_of_lt_of_le hg h
  value_mono h hv := hv.mono fun _ => hp.mono h
  shown h := h
  number m x := Value.everywhere_number (hp.number _ x)
  truth m b := Value.everywhere_truth (hp.truth _ b)
  list m items := by
    show (Value.list items).Everywhere _ ↔ _
    rw [Value.everywhere_list]
    exact and_iff_right (hp.list _ items)
  closure hf hformals hbody hn :=
    Value.everywhere_closure.2 ⟨hp.closure hf fun s hs => (hn s hs).self, hformals, hbody⟩
  scope h := hp.scope h.self
  formals h := (Value.everywhere_closure.1 h).2.1
  body h := (Value.everywhere_closure.1 h).2.2
  noBody h := absurd h.self hp.body
  name h := fun s hs => Value.everywhere_symbol (hp.name h.self s hs)
  lookup hm _ h := by
    obtain ⟨g, _, b, hb, rfl⟩ := Machine.exists_binding_of_lookup? h
    exact hm.values g b hb
  define hm _ hv := ⟨hm.define hv, Nat.le_of_eq Machine.size_define.symm⟩
  -- an assignment is a definition in the frame that binds the name
  assign hm _ hv _ := ⟨hm.define hv, Nat.le_of_eq Machine.size_define.symm⟩
  print _ hm _ _ := ⟨hm.print _, Nat.le_refl _⟩
  enter hm hs hb := by
    refine ⟨hm.allocate hp hs hb, ?_⟩
    show _ < _
    simp only [Machine.size_allocate]
    exact Nat.lt_succ_self _
  leave f h := by
    have hsize : _ ≤ _ := h
    simp only [Machine.size_allocate] at hsize
    exact Nat.le_of_succ_le hsize

end SmallLisp
