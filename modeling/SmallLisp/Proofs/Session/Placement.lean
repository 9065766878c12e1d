import SmallLisp.Proofs.Session.Parallel
import SmallLisp.Proofs.Session.Values

/-!
# `Proofs.Session.Placement` — a session in a store that holds other frames too

The frames of a session are numbered from zero, but nothing in an evaluation hangs on that. A *placement* says
where each of them is in a store that holds other frames as well. It is a simulation (`placement_lawful`)
under which all but the frames of closures is the same: names, policies, texts and so faults
(`placement_exact`).

When other frames are added to the store, the frames that the session has not made yet get other places. What
the session holds captures none of these, so it is placed under the new placement as it was under the old one
(`Values.move`, `Machines.move`).
-/

namespace SmallLisp

namespace Simulation

/-- **A placement.** Frame `f` is at `place f` in a store; the other frames of the store are as they are. -/
def placement (place : FrameId → FrameId) (store : Array Frame) : Simulation where
  name := Eq
  policy := Eq
  label := Eq
  text := Eq
  frame := place
  apart g := store[g]?
  escapes _ := False

variable {place place' : FrameId → FrameId} {store store' : Array Frame}

theorem placement_lawful (h : StrictMono place) : (placement place store).Lawful where
  name_iff := by
    rintro s s' t t' rfl rfl
    rfl
  frame := h
  policy := .inl
  unnamed := rfl
  named := congrArg some
  written hv := hv.ends_written (fun _ _ => id) (fun _ => rfl) id
  inspected hv := hv.ends_inspected (fun _ _ => id) (fun _ => rfl) id
  joined := text_joined fun _ _ => Iff.rfl
  reflexive := False.elim
  guarded := False.elim

/-! ## What a placement leaves the same -/

theorem placement_exact : (placement place store).Exact := ⟨⟨⟨id, id⟩, id⟩, id⟩

/-! ## From one placement to another -/

variable {n : Nat}

mutual

/-- **A value moves with the frames that it captures**: only their places count. -/
theorem Values.move (hplace : ∀ g < n, place' g = place g) :
    (v w : Value) → (placement place store).Values v w → v.Everywhere (Value.CapturesBelow n) →
      (placement place' store').Values v w
  | .number x, _, .number _, _ => .number x
  | .text s, _, .text _, _ => .text s
  | .truth b, _, .truth _, _ => .truth b
  | .symbol _, _, .symbol hst, _ => .symbol hst
  | .list _, _, .list hitems, hv => .list (Values.moveAll hplace _ _ hitems (Value.everywhere_list.1 hv).2)
  | .primitive p, _, .primitive _, _ => .primitive p
  | .special _, _, .special hform, _ => placement_exact.forms_eq hform ▸ .special (.refl (fun _ => rfl) _)
  | .closure _ _ _ _ _, _, .closure hf hb scope hp hl, hv => by
    obtain ⟨hscope, hformals, hbody⟩ := Value.everywhere_closure.1 hv
    have hclosure := Values.closure (S := placement place' store') (Values.moveAll hplace _ _ hf hformals)
      (Values.moveAll hplace _ _ hb hbody) scope hp hl
    have hsame : (placement place' store').frame scope = (placement place store).frame scope :=
      hplace scope hscope
    rwa [hsame] at hclosure
  | .embedded e, _, .embedded _, _ => .embedded e

theorem Values.moveAll (hplace : ∀ g < n, place' g = place g) :
    (vs ws : List Value) → List.Forall₂ (placement place store).Values vs ws →
      (∀ v ∈ vs, v.Everywhere (Value.CapturesBelow n)) →
      List.Forall₂ (placement place' store').Values vs ws
  | [], _, .nil, _ => .nil
  | v :: vs, _, .cons hv hvs, h =>
    .cons (Values.move hplace v _ hv (h v List.mem_cons_self))
      (Values.moveAll hplace vs _ hvs fun x hx => h x (List.mem_cons_of_mem v hx))

end

theorem Bound.move (hplace : ∀ g < n, place' g = place g) {bindings bindings' : Bindings}
    (h : (placement place store).Bound bindings bindings')
    (hbelow : ∀ b ∈ bindings, b.2.Everywhere (Value.CapturesBelow n)) :
    (placement place' store').Bound bindings bindings' := by
  intro s t hst
  have hrel := h s t hst
  cases hfound : bindings.lookup s with
  | none =>
    rw [hfound] at hrel
    cases hother : bindings'.lookup t with
    | none => exact .none
    | some w =>
      rw [hother] at hrel
      cases hrel
  | some v =>
    obtain ⟨before, after, hbindings, _⟩ := List.lookup_eq_some_iff.1 hfound
    have hv : v.Everywhere (Value.CapturesBelow n) := by
      apply hbelow (s, v)
      rw [hbindings]
      exact List.mem_append_right _ List.mem_cons_self
    rw [hfound] at hrel
    cases hother : bindings'.lookup t with
    | none =>
      rw [hother] at hrel
      cases hrel
    | some w =>
      rw [hother] at hrel
      cases hrel with
      | some hw => exact .some (Values.move hplace v w hw hv)

/-- **A session moves with the frames that it has made**, to a store that holds what they held. The frames
    that it has not made yet get the places after all that are there. -/
theorem Machines.move {m k l : Machine} (h : (placement place store).Machines m k)
    (hplace : ∀ g < m.frames.size, place' g = place g)
    (hlater : ∀ t, place' (m.frames.size + t) = l.frames.size + t)
    (hkept : ∀ g < m.frames.size, l.frames[place g]? = k.frames[place g]?)
    (houter : ∀ g i, m.outer? g = some i → i < m.frames.size)
    (hbelow : ∀ g, ∀ b ∈ m.bindings g, b.2.Everywhere (Value.CapturesBelow m.frames.size))
    (hprinted : l.printed = k.printed) (houtput : l.output = k.output) :
    (placement place' l.frames).Machines m l := by
  -- a frame that is not made yet has a place where nothing is
  have hnone {g : FrameId} (hg : m.frames.size ≤ g) : l.frames.size ≤ place' g := by
    obtain ⟨t, rfl⟩ := Nat.exists_eq_add_of_le hg
    rw [hlater]
    exact Nat.le_add_right _ t
  refine ⟨hlater, ?_, ?_, fun g _ => rfl, hprinted ▸ h.printed, houtput ▸ h.streams⟩
  · intro g
    show l.frames[place' g]?.map (·.outer) = (m.frames[g]?.map (·.outer)).map (·.map place')
    by_cases hg : g < m.frames.size
    · have hold : k.frames[place g]?.map (·.outer) = (m.frames[g]?.map (·.outer)).map (·.map place) :=
        h.outer g
      rw [hplace g hg, hkept g hg, hold]
      -- the outer frame has been made, so it is where it was
      cases hframe : m.frames[g]? with
      | none => rfl
      | some frame =>
        cases hi : frame.outer with
        | none => simp [hi]
        | some i =>
          have hlt : i < m.frames.size := by
            apply houter g i
            rw [Machine.outer?, hframe, Option.bind_some, hi]
          simp [hi, hplace i hlt]
    · have hle := Nat.le_of_not_lt hg
      rw [Array.getElem?_eq_none (hnone hle), Array.getElem?_eq_none hle]
      rfl
  · intro g
    show (placement place' l.frames).Bound (m.bindings g) (l.bindings (place' g))
    by_cases hg : g < m.frames.size
    · have hsame : l.bindings (place' g) = k.bindings (place g) := by
        rw [hplace g hg, Machine.bindings, Machine.bindings, hkept g hg]
      rw [hsame]
      exact (h.bound g).move hplace (hbelow g)
    · have hle := Nat.le_of_not_lt hg
      rw [Machine.bindings_of_size_le hle, Machine.bindings_of_size_le (hnone hle)]
      exact fun _ _ _ => .none

/-! ## Source texts -/

/-- What is read has no frames in it, so it is placed as it is. -/
theorem placement_reads (limit : Nat) (source : Text) :
    (placement place store).Reads limit limit source source := by
  apply reads_self
  intro e hread
  have hreflexive : (placement id store).Reflexive :=
    ⟨fun _ => rfl, fun _ => rfl, fun _ => rfl, Iff.rfl, fun _ => rfl⟩
  have hnothing : e.Everywhere (Value.CapturesBelow 0) :=
    Source.everywhere_read (fun _ => trivial) (fun _ _ => Source.everywhere_ofAtom
      (fun _ => trivial) (fun _ _ => trivial) (fun _ => trivial) fun _ => trivial) hread
  exact Values.move (fun g hg => absurd hg (Nat.not_lt_zero g)) e e (hreflexive.values e) hnothing

end Simulation

end SmallLisp
