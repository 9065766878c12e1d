import SmallLisp.Proofs.Evaluation.Frames

/-!
# `Proofs.Evaluation.Writes` — what a frame reads after a write to another one

A name is read from the nearest frame that binds it, on the way outwards from the frame of the reader. A write
changes one binding of one frame, so it is seen by those readers whose search ends at that binding, and by
no other. After a definition these are the readers to which the frame is *exposed* (`Machine.Exposes`): they
get to it without passing a binding of the name. An assignment has a binding to change, and moves no search
at all, so there they are the readers whose search ended at the binding before.

All of this is about a forest of scopes (`Machine.IsForest`), and in a forest a lookup goes outwards one frame
at a time (`IsForest.lookup?_eq`). The lemmas are about the three functions that search and write; the theorem
`read_after_write` is about the actions that an embedding program has, with names that need not be symbols.
-/

namespace SmallLisp

namespace Machine

/-- **A forest of scopes.** An outer frame is older than the frames inside it; frames are numbered in the
    order in which they are made. So the way outwards from a frame goes round in no circle. -/
def IsForest (m : Machine) : Prop := ∀ f g, m.outer? f = some g → g < f

/-- **Exposure.** Frame `e` is on the way outwards from a frame, and no frame before it binds the name. -/
inductive Exposes (m : Machine) (name : Text) (e : FrameId) : FrameId → Prop
  | here : Exposes m name e e
  | out {f g : FrameId} (hf : m.local? name f = none) (h : m.outer? f = some g)
      (hg : Exposes m name e g) : Exposes m name e f

/-- What a lookup of `name` from frame `f` ends with. -/
def reading (m : Machine) (name : Text) (f : FrameId) : Except Fault Value :=
  ((Action.lookup name f).on m).1

/-- **A write as its readers see it.** A lookup that `sees` it has the new value, and any other one ends as
    before. -/
def Rewritten (m after : Machine) (value : Value) (sees : Text → FrameId → Prop) : Prop :=
  ∀ name f, (sees name f → after.reading name f = .ok value) ∧
    (¬ sees name f → after.reading name f = m.reading name f)

variable {m n : Machine} {e f g : FrameId} {name other : Text} {v : Value}

/-! ## Searches in a forest -/

theorem find?_of_size_le (h : m.frames.size ≤ f) : m.find? name f = none := by
  rw [find?, chain, Array.getElem?_eq_none h, List.find?_nil]

namespace IsForest

/-- A name is looked for in the frame itself, and then in its outer frame. -/
theorem find?_eq (h : m.IsForest) (name : Text) (f : FrameId) :
    m.find? name f =
      if (m.local? name f).isSome then some f else (m.outer? f).bind (m.find? name) := by
  cases hf : m.outer? f with
  | some g =>
    rw [find?_out hf (h f g hf)]
    rfl
  | none =>
    by_cases hlt : f < m.frames.size
    · rw [find?, chain_last hlt hf, List.find?_singleton]
      rfl
    · -- a frame that is not there binds nothing
      have hle := Nat.le_of_not_lt hlt
      rw [find?_of_size_le hle, local?_eq_lookup, bindings_of_size_le hle]
      rfl

/-- What a frame binds itself comes before what it reads from its outer frame. -/
theorem lookup?_eq (h : m.IsForest) (name : Text) (f : FrameId) :
    m.lookup? name f = (m.local? name f).or ((m.outer? f).bind (m.lookup? name)) := by
  unfold lookup?
  rw [h.find?_eq]
  cases hlocal : m.local? name f with
  | some v => exact hlocal
  | none => cases m.outer? f <;> rfl

theorem define (h : m.IsForest) (name : Text) (v : Value) (e : FrameId) :
    (m.define name v e).IsForest := by
  intro f g hg
  rw [outer?_define] at hg
  exact h f g hg

end IsForest

theorem reading_congr (h : m.lookup? name f = n.lookup? name f) : m.reading name f = n.reading name f := by
  unfold reading
  rw [Action.on_lookup, Action.on_lookup, h]

theorem reading_of_lookup? (h : m.lookup? name f = some v) : m.reading name f = .ok v := by
  unfold reading
  rw [Action.on_lookup, h]

/-! ## After a definition -/

theorem local?_define_ne (he : e < m.frames.size) (h : ¬ (g = e ∧ other = name)) :
    (m.define name v e).local? other g = m.local? other g := by
  rw [local?_define m name other v e g he, if_neg h]

/-- A definition changes no search for another name. -/
theorem lookup?_define_of_ne (hne : other ≠ name) (f : FrameId) :
    (m.define name v e).lookup? other f = m.lookup? other f := by
  have hlocal : (m.define name v e).local? other = m.local? other :=
    funext fun _ => local?_define_of_ne hne
  unfold lookup? find?
  rw [chain_define, hlocal]

/-- **A reader to which the frame is exposed reads the new value.** -/
theorem lookup?_define_of_exposes (hm : m.IsForest) (he : e < m.frames.size)
    (h : m.Exposes name e f) : (m.define name v e).lookup? name f = some v := by
  have hforest := hm.define name v e
  induction h with
  | here => rw [hforest.lookup?_eq, local?_define m name name v e e he, if_pos ⟨rfl, rfl⟩, Option.some_or]
  | @out f g hf hg _ ih =>
    by_cases hfe : f = e
    · rw [hforest.lookup?_eq, local?_define m name name v e f he, if_pos ⟨hfe, rfl⟩, Option.some_or]
    · -- on the way to the frame nothing is found
      rw [hforest.lookup?_eq, local?_define_ne he fun h => hfe h.1, hf, Option.none_or, outer?_define, hg]
      exact ih

/-- **Any other reader reads what it did.** -/
theorem lookup?_define_of_not_exposes (hm : m.IsForest) (he : e < m.frames.size)
    (h : ¬ m.Exposes name e f) : (m.define name v e).lookup? name f = m.lookup? name f := by
  have hforest := hm.define name v e
  -- outwards frames are older, so the induction is on the frame
  induction f using Nat.strongRecOn with
  | _ f ih =>
    have hfe : f ≠ e := by
      rintro rfl
      exact h .here
    rw [hforest.lookup?_eq, hm.lookup?_eq, local?_define_ne he fun h => hfe h.1, outer?_define]
    cases hlocal : m.local? name f with
    | some w => rfl
    | none =>
      cases hg : m.outer? f with
      | none => rfl
      | some g => exact ih g (hm f g hg) fun hexposes => h (.out hlocal hg hexposes)

theorem rewritten_define (hm : m.IsForest) (he : e < m.frames.size) (name : Text) (v : Value) :
    m.Rewritten (m.define name v e) v fun other f => other = name ∧ m.Exposes name e f := by
  intro other f
  constructor
  · rintro ⟨rfl, hexposes⟩
    exact reading_of_lookup? (lookup?_define_of_exposes hm he hexposes)
  · intro hno
    apply reading_congr
    by_cases hother : other = name
    · subst hother
      exact lookup?_define_of_not_exposes hm he fun hexposes => hno ⟨rfl, hexposes⟩
    · exact lookup?_define_of_ne hother f

/-! ## After an assignment -/

theorem isSome_local?_of_find? (h : m.find? name e = some g) : (m.local? name g).isSome := by
  simpa using List.find?_some h

theorem lt_size_of_isSome_local? (h : (m.local? name g).isSome) : g < m.frames.size := by
  apply Nat.lt_of_not_le
  intro hle
  rw [local?_eq_lookup, bindings_of_size_le hle] at h
  cases h

/-- **An assignment moves no search**: the binding that it changes was there before. -/
theorem find?_define_of_isSome (hbound : (m.local? name g).isSome) (other : Text) (f : FrameId) :
    (m.define name v g).find? other f = m.find? other f := by
  have hbinds (i : FrameId) :
      ((m.define name v g).local? other i).isSome = (m.local? other i).isSome := by
    rw [local?_define m name other v g i (lt_size_of_isSome_local? hbound)]
    split
    · rename_i h
      rw [h.1, h.2, hbound]
      rfl
    · rfl
  unfold find?
  simp only [chain_define, hbinds]

/-- A reader whose search ends at the binding reads the new value, and any other one what it did. -/
theorem lookup?_define_of_isSome (hbound : (m.local? name g).isSome) (other : Text) (f : FrameId) :
    (m.define name v g).lookup? other f =
      if other = name ∧ m.find? name f = some g then some v else m.lookup? other f := by
  have hg := lt_size_of_isSome_local? hbound
  unfold lookup?
  rw [find?_define_of_isSome hbound]
  cases hfound : m.find? other f with
  | none =>
    have hno : ¬ (other = name ∧ m.find? name f = some g) := by
      rintro ⟨rfl, hsame⟩
      rw [hfound] at hsame
      cases hsame
    rw [if_neg hno]
    rfl
  | some i =>
    show (m.define name v g).local? other i = _
    rw [local?_define m name other v g i hg]
    have hiff : (i = g ∧ other = name) ↔ (other = name ∧ m.find? name f = some g) := by
      constructor
      · rintro ⟨rfl, rfl⟩
        exact ⟨rfl, hfound⟩
      · rintro ⟨rfl, hsame⟩
        exact ⟨Option.some.inj (hfound.symm.trans hsame), rfl⟩
    simp only [hiff]
    rfl

theorem rewritten_assign (hbound : (m.local? name g).isSome) (v : Value) :
    m.Rewritten (m.define name v g) v fun other f => other = name ∧ m.find? name f = some g := by
  intro other f
  constructor
  · intro hsees
    apply reading_of_lookup?
    rw [lookup?_define_of_isSome hbound, if_pos hsees]
  · intro hno
    apply reading_congr
    rw [lookup?_define_of_isSome hbound, if_neg hno]

end Machine

/-! ## The actions of an embedding program -/

namespace Value

variable {m : Machine} {f : FrameId} {bad value : Value}

/-- What is not a symbol can neither be bound nor assigned to. -/
theorem on_defineIn_of_not_symbol (h : ∀ s, bad ≠ .symbol s) (depth : Nat) (value : Value) (f : FrameId)
    (m : Machine) : ∃ fault, (bad.defineIn depth value f).on m = (.error fault, m) := by
  have hrefuse : ∃ fault, (Action.ofExcept (ArgumentFault.refuse .boundName (bad.inspected depth)) :
      Action Unit).on m = (.error fault, m) := by
    rw [Action.on_ofExcept]
    cases bad.inspected depth with
    | ok text => exact ⟨_, rfl⟩
    | error fault => exact ⟨fault, rfl⟩
  cases bad with
  | symbol s => exact absurd rfl (h s)
  | _ => exact hrefuse

theorem on_assignIn_of_not_symbol (h : ∀ s, bad ≠ .symbol s) (depth : Nat) (value : Value) (f : FrameId)
    (m : Machine) : ∃ fault, (bad.assignIn depth value f).on m = (.error fault, m) := by
  have hrefuse : ∃ fault, ((do throw (.unassignable (← Action.ofExcept (bad.labelled depth)))) :
      Action Unit).on m = (.error fault, m) := by
    rw [Action.on_bind, Action.on_ofExcept]
    cases bad.labelled depth with
    | ok text => exact ⟨_, rfl⟩
    | error fault => exact ⟨fault, rfl⟩
  cases bad with
  | symbol s => exact absurd rfl (h s)
  | list items => exact ⟨_, rfl⟩
  | _ => exact hrefuse

/-- The names of a mapping are bound in their order, as long as they are symbols. -/
theorem on_defineAllIn_append (depth : Nat) (bindings : Bindings) (rest : List (Value × Value)) (f : FrameId)
    (m : Machine) :
    (defineAllIn depth (bindings.map (fun b => (.symbol b.1, b.2)) ++ rest) f).on m =
      (defineAllIn depth rest f).on (bindings.foldl (fun n b => n.define b.1 b.2 f) m) := by
  induction bindings generalizing m with
  | nil => rfl
  | cons b tail ih =>
    show (Action.define b.1 b.2 f >>= fun _ => defineAllIn depth _ f).on m = _
    rw [Action.on_bind]
    exact ih (m.define b.1 b.2 f)

end Value

namespace Machine

/-- **Reading after writing.** In a forest of scopes, frame `e` gives the name `name` a value.

    By a definition: from then on a lookup of the name has this value in every frame to which `e` is exposed,
    and every other lookup ends as before. By an assignment, which succeeds exactly if the name is
    bound for `e`: from then on a lookup of the name has this value in every frame whose search for it ends
    where that of `e` does, and every other lookup ends as before; every search ends where it did, so no
    binding is made. A failed assignment changes nothing, nor does a write to what is no symbol. A
    mapping is written by one definition after the other, up to the first name that is no symbol. -/
theorem read_after_write {m : Machine} (hm : m.IsForest) {e : FrameId} (he : e < m.frames.size)
    (name : Text) (value : Value) (depth : Nat) :
    (∃ after, ((Value.symbol name).defineIn depth value e).on m = (.ok (), after) ∧
      m.Rewritten after value fun other f => other = name ∧ m.Exposes name e f) ∧
    (∀ g, m.find? name e = some g →
      ∃ after, ((Value.symbol name).assignIn depth value e).on m = (.ok (), after) ∧
        m.Rewritten after value (fun other f => other = name ∧ m.find? name f = some g) ∧
        ∀ other f, after.find? other f = m.find? other f) ∧
    (m.find? name e = none →
      ((Value.symbol name).assignIn depth value e).on m = (.error (.unassignable name), m)) ∧
    (∀ bad : Value, (∀ s, bad ≠ .symbol s) →
      (∃ fault, (bad.assignIn depth value e).on m = (.error fault, m)) ∧
      ∃ fault, (bad.defineIn depth value e).on m = (.error fault, m)) ∧
    ∀ bindings : Bindings,
      let mapping : List (Value × Value) := bindings.map fun b => (.symbol b.1, b.2)
      let after := bindings.foldl (fun n b => n.define b.1 b.2 e) m
      (Value.defineAllIn depth mapping e).on m = (.ok (), after) ∧
      ∀ bad v rest, (∀ s, bad ≠ Value.symbol s) →
        ∃ fault, (bad.defineIn depth v e).on after = (.error fault, after) ∧
          (Value.defineAllIn depth (mapping ++ (bad, v) :: rest) e).on m = (.error fault, after) := by
  refine ⟨⟨_, rfl, rewritten_define hm he name value⟩, ?assigned, ?unbound, ?notSymbol, ?update⟩
  case assigned =>
    intro g hg
    have hbound := isSome_local?_of_find? hg
    refine ⟨m.define name value g, ?_, rewritten_assign hbound value, find?_define_of_isSome hbound⟩
    show (Action.assign name value e).on m = _
    rw [Action.on_assign, assign?, hg]
    rfl
  case unbound =>
    intro hnone
    show (Action.assign name value e).on m = _
    rw [Action.on_assign, assign?, hnone]
    rfl
  case notSymbol =>
    intro bad hbad
    exact ⟨Value.on_assignIn_of_not_symbol hbad depth value e m,
      Value.on_defineIn_of_not_symbol hbad depth value e m⟩
  case update =>
    intro bindings mapping after
    constructor
    · have hall := Value.on_defineAllIn_append depth bindings [] e m
      rwa [List.append_nil] at hall
    · intro bad v rest hbad
      obtain ⟨fault, hfault⟩ := Value.on_defineIn_of_not_symbol hbad depth v e after
      refine ⟨fault, hfault, ?_⟩
      rw [Value.on_defineAllIn_append]
      show (bad.defineIn depth v e >>= fun _ => Value.defineAllIn depth rest e).on after = _
      rw [Action.on_bind, hfault]

/-- Three frames inside one another, of which the outermost and the innermost bind `x`. A definition in the
    middle one is seen there, and neither outside nor inside. -/
theorem read_after_write_shadowed :
    let outermost := ((empty .texts).allocate [("x", .truth true)] none).2
    let m := ((outermost.allocate [] (some 0)).2.allocate [("x", .truth false)] (some 1)).2
    m.IsForest ∧ 1 < m.frames.size ∧
      ∃ after, ((Value.symbol "x").defineIn 9 (.text "new") 1).on m = (.ok (), after) ∧
        after.reading "x" 1 = .ok (.text "new") ∧
        after.reading "x" 2 = m.reading "x" 2 ∧ after.reading "x" 0 = m.reading "x" 0 := by
  intro outermost m
  have hm : m.IsForest := by
    intro f g hg
    match f with
    | 0 => cases hg
    | 1 => exact Option.some.inj hg ▸ Nat.zero_lt_one
    | 2 => exact Option.some.inj hg ▸ Nat.one_lt_two
    | f + 3 => cases hg
  have hsize : 1 < m.frames.size := by decide
  obtain ⟨⟨after, hdefine, hseen⟩, _⟩ := read_after_write hm hsize "x" (.text "new") 9
  -- the innermost frame binds the name itself, and the outermost one is not inside the one in the middle
  have hinside : ¬ m.Exposes "x" 1 2 := by
    intro h
    cases h with
    | out hf => cases hf
  have houtside : ¬ m.Exposes "x" 1 0 := by
    intro h
    cases h with
    | out _ hg => cases hg
  exact ⟨hm, hsize, after, hdefine, (hseen "x" 1).1 ⟨rfl, .here⟩, (hseen "x" 2).2 fun h => hinside h.2,
    (hseen "x" 0).2 fun h => houtside h.2⟩

end Machine

end SmallLisp
