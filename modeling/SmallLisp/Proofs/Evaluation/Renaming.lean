import Mathlib.Data.Set.Finite.Basic
import Mathlib.Logic.Equiv.Basic
import SmallLisp.Proofs.Evaluation.Refusals

/-!
# `Proofs.Evaluation.Renaming` — names are opaque

A name means what it is bound to, and nothing by itself. So an evaluation goes on as before when all names are
replaced one to one, in the expression and in the frames with what they hold: it ends with the renamed value
or with a fault of the same kind, and leaves the renamed frames (`eval_renamed`). Only an output stream may
tell one name from another, by refusing a line with the one in it; so the evaluations are compared on streams of
texts (`renamed_on_texts`), where they come to the same as far as no line is refused (`eval_on_texts`).

The two evaluations are compared by the simulation `renamed`, under which names stand for one another by a
relation that is one to one, and the texts of values are not compared: names show in them. By the relation
`t = ρ s` the second evaluation is the renamed first one as far as the names go that `ρ` gives. That it binds
no other name is seen with another relation, which pairs a name that `ρ` does not give with one that is not
bound either (`local?_unreached`).
-/

namespace SmallLisp

/-! ## Renaming -/

mutual

/-- The value with its symbols renamed: in lists, and in the formals, the body and the name of a closure.
    Texts are not names. -/
def Value.rename (ρ : Text → Text) : Value → Value
  | .symbol name => .symbol (ρ name)
  | .list items => .list (renameEach ρ items)
  | .closure formals body scope strict name =>
    .closure (renameEach ρ formals) (renameEach ρ body) scope strict (name.map ρ)
  | .number x => .number x
  | .text s => .text s
  | .truth b => .truth b
  | .primitive p => .primitive p
  | .special form => .special form
  | .embedded e => .embedded e

/-- The values of a list, renamed. -/
def Value.renameEach (ρ : Text → Text) : List Value → List Value
  | [] => []
  | v :: rest => v.rename ρ :: renameEach ρ rest

end

mutual

theorem Value.rename_id : (v : Value) → v.rename id = v
  | .symbol _ | .number _ | .text _ | .truth _ | .primitive _ | .special _ | .embedded _ => rfl
  | .list items => by rw [rename, renameEach_id items]
  | .closure formals body _ _ name => by
    rw [rename, renameEach_id formals, renameEach_id body, Option.map_id, id]

theorem Value.renameEach_id : (vs : List Value) → renameEach id vs = vs
  | [] => rfl
  | v :: rest => by rw [renameEach, rename_id v, renameEach_id rest]

end

/-- A binding with its name and its value renamed. -/
def renameBinding (ρ : Text → Text) (b : Text × Value) : Text × Value := (ρ b.1, b.2.rename ρ)

/-- The frame with its bindings renamed. -/
def Frame.rename (ρ : Text → Text) (frame : Frame) : Frame :=
  { frame with bindings := frame.bindings.map (renameBinding ρ) }

namespace Machine

/-- The machine with all its frames renamed. What it has printed stays. -/
def rename (ρ : Text → Text) (m : Machine) : Machine :=
  { m with frames := m.frames.map (Frame.rename ρ) }

/-- **A renamed state**: the frames of the renamed machine inside one another as they are there, which bind
    the same names to the same values, and as many printed lines. -/
structure Renamed (ρ : Text → Text) (m n : Machine) : Prop where
  size : n.frames.size = (m.rename ρ).frames.size
  outer? : ∀ f, n.outer? f = (m.rename ρ).outer? f
  local? : ∀ name f, n.local? name f = (m.rename ρ).local? name f
  lines : n.printed.size = m.printed.size

variable {σ ρ : Text → Text} {m n : Machine}

theorem size_rename (ρ : Text → Text) (m : Machine) : (m.rename ρ).frames.size = m.frames.size := by
  simp [rename]

theorem outer_rename (ρ : Text → Text) (m : Machine) (g : FrameId) :
    (m.rename ρ).frames[g]?.map (·.outer) = m.frames[g]?.map (·.outer) := by
  simp [rename, Frame.rename, Function.comp_def]

theorem bindings_rename (ρ : Text → Text) (m : Machine) (g : FrameId) :
    (m.rename ρ).bindings g = (m.bindings g).map (renameBinding ρ) := by
  unfold Machine.bindings rename
  rw [Array.getElem?_map]
  cases m.frames[g]? <;> rfl

theorem outer?_rename (ρ : Text → Text) (m : Machine) (g : FrameId) :
    (m.rename ρ).outer? g = m.outer? g := by
  have h := outer_rename ρ m g
  unfold outer?
  cases hm : m.frames[g]? <;> cases hn : (m.rename ρ).frames[g]? <;> simp_all

theorem rename_id (m : Machine) : m.rename id = m := by
  have hbinding : renameBinding id = id := funext fun b => congrArg (Prod.mk b.1) b.2.rename_id
  have hframe : Frame.rename id = id := funext fun frame => by rw [Frame.rename, hbinding, List.map_id, id]
  rw [rename, hframe, Array.map_id]

/-- A renamed name is bound to the renamed value. -/
theorem local?_rename (hρ : Function.Injective ρ) (m : Machine) (s : Text) (g : FrameId) :
    (m.rename ρ).local? (ρ s) g = (m.local? s g).map (Value.rename ρ) := by
  rw [local?_eq_lookup, local?_eq_lookup, bindings_rename]
  induction m.bindings g with
  | nil => rfl
  | cons b rest ih =>
    have hbeq : (ρ s == ρ b.1) = (s == b.1) := by
      rw [Bool.eq_iff_iff, beq_iff_eq, beq_iff_eq, hρ.eq_iff]
    rw [List.map_cons, renameBinding, List.lookup_cons, List.lookup_cons, hbeq, ih]
    cases s == b.1 <;> rfl

/-- No other name is bound in a renamed machine. -/
theorem local?_rename_of_notMem {t : Text} (ht : t ∉ Set.range ρ) (m : Machine) (g : FrameId) :
    (m.rename ρ).local? t g = none := by
  rw [local?_eq_lookup, bindings_rename, List.lookup_eq_none_iff]
  rintro _ hmem
  obtain ⟨b, _, rfl⟩ := List.mem_map.1 hmem
  exact bne_iff_ne.2 fun h => ht ⟨b.1, h.symm⟩

/-- Some name of infinitely many is not bound in a frame. -/
theorem exists_local?_eq_none {names : Set Text} (h : names.Infinite) (m : Machine) (f : FrameId) :
    ∃ s ∈ names, m.local? s f = none := by
  obtain ⟨s, hs, hfree⟩ := h.exists_notMem_finset (m.names f).toFinset
  rw [List.mem_toFinset, ← isSome_local?_iff, Option.not_isSome_iff_eq_none] at hfree
  exact ⟨s, hs, hfree⟩

end Machine

/-! ## The simulation -/

namespace Simulation

/-- **The simulation of a renamed evaluation.** Names stand for one another by a relation, and so do the names
    of closures; all texts stand for one another. -/
def renamed (related : Text → Text → Prop) : Simulation where
  name := related
  policy := Eq
  label := Option.Rel related
  text _ _ := True
  frame := id
  apart _ := none
  escapes _ := False

/-- Values that stand for one another are written alike: both are, or neither for one reason. -/
def WrittenAlike {α : Type} (outcome outcome' : Except HostFault α) : Prop :=
  outcome.map (fun _ => ()) = outcome'.map fun _ => ()

theorem WrittenAlike.bind {α β : Type} {outcome outcome' : Except HostFault α}
    {next next' : α → Except HostFault β} (h : WrittenAlike outcome outcome')
    (hn : ∀ a b, WrittenAlike (next a) (next' b)) : WrittenAlike (outcome >>= next) (outcome' >>= next') := by
  cases outcome with
  | ok a =>
    cases outcome' with
    | ok b => exact hn a b
    | error why => cases h
  | error why =>
    cases outcome' with
    | ok b => cases h
    | error why' =>
      cases h
      rfl

theorem WrittenAlike.mapM {related : Value → Value → Prop} {g g' : Value → Except HostFault Text}
    {vs ws : List Value} (h : List.Forall₂ related vs ws)
    (hg : ∀ v w, related v w → WrittenAlike (g v) (g' w)) : WrittenAlike (vs.mapM g) (ws.mapM g') := by
  induction h with
  | nil => rfl
  | cons hvw _ ih =>
    rw [List.mapM_cons, List.mapM_cons]
    exact (hg _ _ hvw).bind fun _ _ => ih.bind fun _ _ => rfl

variable {S : Simulation} {related : Text → Text → Prop} {σ ρ : Text → Text}

theorem Values.render_alike {v w : Value} (h : S.Values v w) (d : Nat) :
    WrittenAlike (v.render d) (w.render d) := by
  -- on the limit: a closure is written as the two lists that it is made of
  induction d generalizing v w with
  | zero => rfl
  | succ d ih =>
    cases h with
    | list hitems => exact (WrittenAlike.mapM hitems fun _ _ => ih).bind fun _ _ => rfl
    | closure hf hb => exact (ih (.list hf)).bind fun _ _ => (ih (.list hb)).bind fun _ _ => rfl
    | _ => rfl

theorem Values.inspect_alike {v w : Value} (h : S.Values v w) (d : Nat) :
    WrittenAlike (v.inspect d) (w.inspect d) := by
  induction d generalizing v w with
  | zero => rfl
  | succ d ih =>
    have hrender := h.render_alike (d + 1)
    cases h with
    | list hitems => exact (WrittenAlike.mapM hitems fun _ _ => ih).bind fun _ _ => rfl
    | special | closure => exact hrender
    | _ => rfl

theorem WrittenAlike.ends (htext : ∀ s t, S.text s t) {outcome outcome' : Except HostFault Text}
    (h : WrittenAlike outcome outcome') :
    S.Ends S.text (outcome.mapError .host) (outcome'.mapError .host) := by
  cases outcome with
  | ok s =>
    cases outcome' with
    | ok t => exact .ok (htext s t)
    | error why => cases h
  | error why =>
    cases outcome' with
    | ok t => cases h
    | error why' =>
      cases h
      exact .error (.host why)

/-- Any relation of names that is one to one can be that of two evaluations. -/
theorem renamed_lawful (h : ∀ {s s' t t'}, related s t → related s' t' → (s = s' ↔ t = t')) :
    (renamed related).Lawful where
  name_iff := h
  frame := strictMono_id
  policy := .inl
  unnamed := .none
  named := .some
  written hv hd := by
    obtain rfl := hd.eq id
    exact (hv.render_alike _).ends fun _ _ => trivial
  inspected hv hd := by
    obtain rfl := hd.eq id
    exact (hv.inspect_alike _).ends fun _ _ => trivial
  joined _ := trivial
  reflexive he := he.elim
  guarded he := he.elim

/-! ## Values and machines under two renamings -/

mutual

/-- A value renamed in two ways stands for itself, if every name does. -/
theorem values_rename (h : ∀ s, related (σ s) (ρ s)) :
    (v : Value) → (renamed related).Values (v.rename σ) (v.rename ρ)
  | .symbol name => .symbol (h name)
  | .list items => .list (values_renameEach h items)
  | .closure formals body scope _ name =>
    .closure (values_renameEach h formals) (values_renameEach h body) scope rfl <|
      match name with
      | none => .none
      | some name => .some (h name)
  | .number x => .number x
  | .text s => .text s
  | .truth b => .truth b
  | .primitive p => .primitive p
  | .special form => .special (.refl (fun _ => rfl) form)
  | .embedded e => .embedded e

theorem values_renameEach (h : ∀ s, related (σ s) (ρ s)) : (vs : List Value) →
    List.Forall₂ (renamed related).Values (Value.renameEach σ vs) (Value.renameEach ρ vs)
  | [] => .nil
  | v :: rest => .cons (values_rename h v) (values_renameEach h rest)

end

theorem label_rename {name name' : Option Text} (h : Option.Rel (fun s t => t = ρ s) name name') :
    name' = name.map ρ := by
  cases h with
  | some h => exact congrArg some h
  | none => rfl

mutual

/-- Where names stand for one another by a renaming, only the renamed value stands for a value. -/
theorem eq_rename : {v w : Value} → (renamed fun s t => t = ρ s).Values v w → w = v.rename ρ
  | _, _, .number _ | _, _, .text _ | _, _, .truth _ | _, _, .primitive _ | _, _, .embedded _ => rfl
  | _, _, .symbol h => congrArg Value.symbol h
  | _, _, .list h => congrArg Value.list (eq_renameEach h)
  | _, _, .special h => congrArg Value.special (h.eq_of_policy id).symm
  | _, _, .closure hf hb scope hp hl => by
    rw [Value.rename, eq_renameEach hf, eq_renameEach hb, label_rename hl, ← hp]
    rfl

theorem eq_renameEach : {vs ws : List Value} →
    List.Forall₂ (renamed fun s t => t = ρ s).Values vs ws → ws = Value.renameEach ρ vs
  | _, _, .nil => rfl
  | _, _, .cons h hs => congrArg₂ List.cons (eq_rename h) (eq_renameEach hs)

end

/-- **Names that two renamings pair**: those that both give to one name, and possibly others, which neither
    gives to any name. -/
structure Pairing (σ ρ : Text → Text) (related : Text → Text → Prop) : Prop where
  left : Function.Injective σ
  right : Function.Injective ρ
  name_iff {s s' t t' : Text} : related s t → related s' t' → (s = s' ↔ t = t')
  paired (s : Text) : related (σ s) (ρ s)
  cases {a b : Text} : related a b →
    (∃ s, a = σ s ∧ b = ρ s) ∨ a ∉ Set.range σ ∧ b ∉ Set.range ρ

namespace Pairing

variable (h : Pairing σ ρ related)

include h

/-- The machines of two renamings stand for one another. -/
theorem machines {m : Machine} (hm : m.output.TakesAll) :
    (renamed related).Machines (m.rename σ) (m.rename ρ) := by
  refine ⟨?_, ?_, ?_, ?_, ?_, ?_⟩
  · intro k
    rw [Machine.size_rename, Machine.size_rename]
    rfl
  · intro g
    show (m.rename ρ).frames[g]?.map (·.outer) = ((m.rename σ).frames[g]?.map (·.outer)).map (·.map id)
    rw [Machine.outer_rename, Machine.outer_rename, Option.map_id_fun, Option.map_id, id]
  · intro g a b hab
    rw [← Machine.local?_eq_lookup, ← Machine.local?_eq_lookup]
    show Option.Rel _ ((m.rename σ).local? a g) ((m.rename ρ).local? b g)
    rcases h.cases hab with ⟨s, rfl, rfl⟩ | ⟨ha, hb⟩
    · rw [Machine.local?_rename h.left, Machine.local?_rename h.right]
      cases m.local? s g with
      | none => exact .none
      | some v => exact .some (values_rename h.paired v)
    · rw [Machine.local?_rename_of_notMem ha, Machine.local?_rename_of_notMem hb]
      exact .none
  · intro g hg
    exact absurd rfl (hg g)
  · exact List.forall₂_same.2 fun _ _ => trivial
  · intro s t _
    exact .inl ((hm s).trans (hm t).symm)

/-- **An expression renamed in two ways is evaluated side by side.** -/
theorem agree_eval (limit : Nat) (f : FrameId) (e : Value) {m : Machine} (hm : m.output.TakesAll) :
    (renamed related).Agree (renamed related).Values
      ((eval limit f (e.rename σ)).on (m.rename σ)) ((eval limit f (e.rename ρ)).on (m.rename ρ)) :=
  ((renamed_lawful h.name_iff).parallel_eval (.inl rfl) f (values_rename h.paired e)).agree (h.machines hm)

end Pairing

/-- The comparison ends with no fault, so there are always machines to compare. -/
theorem Agree.machines {α : Type} {good : α → α → Prop} {left right : Except Fault α × Machine}
    (h : (renamed related).Agree good left right) : (renamed related).Machines left.2 right.2 := by
  cases h with
  | ok _ hm => exact hm
  | error _ hm => exact hm
  | escape he => exact he.elim

/-! ## No other names -/

/-- A renaming that leaves infinitely many names out. -/
def aside (s : Text) : Text := "x" ++ s

theorem aside_injective : Function.Injective aside := fun _ _ h => (Text.append_right_inj "x").1 h

instance : Infinite Text :=
  have : Nonempty CodePoint := ⟨.char 'x'⟩
  Infinite.of_injective Text.ofList fun _ _ h => Text.ofList.inj h

/-- A name of infinitely many that `aside` does not give. -/
theorem infinite_compl_range_aside : (Set.range aside)ᶜ.Infinite := by
  have hinjective : Function.Injective fun s : Text => "y" ++ s :=
    fun _ _ h => (Text.append_right_inj "y").1 h
  refine (Set.infinite_range_of_injective hinjective).mono ?_
  rintro _ ⟨s, rfl⟩ ⟨t, h⟩
  have hchars := congrArg Text.toList h
  simp [aside] at hchars

/-- A renaming and `aside` pair names, and one more name on each side. -/
theorem pairing_aside (hρ : Function.Injective ρ) {a t : Text} (ha : a ∉ Set.range aside)
    (ht : t ∉ Set.range ρ) :
    Pairing aside ρ fun x y => (∃ s, x = aside s ∧ y = ρ s) ∨ x = a ∧ y = t where
  left := aside_injective
  right := hρ
  name_iff := by
    rintro _ _ _ _ (⟨s, rfl, rfl⟩ | ⟨rfl, rfl⟩) (⟨s', rfl, rfl⟩ | ⟨rfl, rfl⟩)
    · rw [aside_injective.eq_iff, hρ.eq_iff]
    · exact iff_of_false (fun e => ha ⟨s, e⟩) fun e => ht ⟨s, e⟩
    · exact iff_of_false (fun e => ha ⟨s', e.symm⟩) fun e => ht ⟨s', e.symm⟩
    · exact iff_of_true rfl rfl
  paired s := .inl ⟨s, rfl, rfl⟩
  cases := by
    rintro _ _ (h | ⟨rfl, rfl⟩)
    · exact .inl h
    · exact .inr ⟨ha, ht⟩

/-- **A name that the renaming does not give stays unbound.** -/
theorem local?_unreached (hρ : Function.Injective ρ) {t : Text} (ht : t ∉ Set.range ρ) (limit : Nat)
    (f : FrameId) (e : Value) {m : Machine} (hm : m.output.TakesAll) (g : FrameId) :
    ((eval limit f (e.rename ρ)).on (m.rename ρ)).2.local? t g = none := by
  -- a name that is not bound there stands for `t`, whatever is bound in the end
  obtain ⟨a, ha, hfree⟩ := Machine.exists_local?_eq_none infinite_compl_range_aside
    ((eval limit f (e.rename aside)).on (m.rename aside)).2 g
  have hmachines := ((pairing_aside hρ ha ht).agree_eval limit f e hm).machines
  have hrel := hmachines.local? (.inr ⟨rfl, rfl⟩) g
  rw [hfree] at hrel
  generalize htarget : Machine.local? _ t _ = target at hrel
  cases hrel
  exact htarget

/-! ## The renamed evaluation -/

theorem pairing_self (hρ : Function.Injective ρ) : Pairing id ρ fun s t => t = ρ s where
  left := Function.injective_id
  right := hρ
  name_iff := by
    rintro s s' _ _ rfl rfl
    exact hρ.eq_iff.symm
  paired _ := rfl
  cases h := .inl ⟨_, rfl, h⟩

end Simulation

/-- A machine is renamed whatever it prints on. -/
theorem Machine.onTexts_rename (ρ : Text → Text) (m : Machine) :
    (m.rename ρ).onTexts = m.onTexts.rename ρ := rfl

/-- **A renamed outcome**: the renamed value, or a fault of the same kind. -/
def RenamedOutcome (ρ : Text → Text) (outcome outcome' : Except Fault Value) : Prop :=
  match outcome, outcome' with
  | .ok v, .ok w => w = v.rename ρ
  | .error fault, .error fault' => fault'.kind = fault.kind
  | _, _ => False

variable {ρ : Text → Text}

/-- Outcomes that go together under one renaming are renamed outcomes. -/
theorem Simulation.Agree.renamed {left right : Except Fault Value × Machine}
    (h : (renamed fun s t => t = ρ s).Agree (renamed fun s t => t = ρ s).Values left right) :
    RenamedOutcome ρ left.1 right.1 := by
  cases h with
  | ok hv => exact eq_rename hv
  | error hf => exact hf.kind_eq.symm
  | escape he => exact he.elim

/-- Machines that stand for one another under a renaming are renamed, if the second one binds no name that
    the renaming does not give. -/
theorem Simulation.Machines.renamed (hρ : Function.Injective ρ) {m n : Machine}
    (h : (renamed fun s t => t = ρ s).Machines m n)
    (hrange : ∀ t ∉ Set.range ρ, ∀ g, n.local? t g = none) : m.Renamed ρ n where
  size := by
    rw [Machine.size_rename]
    exact h.frame_size.symm
  outer? g := by
    have houter := h.outer? g
    rw [Machine.outer?_rename]
    exact houter.trans (congrFun Option.map_id_fun _)
  local? t g := by
    by_cases ht : t ∈ Set.range ρ
    · obtain ⟨s, rfl⟩ := ht
      have hrel := h.local? (s := s) rfl g
      rw [Machine.local?_rename hρ]
      generalize m.local? s g = here, hthere : n.local? _ _ = there at hrel
      refine hthere.trans ?_
      cases hrel with
      | some hv => exact congrArg some (eq_rename hv)
      | none => rfl
    · rw [hrange t ht, Machine.local?_rename_of_notMem ht]
  lines := h.printed.length_eq.symm

/-- What is renamed of the same state is renamed of the state, also if it is the same as what is found. -/
theorem Machine.Renamed.of_same {m n m' n' : Machine} (h : m'.Renamed ρ n') (hm : m.Same m')
    (hn : n.Same n') (hρ : Function.Injective ρ) : m.Renamed ρ n where
  size := by
    rw [Machine.size_rename, ← hn.size, h.size, Machine.size_rename, hm.size]
  outer? g := by
    rw [Machine.outer?_rename, ← hn.outer?, h.outer?, Machine.outer?_rename, hm.outer?]
  local? t g := by
    rw [← hn.local?, h.local?]
    by_cases ht : t ∈ Set.range ρ
    · obtain ⟨s, rfl⟩ := ht
      rw [Machine.local?_rename hρ, Machine.local?_rename hρ, hm.local?]
    · rw [Machine.local?_rename_of_notMem ht, Machine.local?_rename_of_notMem ht]
  lines := by rw [← hn.printed, h.lines, hm.printed]

/-- On a stream of texts an evaluation does not depend on the choice of names. -/
theorem renamed_on_texts (hρ : Function.Injective ρ) (limit : Nat) (f : FrameId) (e : Value) (m : Machine) :
    RenamedOutcome ρ ((eval limit f e).on m.onTexts).1
        ((eval limit f (e.rename ρ)).on (m.rename ρ).onTexts).1 ∧
      ((eval limit f e).on m.onTexts).2.Renamed ρ
        ((eval limit f (e.rename ρ)).on (m.rename ρ).onTexts).2 := by
  have hm : m.onTexts.output.TakesAll := Stream.texts_takesAll
  have hagree := (Simulation.pairing_self hρ).agree_eval limit f e hm
  rw [Value.rename_id, Machine.rename_id, ← Machine.onTexts_rename] at hagree
  refine ⟨hagree.renamed, hagree.machines.renamed hρ fun t ht g => ?_⟩
  exact Simulation.local?_unreached hρ ht limit f e hm g

/-- No name occurs in the values that a new session binds. -/
theorem Value.rename_initial {strict : Bool} (ρ : Text → Text) :
    ∀ b ∈ Value.initial strict, b.2.rename ρ = b.2 := by
  intro b hb
  rw [initial, List.mem_append, List.mem_append] at hb
  rcases hb with (hb | hb) | hb
  · obtain ⟨p, _, rfl⟩ := List.mem_map.1 hb
    rfl
  · rcases List.mem_pair.1 hb with rfl | rfl <;> rfl
  · obtain ⟨form, _, rfl⟩ := List.mem_map.1 hb
    rfl

/-- A renaming that keeps the initial names keeps a new session. -/
theorem Machine.rename_fresh {strict : Bool} {output : Stream}
    (hkeep : ∀ b ∈ Value.initial strict, ρ b.1 = b.1) :
    (Machine.fresh strict output).rename ρ = .fresh strict output := by
  have hbinding : ∀ b ∈ Value.initial strict, renameBinding ρ b = id b := by
    intro b hb
    rw [renameBinding, hkeep b hb, Value.rename_initial ρ b hb]
    rfl
  have hmap : (Value.initial strict).map (renameBinding ρ) = Value.initial strict := by
    rw [List.map_congr_left hbinding, List.map_id]
  simp [rename, fresh, allocate, empty, Frame.rename, hmap]

end SmallLisp
