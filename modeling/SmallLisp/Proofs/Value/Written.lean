import Mathlib.Data.List.Forall2
import SmallLisp.Proofs.Evaluation.Contents

/-!
# `Proofs.Value.Written` — when a value can be written

A value is written member by member, so writing it fails if writing one of its members does. It may be nested
too deep, or an integer that an embedding program handed in may be too large, and in a diagnostic too long
(`render_error_cases`, `inspect_error_cases`). Without such integers (`Value.NotInteger`) only the first is
left (`tooDeep_of_render_error`).

A refusal shows the value that is at fault, so it is either the fault that it states, or that of writing the
value (`refuse_cases`).
-/

namespace SmallLisp

/-! ## Outcomes one after the other -/

section

variable {α β ε δ : Type}

/-- What has a result after two steps has one after the first of them. -/
theorem exists_of_bind_eq_ok {outcome : Except ε α} {next : α → Except ε β} {b : β}
    (h : outcome >>= next = .ok b) : ∃ a, outcome = .ok a ∧ next a = .ok b := by
  cases outcome with
  | ok a => exact ⟨a, rfl, h⟩
  | error why => cases h

/-- Of two steps that fail the first one fails, or the second one after it. -/
theorem exists_of_bind_eq_error {outcome : Except ε α} {next : α → Except ε β} {why : ε}
    (h : outcome >>= next = .error why) :
    outcome = .error why ∨ ∃ a, outcome = .ok a ∧ next a = .error why := by
  cases outcome with
  | ok a => exact .inr ⟨a, rfl, h⟩
  | error why =>
    cases h
    exact .inl rfl

/-- Many outcomes have a result if each of them has one. -/
theorem mapM_eq_ok {f : α → Except ε β} {xs : List α} {ys : List β}
    (h : List.Forall₂ (fun x y => f x = .ok y) xs ys) : xs.mapM f = .ok ys := by
  induction h with
  | nil => rfl
  | cons hxy _ ih =>
    rw [List.mapM_cons, hxy, ih]
    rfl

/-- The first outcome that fails is the one that counts. -/
theorem mapM_eq_error {f : α → Except ε β} {xs : List α} {ys : List β} {x : α} {why : ε}
    (hxs : xs.mapM f = .ok ys) (hx : f x = .error why) (rest : List α) :
    (xs ++ x :: rest).mapM f = .error why := by
  rw [List.mapM_append, hxs, List.mapM_cons, hx]
  rfl

/-- The members of a result of many outcomes are the results of these. -/
theorem exists_of_mem_mapM {f : α → Except ε β} {xs : List α} {ys : List β}
    (h : xs.mapM f = .ok ys) :
    (∀ x ∈ xs, ∃ y ∈ ys, f x = .ok y) ∧ ∀ y ∈ ys, ∃ x ∈ xs, f x = .ok y := by
  induction xs generalizing ys with
  | nil =>
    cases h
    exact ⟨nofun, nofun⟩
  | cons x xs ih =>
    rw [List.mapM_cons] at h
    obtain ⟨y, hy, h⟩ := exists_of_bind_eq_ok h
    obtain ⟨rest, hrest, h⟩ := exists_of_bind_eq_ok h
    cases h
    obtain ⟨hxs, hys⟩ := ih hrest
    constructor
    · refine List.forall_mem_cons.2 ⟨⟨y, List.mem_cons_self, hy⟩, ?_⟩
      intro x' hx'
      obtain ⟨y', hy', hf⟩ := hxs x' hx'
      exact ⟨y', List.mem_cons_of_mem y hy', hf⟩
    · refine List.forall_mem_cons.2 ⟨⟨x, List.mem_cons_self, hy⟩, ?_⟩
      intro y' hy'
      obtain ⟨x', hx', hf⟩ := hys y' hy'
      exact ⟨x', List.mem_cons_of_mem x hx', hf⟩

/-- If a list of outcomes fails, one of them fails. -/
theorem exists_error_of_mapM {f : α → Except ε β} {xs : List α} {why : ε}
    (h : xs.mapM f = .error why) : ∃ x ∈ xs, f x = .error why := by
  induction xs with
  | nil => cases h
  | cons x xs ih =>
    rw [List.mapM_cons] at h
    rcases exists_of_bind_eq_error h with hx | ⟨y, _, h⟩
    · exact ⟨x, List.mem_cons_self, hx⟩
    · rcases exists_of_bind_eq_error h with hxs | ⟨ys, _, h⟩
      · obtain ⟨x', hmem, hx'⟩ := ih hxs
        exact ⟨x', List.mem_cons_of_mem x hmem, hx'⟩
      · cases h

/-- To say why something failed in other words changes no result, and makes none. -/
theorem mapError_eq_ok {outcome : Except ε α} {f : ε → δ} {a : α} :
    outcome.mapError f = .ok a ↔ outcome = .ok a := by
  cases outcome with
  | ok b =>
    constructor
    · intro h
      cases h
      rfl
    · intro h
      cases h
      rfl
  | error why =>
    constructor
    · intro h
      cases h
    · intro h
      cases h

theorem exists_of_mapError_eq_error {outcome : Except ε α} {f : ε → δ} {fault : δ}
    (h : outcome.mapError f = .error fault) : ∃ why, outcome = .error why ∧ f why = fault := by
  cases outcome with
  | ok b => cases h
  | error why =>
    cases h
    exact ⟨why, rfl, rfl⟩

end

namespace Value

/-! ## Lists and closures in writing -/

/-- A list is written if its members are. -/
theorem exists_of_render_list {depth : Nat} {items : List Value} {text : Text}
    (h : (list items).render (depth + 1) = .ok text) :
    ∃ parts, items.mapM (render depth) = .ok parts ∧ text = "(" ++ Text.intercalate " " parts ++ ")" := by
  rw [render] at h
  obtain ⟨parts, hparts, h⟩ := exists_of_bind_eq_ok h
  cases h
  exact ⟨parts, hparts, rfl⟩

/-- A closure is written if its formals and its body are. -/
theorem exists_of_render_closure {depth : Nat} {formals body : List Value} {scope : FrameId}
    {strict : Bool} {name : Option Text} {text : Text}
    (h : (closure formals body scope strict name).render (depth + 1) = .ok text) :
    ∃ first second, (list formals).render depth = .ok first ∧ (list body).render depth = .ok second ∧
      text = "#<FUNCTION " ++ first ++ " " ++ second ++ ">" := by
  rw [render] at h
  obtain ⟨first, hfirst, h⟩ := exists_of_bind_eq_ok h
  obtain ⟨second, hsecond, h⟩ := exists_of_bind_eq_ok h
  cases h
  exact ⟨first, second, hfirst, hsecond, rfl⟩

/-- A list is shown if its members are. -/
theorem exists_of_inspect_list {depth : Nat} {items : List Value} {text : Text}
    (h : (list items).inspect (depth + 1) = .ok text) :
    ∃ parts, items.mapM (inspect depth) = .ok parts ∧ text = "[" ++ Text.intercalate ", " parts ++ "]" := by
  rw [inspect] at h
  obtain ⟨parts, hparts, h⟩ := exists_of_bind_eq_ok h
  cases h
  exact ⟨parts, hparts, rfl⟩

/-! ## Why a value is not written -/

/-- The value is no integer of an embedding program that no double is near. -/
def HasDouble : Value → Prop
  | .embedded (.int n) => (Decimal.ofInt? n).isSome
  | _ => True

/-- The value is no integer of an embedding program that has more digits than the host writes out. -/
def HasDigits : Value → Prop
  | .embedded (.int n) => n.natAbs < Nat.pow 10 maxIntegerDigits
  | _ => True

/-- **A value is written**, unless it is nested too deep or an integer in it is too large. -/
theorem render_error_cases {depth : Nat} {v : Value} {why : HostFault} (h : v.render depth = .error why) :
    why = .tooDeep ∨ why = .integerTooLarge ∧ ¬ v.Everywhere HasDouble := by
  -- on the limit: a closure is written as the two lists that it is made of
  induction depth generalizing v why with
  | zero =>
    cases h
    exact .inl rfl
  | succ depth ih =>
    have hlist {items : List Value} {why : HostFault} (h : (list items).render depth = .error why) :
        why = .tooDeep ∨ why = .integerTooLarge ∧ ¬ ∀ x ∈ items, x.Everywhere HasDouble :=
      (ih h).imp_right fun ⟨hlarge, hv⟩ => ⟨hlarge, fun hitems => hv (everywhere_list.2 ⟨trivial, hitems⟩)⟩
    cases v with
    | list items =>
      rw [render] at h
      rcases exists_of_bind_eq_error h with hparts | ⟨parts, _, h⟩
      · obtain ⟨x, hx, herror⟩ := exists_error_of_mapM hparts
        exact (ih herror).imp_right fun ⟨hlarge, hfails⟩ =>
          ⟨hlarge, fun hv => hfails ((everywhere_list.1 hv).2 x hx)⟩
      · cases h
    | closure formals body scope strict name =>
      rw [render] at h
      rcases exists_of_bind_eq_error h with hfirst | ⟨first, _, h⟩
      · exact (hlist hfirst).imp_right fun ⟨hlarge, hfails⟩ =>
          ⟨hlarge, fun hv => hfails (everywhere_closure.1 hv).2.1⟩
      · rcases exists_of_bind_eq_error h with hsecond | ⟨second, _, h⟩
        · exact (hlist hsecond).imp_right fun ⟨hlarge, hfails⟩ =>
            ⟨hlarge, fun hv => hfails (everywhere_closure.1 hv).2.2⟩
        · cases h
    | embedded e =>
      cases e with
      | int n =>
        rw [render, renderInt] at h
        split at h
        · cases h
        · rename_i hlarge
          cases h
          exact .inr ⟨rfl, fun hv => hlarge hv.self⟩
      | bool | nothing =>
        rw [render] at h
        cases h
    | number | text | truth | symbol | primitive | special =>
      rw [render] at h
      cases h

/-- **A value is shown**, unless it is nested too deep, or an integer in it is too large or too long. -/
theorem inspect_error_cases {depth : Nat} {v : Value} {why : HostFault} (h : v.inspect depth = .error why) :
    why = .tooDeep ∨ why = .integerTooLarge ∧ ¬ v.Everywhere HasDouble ∨
      why = .integerTooLong ∧ ¬ v.Everywhere HasDigits := by
  have hrender {depth : Nat} {v : Value} (h : v.render depth = .error why) :
      why = .tooDeep ∨ why = .integerTooLarge ∧ ¬ v.Everywhere HasDouble ∨
        why = .integerTooLong ∧ ¬ v.Everywhere HasDigits :=
    (render_error_cases h).imp_right .inl
  induction depth generalizing v with
  | zero =>
    cases h
    exact .inl rfl
  | succ depth ih =>
    cases v with
    | list items =>
      rw [inspect] at h
      rcases exists_of_bind_eq_error h with hparts | ⟨parts, _, h⟩
      · obtain ⟨x, hx, herror⟩ := exists_error_of_mapM hparts
        refine (ih herror).imp_right (Or.imp ?_ ?_)
        · exact fun ⟨hlarge, hfails⟩ => ⟨hlarge, fun hv => hfails ((everywhere_list.1 hv).2 x hx)⟩
        · exact fun ⟨hlong, hfails⟩ => ⟨hlong, fun hv => hfails ((everywhere_list.1 hv).2 x hx)⟩
      · cases h
    | number | text | symbol =>
      rw [inspect] at h
      cases h
    | embedded e =>
      cases e with
      | int n =>
        rw [inspect, inspectInt] at h
        split at h
        · cases h
        · rename_i hlong
          cases h
          exact .inr (.inr ⟨rfl, fun hv => hlong hv.self⟩)
      | bool =>
        rw [inspect] at h
        cases h
      | nothing =>
        rw [inspect] at h
        exact hrender h
    | truth | primitive | special | closure =>
      -- these are shown as they are written
      rw [inspect] at h
      exact hrender h

/-! ## Writing values without integers of an embedding program -/

/-- The value is no integer that an embedding program handed in. -/
def NotInteger : Value → Prop
  | .embedded (.int _) => False
  | _ => True

theorem NotInteger.hasDouble {v : Value} (h : v.NotInteger) : v.HasDouble := by
  cases v with
  | embedded e =>
    cases e with
    | int n => exact h.elim
    | _ => trivial
  | _ => trivial

theorem NotInteger.hasDigits {v : Value} (h : v.NotInteger) : v.HasDigits := by
  cases v with
  | embedded e =>
    cases e with
    | int n => exact h.elim
    | _ => trivial
  | _ => trivial

/-- **A value in which there is no such integer is written**, unless it is nested too deep. -/
theorem tooDeep_of_render_error {depth : Nat} {v : Value} {why : HostFault}
    (hv : v.Everywhere NotInteger) (h : v.render depth = .error why) : why = .tooDeep := by
  rcases render_error_cases h with hdeep | ⟨_, hlarge⟩
  · exact hdeep
  · exact absurd (hv.mono fun _ => NotInteger.hasDouble) hlarge

/-- Such a value is shown, unless it is nested too deep. -/
theorem tooDeep_of_inspect_error {depth : Nat} {v : Value} {why : HostFault}
    (hv : v.Everywhere NotInteger) (h : v.inspect depth = .error why) : why = .tooDeep := by
  rcases inspect_error_cases h with hdeep | ⟨_, hlarge⟩ | ⟨_, hlong⟩
  · exact hdeep
  · exact absurd (hv.mono fun _ => NotInteger.hasDouble) hlarge
  · exact absurd (hv.mono fun _ => NotInteger.hasDigits) hlong

/-- Writing such a value fails only for want of stack. -/
theorem tooDeep_of_written_error {depth : Nat} {v : Value} {fault : Fault}
    (hv : v.Everywhere NotInteger) (h : v.written depth = .error fault) : fault = .host .tooDeep := by
  obtain ⟨why, hwhy, rfl⟩ := exists_of_mapError_eq_error h
  rw [tooDeep_of_render_error hv hwhy]

/-- Showing such a value fails only for want of stack. -/
theorem tooDeep_of_inspected_error {depth : Nat} {v : Value} {fault : Fault}
    (hv : v.Everywhere NotInteger) (h : v.inspected depth = .error fault) : fault = .host .tooDeep := by
  obtain ⟨why, hwhy, rfl⟩ := exists_of_mapError_eq_error h
  rw [tooDeep_of_inspect_error hv hwhy]

end Value

/-! ## Refusals -/

/-- **A refusal never has a result**: it is the fault that it states, or that of writing the value. -/
theorem refuse_cases {α : Type} (why : Text → ArgumentFault) (shown : Except Fault Text) :
    ∃ fault, (ArgumentFault.refuse why shown : Except Fault α) = .error fault ∧
      ((∃ text, shown = .ok text ∧ fault = .argument (why text)) ∨ shown = .error fault) := by
  cases shown with
  | ok text => exact ⟨_, rfl, .inl ⟨text, rfl, rfl⟩⟩
  | error fault => exact ⟨fault, rfl, .inr rfl⟩

/-- Values are all made by `f`, or there is a first one that is not. -/
theorem eq_map_or_exists_first {α β : Type} (f : α → β) (items : List β) :
    (∃ xs : List α, items = xs.map f) ∨
      ∃ (xs : List α) (item : β) (rest : List β),
        items = xs.map f ++ item :: rest ∧ ∀ x, item ≠ f x := by
  induction items with
  | nil => exact .inl ⟨[], rfl⟩
  | cons item rest ih =>
    by_cases hitem : ∃ x, item = f x
    · obtain ⟨x, rfl⟩ := hitem
      rcases ih with ⟨xs, rfl⟩ | ⟨xs, other, rest, rfl, hother⟩
      · exact .inl ⟨x :: xs, rfl⟩
      · exact .inr ⟨x :: xs, other, rest, rfl, hother⟩
    · exact .inr ⟨[], item, rest, rfl, fun x hx => hitem ⟨x, hx⟩⟩

end SmallLisp
