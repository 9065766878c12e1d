import SmallLisp.Proofs.Session.Naming

/-!
# `Proofs.Session.Unused` — a definition that nothing uses

A name has to be written to be used: a value gets its names from the source texts, and no step of an
evaluation makes new ones. So a binding whose name stands in no source text is never looked up, never assigned
to and never captured by a closure that asks for it. Sessions that differ in this binding alone are compared
by the simulation `unused`, under which every other name stands for itself and this one for nothing. A source
text that defines a function may therefore be left out if its name is not written anywhere else
(`replies_unused`), whatever the body of the function is.
-/

namespace SmallLisp

namespace Simulation

/-- **All names but one**: they stand for themselves alone, and the comparison never ends. -/
def unused (name : Text) : Simulation where
  name s t := s = t ∧ s ≠ name
  policy := Eq
  label := Eq
  text := Eq
  frame := id
  apart _ := none
  escapes _ := False

variable {name : Text}

theorem unused_exact : (unused name).Exact where
  name h := h.1
  text := id
  label := id
  policy := id

theorem unused_lawful : (unused name).Lawful where
  name_iff := by
    rintro s s' t t' ⟨rfl, _⟩ ⟨rfl, _⟩
    rfl
  frame := strictMono_id
  policy := .inl
  unnamed := rfl
  named h := congrArg some h.1
  written hv := hv.ends_written (fun _ _ => And.left) (fun _ => rfl) id
  inspected hv := hv.ends_inspected (fun _ _ => And.left) (fun _ => rfl) id
  joined := text_joined fun _ _ => Iff.rfl
  reflexive he := he.elim
  guarded he := he.elim

/-- **A binding under the name is not compared.** -/
theorem Machines.define_unused {m n : Machine} (h : (unused name).Machines m n) (v : Value) (f : FrameId) :
    (unused name).Machines (m.define name v f) n := by
  refine ⟨?_, ?_, ?_, h.apart, h.printed, h.streams⟩
  · intro k
    rw [Machine.size_define, h.later]
  · intro g
    rw [h.outer, Machine.outer_define]
  · intro g s t hst
    have hrel := h.local? hst g
    rwa [← Machine.local?_eq_lookup, ← Machine.local?_eq_lookup, Machine.local?_define_of_ne hst.2]

/-! ## Source texts without the name -/

/-- What an atom that is not the name stands for, or a list. -/
def Plain (name : Text) : Value → Prop
  | .symbol s => s ≠ name
  | .number _ | .text _ | .truth _ | .list _ => True
  | _ => False

theorem values_of_plain : (v : Value) → v.Everywhere (Plain name) → (unused name).Values v v
  | .number x, _ => .number x
  | .text s, _ => .text s
  | .truth b, _ => .truth b
  | .symbol _, h => .symbol ⟨rfl, h.self⟩
  | .list _, h =>
    .list (List.forall₂_same.2 fun x hx => values_of_plain x ((Value.everywhere_list.1 h).2 x hx))
  | .primitive _, h | .special _, h | .closure .., h | .embedded _, h => h.self.elim

/-- **A source text in which the name is not a token is read as itself.** -/
theorem reads_unused {source : Text} (h : name ∉ Source.tokenize source) (limit : Nat) :
    (unused name).Reads limit limit source source := by
  refine reads_self fun e hread => values_of_plain e ?_
  refine Source.everywhere_read_tokens (fun _ => trivial) ?_ hread
  intro token htoken _ _
  have hne : token ≠ name := fun heq => h (heq ▸ htoken)
  exact Source.everywhere_ofAtom (fun _ => trivial) (fun _ _ => trivial) (fun _ => trivial) fun _ => hne

end Simulation

/-- **A definition of a function binds its name at most.** -/
theorem on_defun (depth : Nat) (ev : Evaluator) (f : FrameId) (strict : Bool) (name : Text)
    (parameters : Value) (body : List Value) (m : Machine) :
    let after := ((runForm depth ev f (.defun strict) (.symbol name :: parameters :: body)).on m).2
    after = m ∨ ∃ v, after = m.define name v f := by
  cases body with
  | nil => exact .inl rfl
  | cons first rest =>
    rcases requireParameters_cases parameters with ⟨formals, rfl⟩ | hrefused
    · exact .inr ⟨_, rfl⟩
    · exact .inl (on_ofExcept_error (hrefused depth (.defun strict)) _ m)

namespace Interpreter

variable {i : Interpreter} {name : Text}

/-- Whenever a source text was answered, what it printed was taken. -/
theorem printed_answerAll (h : i.machine.printed = #[]) (sources : List Text) :
    (i.answerAll sources).2.machine.printed = #[] := by
  induction sources generalizing i with
  | nil => exact h
  | cons source rest ih => exact ih (i := (i.answer source).2) rfl

/-- The session after a definition of a function stands for the one before it. -/
theorem machines_answer_defun {strict : Bool} {define : Text} {parameters : Value} {body : List Value}
    (hdefine : Source.read i.limit define = .ok (defunOf (.symbol name) parameters body))
    (hdefun : i.machine.lookup? "defun" Machine.globalFrame = some (.special (.defun strict)))
    (hprinted : i.machine.printed = #[])
    (hself : (Simulation.unused name).Machines i.machine i.machine) :
    (Simulation.unused name).Machines (i.answer define).2.machine i.machine := by
  -- the definition can be read, so there is room for an evaluation
  obtain ⟨depth, hdepth⟩ : ∃ depth, i.limit = depth + 1 := by
    have hnesting := Source.nesting_le_of_read hdefine
    simp only [defunOf, Value.nesting] at hnesting
    exact Nat.exists_eq_add_of_le' (by omega)
  have hmachine : { i.machine with printed := #[] } = i.machine := by rw [← hprinted]
  rw [answer_machine hdefine, hdepth, defunOf, on_eval_form hdefun]
  rcases on_defun depth (eval depth) Machine.globalFrame strict name parameters body i.machine with
    hafter | ⟨v, hafter⟩
  · rw [hafter, hmachine]
    exact hself
  · have hdefined := (hself.define_unused v Machine.globalFrame).takePrinted
    rw [hmachine] at hdefined
    rwa [hafter]

/-- **A definition that nothing uses is inert.** In a session under either policy and any limit, let a source
    text define a function, while `defun` is bound to the form that it is bound to at first. If the name of
    the function is bound to nothing at first and is a token of no other source text, before or after, then
    the text may as well be left out: all others have the same answers, in what they print and in their value
    or fault. Whatever the parameters and the body are, and whether the definition succeeds. -/
theorem replies_unused {strict : Bool} {output : Stream} {limit : Nat} {before after : List Text}
    {define name : Text}
    {parameters : Value} {body : List Value}
    (hdefine : Source.read limit define = .ok (defunOf (.symbol name) parameters body))
    (hdefun : ({ fresh strict output with limit }.answerAll before).2.machine.lookup? "defun" Machine.globalFrame =
      some (.special (.defun strict)))
    (hname : name ∉ (Value.initial strict).map (·.1))
    (hunused : ∀ source ∈ before ++ after, name ∉ Source.tokenize source) :
    (replies strict output limit (before ++ define :: after)).eraseIdx before.length =
      replies strict output limit (before ++ after) := by
  let i : Interpreter := { fresh strict output with limit }
  let j := (i.answerAll before).2
  have hlimit : j.limit = limit := limit_answerAll i before
  have hprinted : j.machine.printed = #[] := printed_answerAll (i := i) rfl before
  have hread (source : Text) (h : source ∈ before ++ after) :
      (Simulation.unused name).Reads limit limit source source := Simulation.reads_unused (hunused source h) limit
  -- up to the definition there is one session, in which the name occurs nowhere
  have hfresh : (Simulation.unused name).Machines i.machine i.machine :=
    .fresh Simulation.unused_lawful (fun _ => rfl) rfl
      (fun b hb => ⟨rfl, fun h : b.1 = name => hname (h ▸ List.mem_map_of_mem hb)⟩)
      (Simulation.unused_exact.streams output)
  have hself : (Simulation.unused name).Machines j.machine j.machine :=
    (Simulation.unused_exact.answerAll_eq Simulation.unused_lawful (fun _ => id) rfl rfl hfresh
      fun source h => hread source (List.mem_append_left _ h)).2
  -- from there on there are two, which differ in the binding of the name alone
  have hdefined : (Simulation.unused name).Machines (j.answer define).2.machine j.machine := by
    rw [← hlimit] at hdefine
    exact machines_answer_defun hdefine hdefun hprinted hself
  have hafter : ((j.answer define).2.answerAll after).1 = (j.answerAll after).1 := by
    refine (Simulation.unused_exact.answerAll_eq (i := (j.answer define).2) (j := j)
      Simulation.unused_lawful (fun _ => id) rfl rfl hdefined ?_).1
    intro source h
    show (Simulation.unused name).Reads j.limit j.limit source source
    rw [hlimit]
    exact hread source (List.mem_append_right _ h)
  have hlength : (i.answerAll before).1.length = before.length := length_answerAll i before
  show (i.answerAll (before ++ define :: after)).1.eraseIdx before.length = (i.answerAll (before ++ after)).1
  rw [answerAll_append, answerAll_append, ← hlength, List.eraseIdx_append_of_length_le (Nat.le_refl _),
    Nat.sub_self]
  exact congrArg ((i.answerAll before).1 ++ ·) hafter

/-- A function that asks for itself is defined between two others, and nothing else asks for it: `g` is called
    and prints, and `h` is not bound, with the definition and without it. -/
theorem replies_unused_defun :
    let told := replies true .texts nestingLimit ["(defun g (x) (print x))", "(defun f (y) (g f))", "(g t)", "(h)"]
    let others : List Text := ["(defun g (x) (print x))", "(g t)", "(h)"]
    ("f" : Text) ∉ (Value.initial true).map (·.1) ∧
      (∀ source ∈ others, ("f" : Text) ∉ Source.tokenize source) ∧
      told.eraseIdx 1 = replies true .texts nestingLimit others ∧
      told.map (·.outcome) = [.ok "g", .ok "f", .ok "t", .error (.unbound "h")] ∧
      told.map (·.printed) = ["", "", "t\n", ""] := by
  intro told others
  have hg : Source.read nestingLimit "(defun g (x) (print x))" =
      .ok (defunOf (.symbol "g") (.list [.symbol "x"]) [.list [.symbol "print", .symbol "x"]]) := rfl
  have hf : Source.read nestingLimit "(defun f (y) (g f))" =
      .ok (defunOf (.symbol "f") (.list [.symbol "y"]) [.list [.symbol "g", .symbol "f"]]) := rfl
  have hfresh : (Machine.fresh true .texts).lookup? "defun" Machine.globalFrame = some (.special (.defun true)) :=
    Machine.lookup?_last (by decide) rfl _
  -- the definition of `g` binds `g`, and leaves `defun` as it is
  have hdefined : ((eval (999 + 1) Machine.globalFrame
      (defunOf (.symbol "g") (.list [.symbol "x"]) [.list [.symbol "print", .symbol "x"]])).on
        (Machine.fresh true .texts)).2 = (Machine.fresh true .texts).define "g" (.closure [.symbol "x"]
          [.list [.symbol "print", .symbol "x"]] Machine.globalFrame true (some "g")) Machine.globalFrame := by
    rw [defunOf, on_eval_form hfresh]
    rfl
  have hone (i : Interpreter) (source : Text) : (i.answerAll [source]).2 = (i.answer source).2 := rfl
  have hname : ("f" : Text) ∉ (Value.initial true).map (·.1) := by decide +kernel
  have hunused : ∀ source ∈ others, ("f" : Text) ∉ Source.tokenize source := by decide +kernel
  refine ⟨hname, hunused, ?_, by decide +kernel, by decide +kernel⟩
  refine @replies_unused true .texts nestingLimit ["(defun g (x) (print x))"] ["(g t)", "(h)"] _ "f" _ _ hf ?_
    hname hunused
  rw [hone, answer_machine (i := { fresh true .texts with limit := nestingLimit }) hg]
  show ({ ((eval (999 + 1) Machine.globalFrame _).on (Machine.fresh true .texts)).2 with printed := #[] } :
    Machine).lookup? _ _ = _
  rw [hdefined]
  exact Machine.lookup?_last (by decide) rfl _

end Interpreter

end SmallLisp
