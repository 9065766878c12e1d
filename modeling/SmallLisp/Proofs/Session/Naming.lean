import SmallLisp.Proofs.Session.Arity
import SmallLisp.Proofs.Session.Reachable
import SmallLisp.Proofs.Source.Grammar
import SmallLisp.Proofs.Value.Written

/-!
# `Proofs.Session.Naming` — a closure may have any name

What a closure is called shows in one place only: in the fault with which it refuses a number of arguments. So
sessions whose closures differ in their names alone answer the same, but for that (`unlabelled`). `defun`
differs from `defvar` with `lambda` in this name alone: both bind the name to the same closure, or fail and
leave everything as it was (`machines_defun_defvar`). Whichever of them a session is given, all other answers
are the same (`replies_defun_defvar`).
-/

namespace SmallLisp

namespace Simulation

/-- **Closures by any name**: everything else stands for itself alone, and the comparison never ends. -/
def unlabelled : Simulation where
  name := Eq
  policy := Eq
  label _ _ := True
  text := Eq
  frame := id
  apart _ := none
  escapes _ := False

theorem unlabelled_legible : unlabelled.Legible := ⟨id, id⟩

theorem unlabelled_reflexive : unlabelled.Reflexive :=
  ⟨fun _ => rfl, fun _ => rfl, fun _ => trivial, Iff.rfl, fun _ => rfl⟩

theorem unlabelled_lawful : unlabelled.Lawful where
  name_iff := by
    rintro s s' t t' rfl rfl
    rfl
  frame := strictMono_id
  policy := .inl
  unnamed := trivial
  named _ := trivial
  written hv := hv.ends_written (fun _ _ => id) (fun _ => rfl) id
  inspected hv := hv.ends_inspected (fun _ _ => id) (fun _ => rfl) id
  joined := text_joined fun _ _ => Iff.rfl
  reflexive _ := unlabelled_reflexive
  guarded := id

end Simulation

/-! ## The two definitions of a function -/

/-- The definition of a function, with its name. -/
def defunOf (target parameters : Value) (body : List Value) : Value :=
  .list (.symbol "defun" :: target :: parameters :: body)

/-- The definition of a variable whose value is made as a function without name. -/
def defvarOf (target parameters : Value) (body : List Value) : Value :=
  .list [.symbol "defvar", target, .list (.symbol "lambda" :: parameters :: body)]

/-- `defvar` binds a name to the value of its second operand, if it has one. -/
theorem on_defvar (depth : Nat) (ev : Evaluator) (f : FrameId) (name : Text) (e : Value) (m : Machine) :
    ((runForm depth ev f .defvar [.symbol name, e]).on m).2 =
      match (ev f e).on m with
      | (.ok value, n) => n.define name value f
      | (.error _, n) => n := by
  show ((ev f e >>= fun value => Action.define name value f >>= fun _ => pure value).on m).2 = _
  rw [Action.on_bind]
  cases (ev f e).on m with
  | mk outcome n => cases outcome <;> rfl

/-- A step that fails ends everything. -/
theorem on_ofExcept_error {α β : Type} {outcome : Except Fault α} (h : ∃ fault, outcome = .error fault)
    (next : α → Action β) (m : Machine) : ((Action.ofExcept outcome >>= next).on m).2 = m := by
  obtain ⟨fault, rfl⟩ := h
  rfl

/-- Only a symbol can be bound. -/
theorem requireTarget_cases (target : Value) :
    (∃ name, target = .symbol name) ∨
      ∀ depth form, ∃ fault, requireTarget depth form target = .error fault := by
  cases target with
  | symbol name => exact .inl ⟨name, rfl⟩
  | _ => exact .inr fun depth form => (refuse_cases _ _).imp fun _ h => h.1

/-- Only a list can be a list of parameters. -/
theorem requireParameters_cases (parameters : Value) :
    (∃ formals, parameters = .list formals) ∨
      ∀ depth form, ∃ fault, requireParameters depth form parameters = .error fault := by
  cases parameters with
  | list formals => exact .inl ⟨formals, rfl⟩
  | _ => exact .inr fun depth form => (refuse_cases _ _).imp fun _ h => h.1

namespace Simulation

/-- **The two definitions lead to the same machine, but for the name of the closure.** Either both fail, and
    leave the machine as it was, or both bind the name. -/
theorem machines_defun_defvar {m n : Machine} (hm : unlabelled.Machines m n) {f : FrameId} {strict : Bool}
    (hdefun : m.lookup? "defun" f = some (.special (.defun strict)))
    (hdefvar : n.lookup? "defvar" f = some (.special .defvar))
    (hlambda : n.lookup? "lambda" f = some (.special (.lambda strict)))
    (target parameters : Value) (body : List Value) (depth : Nat) :
    unlabelled.Machines ((eval (depth + 2) f (defunOf target parameters body)).on m).2
      ((eval (depth + 2) f (defvarOf target parameters body)).on n).2 := by
  unfold defunOf defvarOf
  rw [on_eval_form hdefun, on_eval_form hdefvar]
  rcases requireTarget_cases target with ⟨name, rfl⟩ | htarget
  · rw [on_defvar, on_eval_form hlambda]
    cases body with
    | nil => exact hm
    | cons first rest =>
      rcases requireParameters_cases parameters with ⟨formals, rfl⟩ | hparameters
      · -- the two closures differ in the name that they hold
        have hclosure : unlabelled.Values (.closure formals (first :: rest) f strict (some name))
            (.closure formals (first :: rest) f strict none) :=
          .closure (unlabelled_reflexive.all formals) (unlabelled_reflexive.all (first :: rest)) f rfl
            trivial
        exact hm.define unlabelled_lawful rfl hclosure f
      · -- neither makes a closure of these parameters
        have hdefunOn : ((runForm (depth + 1) (eval (depth + 1)) f (.defun strict)
            (.symbol name :: parameters :: first :: rest)).on m).2 = m :=
          on_ofExcept_error (hparameters _ _) _ m
        obtain ⟨fault, hfault⟩ := hparameters depth (.lambda strict)
        have hlambdaOn : (runForm depth (eval depth) f (.lambda strict)
            (parameters :: first :: rest)).on n = (.error fault, n) := by
          show (Action.ofExcept (requireParameters depth (.lambda strict) parameters) >>= _).on n = _
          rw [hfault]
          rfl
        rw [hdefunOn, hlambdaOn]
        exact hm
  · -- neither binds this target
    have hdefunOn : ((runForm (depth + 1) (eval (depth + 1)) f (.defun strict)
        (target :: parameters :: body)).on m).2 = m := by
      cases body with
      | nil => rfl
      | cons first rest => exact on_ofExcept_error (htarget _ _) _ m
    have hdefvarOn : ((runForm (depth + 1) (eval (depth + 1)) f .defvar
        [target, .list (.symbol "lambda" :: parameters :: body)]).on n).2 = n :=
      on_ofExcept_error (htarget _ _) _ n
    rw [hdefunOn, hdefvarOn]
    exact hm

end Simulation

/-- **The same fault, but for the name of a function**: the faults are of one kind. They are put into the same
    words, or are refusals of the same number of arguments by functions that may be called differently. -/
def Fault.SameButName (fault fault' : Fault) : Prop :=
  fault.kind = fault'.kind ∧
    (fault.message = fault'.message ∨ ∃ name name' expected given,
      fault = .argument (.arity name expected given) ∧
      fault' = .argument (.arity name' expected given))

/-- Faults that stand for one another when closures have any name are the same but for a name. -/
theorem Simulation.sameButName_of_faults {fault fault' : Fault} (h : unlabelled.Faults fault fault') :
    fault.SameButName fault' := by
  obtain ⟨hkind, hmessage⟩ := unlabelled_legible.same_or_arity h
  refine ⟨hkind, hmessage.imp_right ?_⟩
  rintro ⟨name, name', expected, given, _, hfault, hfault'⟩
  exact ⟨name, name', expected, given, hfault, hfault'⟩

namespace Interpreter

/-- **The same answer, but for the name of a function**: the same printed lines, with the same text or with
    faults that are the same but for this name. -/
def Reply.SameButName (reply reply' : Reply) : Prop := reply.Alike Fault.SameButName reply'

variable {i j : Interpreter}

/-- Sessions whose closures differ in their names alone answer the same but for a name. -/
theorem answerAll_sameButName (hlimit : i.limit = j.limit)
    (hm : Simulation.unlabelled.Machines i.machine j.machine) (sources : List Text) (k : Nat)
    {reply reply' : Reply} (hreply : (i.answerAll sources).1[k]? = some reply)
    (hreply' : (j.answerAll sources).1[k]? = some reply') : reply.SameButName reply' := by
  have hnever (reply : Reply) : ¬ Simulation.unlabelled.Escaped reply := by
    rintro ⟨fault, _, h⟩
    exact h
  rcases Simulation.unlabelled_lawful.answerAll_or_escapes Simulation.unlabelled_legible rfl
    (.inl hlimit) (Simulation.unlabelled_reflexive.reads hlimit) hm sources k hreply hreply'
    (fun earlier _ => hnever earlier) with
    halike | ⟨hescaped, _⟩
  · exact halike.imp fun _ _ => Simulation.sameButName_of_faults
  · exact absurd hescaped (hnever reply)

/-- A source text that is read leads where its expression does. -/
theorem answer_machine {e : Value} {source : Text} (h : Source.read i.limit source = .ok e) :
    (i.answer source).2.machine =
      { ((eval i.limit Machine.globalFrame e).on i.machine).2 with printed := #[] } := by
  have hmachine : (i.answer source).2.machine = { (i.evalSource source).2.machine with printed := #[] } :=
    rfl
  rw [hmachine, evalSource_eq, h]

/-- The sessions after the two definitions differ in the name of a closure at most. -/
theorem machines_answer_defun_defvar {strict : Bool} {define assign : Text} {target parameters : Value}
    {body : List Value} (hdefine : Source.read i.limit define = .ok (defunOf target parameters body))
    (hassign : Source.read i.limit assign = .ok (defvarOf target parameters body))
    (hforms : ∀ form ∈ [SpecialForm.defun strict, .defvar, .lambda strict],
      i.machine.lookup? form.name Machine.globalFrame = some (.special form)) :
    Simulation.unlabelled.Machines (i.answer define).2.machine (i.answer assign).2.machine := by
  simp only [List.forall_mem_cons] at hforms
  obtain ⟨hdefun, hdefvar, hlambda, _⟩ := hforms
  -- the second definition can be read, so there is room for two evaluations
  obtain ⟨depth, hdepth⟩ : ∃ depth, i.limit = depth + 2 := by
    have hnesting := Source.nesting_le_of_read hassign
    simp only [defvarOf, Value.nesting, Value.nestingEach] at hnesting
    exact Nat.exists_eq_add_of_le' (by omega)
  rw [answer_machine hdefine, answer_machine hassign, hdepth]
  have hsame : Simulation.unlabelled.Machines i.machine i.machine :=
    .refl Simulation.unlabelled_lawful Simulation.unlabelled_reflexive _
  exact (Simulation.machines_defun_defvar hsame hdefun hdefvar hlambda target parameters body
    depth).takePrinted

/-- **`defun` is `defvar` of a `lambda`.** In a session under either policy and any limit, a source text that
    defines a function by `defun` may be replaced by one that defines a variable by `defvar` and the
    function by `lambda`, if by then the three names are bound to the forms that they are bound to at
    first. The answers to all other source texts, before and after, are the same but for the name in the
    refusal of a number of arguments; whatever the definition is made of, and whether it succeeds. -/
theorem replies_defun_defvar {strict : Bool} {output : Stream} {limit : Nat} {before after : List Text}
    {define assign : Text} {target parameters : Value} {body : List Value}
    (hdefine : Source.read limit define = .ok (defunOf target parameters body))
    (hassign : Source.read limit assign = .ok (defvarOf target parameters body))
    (hforms : ∀ form ∈ [SpecialForm.defun strict, .defvar, .lambda strict],
      ({ fresh strict output with limit }.answerAll before).2.machine.lookup? form.name Machine.globalFrame =
        some (.special form)) :
    let told := replies strict output limit (before ++ define :: after)
    let told' := replies strict output limit (before ++ assign :: after)
    told.length = before.length + 1 + after.length ∧ told'.length = before.length + 1 + after.length ∧
      ∀ k, k ≠ before.length → ∀ reply reply', told[k]? = some reply → told'[k]? = some reply' →
        reply.SameButName reply' := by
  intro told told'
  let i : Interpreter := { fresh strict output with limit }
  let j := (i.answerAll before).2
  have hlength (source : Text) :
      (replies strict output limit (before ++ source :: after)).length = before.length + 1 + after.length := by
    show (i.answerAll (before ++ source :: after)).1.length = _
    rw [length_answerAll, List.length_append, List.length_cons]
    omega
  refine ⟨hlength define, hlength assign, ?_⟩
  have hlimit : j.limit = limit := limit_answerAll i before
  rw [← hlimit] at hdefine hassign
  have hm : Simulation.unlabelled.Machines (j.answer define).2.machine (j.answer assign).2.machine :=
    machines_answer_defun_defvar hdefine hassign hforms
  intro k hk reply reply' hreply hreply'
  refine i.answerAll_replaced (Reply.Alike.refl fun _ => ⟨rfl, .inl rfl⟩) ?_ hk hreply hreply'
  intro l later later' hlater hlater'
  exact answerAll_sameButName (i := (j.answer define).2) (j := (j.answer assign).2) rfl hm after l hlater
    hlater'

/-- A function that prints itself is called once, and then with an argument missing: both sessions print it
    alike, and refuse the second call by the two names. -/
theorem replies_defun_defvar_refused :
    let told := replies true .texts nestingLimit ["(defun f (x) (print f))", "(f t)", "(f)"]
    let told' := replies true .texts nestingLimit ["(defvar f (lambda (x) (print f)))", "(f t)", "(f)"]
    ∃ printing printing' refusal refusal' : Reply, told[1]? = some printing ∧ told'[1]? = some printing' ∧
      printing.SameButName printing' ∧ printing.printed = ("#<FUNCTION (x) ((print f))>\n" : Text) ∧
      told[2]? = some refusal ∧ told'[2]? = some refusal' ∧ refusal.SameButName refusal' ∧
      outcomeText refusal.outcome = .ok "Error: f expects 1 argument(s), got 0" ∧
      outcomeText refusal'.outcome = .ok "Error: lambda expects 1 argument(s), got 0" := by
  intro told told'
  have hforms : ∀ form ∈ [SpecialForm.defun true, .defvar, .lambda true],
      (Machine.fresh true .texts).lookup? form.name Machine.globalFrame = some (.special form) := by
    have hchain : (Machine.fresh true .texts).chain Machine.globalFrame = [Machine.globalFrame] :=
      Machine.chain_last (by decide) rfl
    simp only [List.forall_mem_cons, Machine.lookup?, Machine.find?, hchain]
    exact ⟨rfl, rfl, rfl, nofun⟩
  have hdefine : Source.read nestingLimit "(defun f (x) (print f))" =
      .ok (defunOf (.symbol "f") (.list [.symbol "x"]) [.list [.symbol "print", .symbol "f"]]) :=
    rfl
  have hassign : Source.read nestingLimit "(defvar f (lambda (x) (print f)))" =
      .ok (defvarOf (.symbol "f") (.list [.symbol "x"]) [.list [.symbol "print", .symbol "f"]]) :=
    rfl
  obtain ⟨_, _, hsame⟩ :=
    @replies_defun_defvar true .texts nestingLimit [] ["(f t)", "(f)"] _ _ _ _ _ hdefine hassign hforms
  have hline : told[1]?.map (·.printed) = some ("#<FUNCTION (x) ((print f))>\n" : Text) := by decide +kernel
  have hline' : told'[1]?.map (·.printed) = some ("#<FUNCTION (x) ((print f))>\n" : Text) := by decide +kernel
  have htext : told[2]?.map (fun reply => outcomeText reply.outcome) =
      some (.ok "Error: f expects 1 argument(s), got 0") := by decide +kernel
  have htext' : told'[2]?.map (fun reply => outcomeText reply.outcome) =
      some (.ok "Error: lambda expects 1 argument(s), got 0") := by decide +kernel
  obtain ⟨printing, hprinting, hline⟩ := Option.map_eq_some_iff.1 hline
  obtain ⟨printing', hprinting', _⟩ := Option.map_eq_some_iff.1 hline'
  obtain ⟨refusal, hrefusal, htext⟩ := Option.map_eq_some_iff.1 htext
  obtain ⟨refusal', hrefusal', htext'⟩ := Option.map_eq_some_iff.1 htext'
  exact ⟨printing, printing', refusal, refusal', hprinting, hprinting',
    hsame 1 nofun _ _ hprinting hprinting', hline, hrefusal, hrefusal',
    hsame 2 nofun _ _ hrefusal hrefusal', htext, htext'⟩

end Interpreter

end SmallLisp
