import Mathlib.Data.List.Basic
import SmallLisp.Interpreter
import SmallLisp.Proofs.Evaluation.Frames

/-!
# `Proofs.Evaluation.Parameters` — what the parameters of a call are bound to

A call binds its parameters to its arguments one after the other, as far as both go, in a new frame inside
the scope of the closure: of two parameters with one name the later one counts (`exists_bindFormals`).
A lenient closure may be called with too few arguments. The parameters that are left have no binding in the
new frame, but that does not make their names unbound: like any name that a frame does not bind itself, they
are looked for from the scope of the closure on (`find?_out`). There they may be bound to something else, and
it is this that the body reads and that an assignment in the body changes (`missing_parameter`).
-/

namespace SmallLisp

/-! ## The bindings of a call -/

/-- **Symbols are bound to arguments** in their order, as far as both go; of a name that is repeated the
    last argument counts. -/
theorem exists_bindFormals (depth : Nat) (bound : Bindings) (names : List Text)
    (args : List Value) :
    ∃ bindings, bindFormals depth bound (names.map .symbol) args = .ok bindings ∧
      ∀ name, bindings.lookup name = ((names.zip args).reverse.lookup name).or (bound.lookup name) := by
  induction names generalizing bound args with
  | nil => exact ⟨bound, rfl, fun _ => rfl⟩
  | cons first names ih =>
    cases args with
    | nil => exact ⟨bound, rfl, fun _ => rfl⟩
    | cons arg args =>
      obtain ⟨bindings, hbind, hlookup⟩ := ih (Table.put first arg bound) args
      refine ⟨bindings, hbind, ?_⟩
      intro name
      -- the first parameter gives way to a later one of its name
      have hfirst : (Table.put first arg bound).lookup name =
          ([(first, arg)].lookup name).or (bound.lookup name) := by
        rw [Table.lookup_put, List.lookup_cons]
        cases name == first <;> rfl
      rw [hlookup, hfirst, List.zip_cons_cons, List.reverse_cons, List.lookup_append, Option.or_assoc]

/-- A name among the parameters for which there is no argument left has no binding. -/
theorem exists_bindArguments_missing (depth : Nat) (label : Option Text) {names : List Text}
    (hdistinct : names.Nodup) (args : List Value) :
    ∃ bindings, bindArguments depth false label (names.map .symbol) args = .ok bindings ∧
      ∀ name ∈ names.drop args.length, bindings.lookup name = none := by
  obtain ⟨bindings, hbind, hlookup⟩ := exists_bindFormals depth [] names args
  refine ⟨bindings, ?_, ?_⟩
  · unfold bindArguments
    rw [if_neg (by simp)]
    exact hbind
  · intro name hname
    rw [hlookup, List.lookup_nil, Option.or_none, List.lookup_eq_none_iff]
    rintro ⟨other, arg⟩ hmem
    -- what is bound are parameters from the front, and no other of these has the name
    rw [List.mem_reverse, List.zip_eq_zip_take_min] at hmem
    apply bne_iff_ne.2
    rintro rfl
    exact List.disjoint_take_drop hdistinct (Nat.min_le_right _ _) (List.of_mem_zip hmem).1 hname

/-! ## Names that a frame does not bind itself -/

namespace Machine

variable {m k : Machine} {frame scope : FrameId} {name : Text}

/-- **A name that a frame does not bind itself** means there what it means in the frame around. -/
theorem find?_of_not_mem_names (hlt : scope < frame) (h : m.outer? frame = some scope)
    (hname : name ∉ m.names frame) : m.find? name frame = m.find? name scope := by
  rw [find?_out h hlt, if_neg (mt isSome_local?_iff.1 hname)]

/-- Such a name has the value that it has in the frame around, or is unbound if it has none there. -/
theorem on_lookup_of_not_mem_names (hlt : scope < frame) (h : m.outer? frame = some scope)
    (hname : name ∉ m.names frame) :
    ((∀ g ∈ m.chain scope, name ∉ m.names g) →
      (Action.lookup name frame).on m = (.error (.unbound name), m)) ∧
    ∀ v, m.lookup? name scope = some v → (Action.lookup name frame).on m = (.ok v, m) := by
  have hsame : m.lookup? name frame = m.lookup? name scope := by
    unfold lookup?
    rw [find?_of_not_mem_names hlt h hname]
  constructor
  · intro hnone
    rw [Action.on_lookup, hsame, lookup?, find?_eq_none_iff.2 hnone]
    rfl
  · intro v hv
    rw [Action.on_lookup, hsame, hv]

/-- An assignment to such a name changes what it is bound to in the frame around, or fails if that binds it
    to nothing. -/
theorem on_assign_of_not_mem_names (hlt : scope < frame) (h : m.outer? frame = some scope)
    (hname : name ∉ m.names frame) (v : Value) :
    ((∀ g ∈ m.chain scope, name ∉ m.names g) →
      (Action.assign name v frame).on m = (.error (.unassignable name), m)) ∧
    ∀ n, m.assign? name v scope = some n → (Action.assign name v frame).on m = (.ok (), n) := by
  have hsame : m.assign? name v frame = m.assign? name v scope := by
    unfold assign?
    rw [find?_of_not_mem_names hlt h hname]
  constructor
  · intro hnone
    rw [Action.on_assign, hsame, assign?, find?_eq_none_iff.2 hnone]
    rfl
  · intro n hn
    rw [Action.on_assign, hsame, hn]

/-- No evaluation takes a frame out of the frame around it. -/
theorem outer?_eval (h : m.outer? frame = some scope) (n : Nat) (f : FrameId) (e : Value) :
    ((eval n f e).on m).2.outer? frame = some scope := by
  rw [((eval_growsIn n f m).1 e).1.outer_eq frame (lt_size_of_outer? h), h]

end Machine

/-- `setq` evaluates its second operand, and then assigns the value to the name. -/
theorem on_setq {depth : Nat} {ev : Evaluator} {f : FrameId} {name : Text} {e v : Value}
    {m n : Machine} (h : (ev f e).on m = (.ok v, n)) :
    (runForm depth ev f .setq [.symbol name, e]).on m =
      (Action.assign name v f >>= fun _ => pure v).on n := by
  have hname : requireTarget depth .setq (.symbol name) = .ok name := rfl
  simp only [runForm, hname]
  rw [Action.on_bind, Action.on_ofExcept]
  simp only
  rw [Action.on_bind, h]

/-- **A parameter without an argument is bound to nothing by the call, and its name means what it means in
    the scope of the closure.** The frame of the call has no binding for it. As long as the body has not
    made one, the name is unbound exactly if no enclosing scope binds it; otherwise the body reads the
    binding of the enclosing scope, and `setq` in the body changes that binding. Evaluations do not take
    the frame out of its scope, so this is so from the call on. -/
theorem missing_parameter (m : Machine) {names : List Text} (hdistinct : names.Nodup)
    (args : List Value) {scope : FrameId} (hscope : scope < m.frames.size) (depth : Nat)
    (label : Option Text) :
    ∃ bindings, bindArguments depth false label (names.map .symbol) args = .ok bindings ∧
      let frame := m.frames.size
      let called := (m.allocate bindings (some scope)).2
      called.outer? frame = some scope ∧
      (∀ name ∈ names.drop args.length, name ∉ called.names frame) ∧
      ∀ k : Machine, k.outer? frame = some scope →
        (∀ n f e, ((eval n f e).on k).2.outer? frame = some scope) ∧
        ∀ name ∈ names.drop args.length, name ∉ k.names frame →
          (∀ n, ((∀ g ∈ k.chain scope, name ∉ k.names g) →
              (eval (n + 1) frame (.symbol name)).on k = (.error (.unbound name), k)) ∧
            ∀ v, k.lookup? name scope = some v →
              (eval (n + 1) frame (.symbol name)).on k = (.ok v, k)) ∧
          ∀ n e v before, (eval n frame e).on before = (.ok v, k) →
            ((∀ g ∈ k.chain scope, name ∉ k.names g) →
              (runForm n (eval n) frame .setq [.symbol name, e]).on before =
                (.error (.unassignable name), k)) ∧
            ∀ after, k.assign? name v scope = some after →
              (runForm n (eval n) frame .setq [.symbol name, e]).on before = (.ok v, after) := by
  obtain ⟨bindings, hbind, hmissing⟩ := exists_bindArguments_missing depth label hdistinct args
  refine ⟨bindings, hbind, Machine.outer?_allocate_self _, ?_, ?_⟩
  · intro name hname hmem
    have hbound := Machine.isSome_local?_iff.2 hmem
    rw [Machine.local?_eq_lookup, Machine.bindings_allocate_self, hmissing name hname] at hbound
    cases hbound
  · intro k hk
    refine ⟨Machine.outer?_eval hk, ?_⟩
    intro name _ hname
    refine ⟨fun _ => Machine.on_lookup_of_not_mem_names hscope hk hname, ?_⟩
    intro n e v before he
    obtain ⟨hfails, hchanges⟩ := Machine.on_assign_of_not_mem_names hscope hk hname v
    rw [on_setq he, Action.on_bind]
    constructor
    · intro hnone
      rw [hfails hnone]
    · intro after hafter
      rw [hchanges after hafter]
      rfl

/-- A closure of two parameters is called with one argument, where a text has the name of the second. -/
theorem missing_parameter_captured :
    let m := (Machine.fresh false .texts).define "y" (.text "outside") Machine.globalFrame
    [("x" : Text), "y"].Nodup ∧ Machine.globalFrame < m.frames.size ∧
      ∃ bindings,
        bindArguments 9 false none ([("x" : Text), "y"].map .symbol) [.text "inside"] = .ok bindings ∧
        let called := (m.allocate bindings (some Machine.globalFrame)).2
        (eval 1 m.frames.size (.symbol "y")).on called = (.ok (.text "outside"), called) := by
  intro m
  have hdistinct : [("x" : Text), "y"].Nodup := by decide
  have hscope : Machine.globalFrame < m.frames.size := by decide
  obtain ⟨bindings, hbind, houter, hmissing, hmeans⟩ :=
    missing_parameter m hdistinct [.text "inside"] hscope 9 none
  have hy : ("y" : Text) ∈ [("x" : Text), "y"].drop 1 := by decide
  obtain ⟨hread, _⟩ := (hmeans _ houter).2 "y" hy (hmissing "y" hy)
  refine ⟨hdistinct, hscope, bindings, hbind, ?_⟩
  apply (hread 0).2
  -- the global frame is still the last of its chain, and binds the name
  obtain rfl : [(("x" : Text), Value.text "inside")] = bindings := Except.ok.inj hbind
  rw [Machine.lookup?, Machine.find?, Machine.chain_last (by decide) rfl]
  rfl

/-- In a session: the second parameter of `f` is read and changed in the global frame. -/
example : ((Interpreter.fresh false .texts).answerAll
      ["(defvar y 5)", "(defun f (x y) (setq y (list x y)))", "(f t)", "y", "(defun g (z) z)",
        "(g)"]).1.map (·.outcome) =
    [.ok "5", .ok "f", .ok "(t 5)", .ok "(t 5)", .ok "g", .error (.unbound "z")] := by
  decide +kernel

end SmallLisp
