import SmallLisp.Primitive

/-!
# `SmallLisp.Evaluation`: what expressions mean

A symbol has the value of its nearest binding, a list that is not empty is a call, and everything
else has itself as its value. `eval n` evaluates expressions that need no more than `n` nested
evaluations. It is written one level at a time: `evalStep` says what an expression means, given an
evaluator for the expressions inside it.
-/

namespace SmallLisp

/-- Evaluates an expression in a frame. -/
abbrev Evaluator := FrameId → Value → Action Value

/-! ## Operands and bodies -/

/-- Evaluates expressions in order, and has all their values. -/
def evalEach (ev : Evaluator) (f : FrameId) : List Value → Action (List Value)
  | [] => pure []
  | e :: rest => do
    let value ← ev f e
    let values ← evalEach ev f rest
    return value :: values

/-- Evaluates expressions in order, and has the last value; `value` if there are none. -/
def evalBody (ev : Evaluator) (f : FrameId) (value : Value) : List Value → Action Value
  | [] => pure value
  | e :: rest => do evalBody ev f (← ev f e) rest

/-! ## Closures -/

/-- Binds formal parameters to arguments, as far as both go. A later parameter of the same name
takes the place of an earlier one. -/
def bindFormals (depth : Nat) (bound : Bindings) : List Value → List Value → Except Fault Bindings
  | .symbol name :: formals, arg :: args =>
    bindFormals depth (Table.put name arg bound) formals args
  | formal :: _, _ :: _ => ArgumentFault.refuse .parameter (formal.inspected depth)
  | _, _ => .ok bound

/-- The bindings of a call. A strict closure refuses a wrong number of arguments; a lenient one
drops extra arguments and leaves parameters without an argument unbound. -/
def bindArguments (depth : Nat) (strict : Bool) (name : Option Text) (formals args : List Value) :
    Except Fault Bindings :=
  if strict ∧ args.length ≠ formals.length then
    .error (.argument (.arity name formals.length args.length))
  else bindFormals depth [] formals args

/-- Calls a closure: the body runs in a new frame inside the closure's scope. Without body forms
there is nothing to return. -/
def callClosure (depth : Nat) (ev : Evaluator) (formals body : List Value) (scope : FrameId)
    (strict : Bool) (name : Option Text) (args : List Value) : Action Value := do
  let bindings ← Action.ofExcept (bindArguments depth strict name formals args)
  let frame ← Action.allocate bindings (some scope)
  evalBody ev frame (.embedded .nothing) body

/-! ## Special forms -/

/-- The value of the first operand that is false, or else of the last one. -/
def evalConjunction (ev : Evaluator) (f : FrameId) (value : Value) : List Value → Action Value
  | [] => pure value
  | e :: rest => do
    let value ← ev f e
    if value.isTruthy then evalConjunction ev f value rest else pure value

/-- The value of the first operand that is true, or else `nil`. -/
def evalDisjunction (ev : Evaluator) (f : FrameId) : List Value → Action Value
  | [] => pure .nil
  | e :: rest => do
    let value ← ev f e
    if value.isTruthy then pure value else evalDisjunction ev f rest

/-- The value of the first clause whose test is true: of its last form, or of the test itself. -/
def evalClauses (depth : Nat) (ev : Evaluator) (f : FrameId) : List Value → Action Value
  | [] => pure .nil
  | .list (test :: body) :: rest => do
    let value ← ev f test
    if value.isTruthy then evalBody ev f value body else evalClauses depth ev f rest
  | .list [] :: _ => throw (.argument .clauseEmpty)
  | clause :: _ => Action.ofExcept (ArgumentFault.refuse .clauseNotList (clause.inspected depth))

/-- A name that is to be bound. -/
def requireTarget (depth : Nat) (form : SpecialForm) : Value → Except Fault Text
  | .symbol name => .ok name
  | v => ArgumentFault.refuse (.target form) (v.inspected depth)

/-- A list of formal parameters. -/
def requireParameters (depth : Nat) (form : SpecialForm) : Value → Except Fault (List Value)
  | .list formals => .ok formals
  | v => ArgumentFault.refuse (.parameterList form) (v.inspected depth)

/-- Runs a special form on its operands, in the frame of the call. -/
def runForm (depth : Nat) (ev : Evaluator) (f : FrameId) (form : SpecialForm)
    (operands : List Value) : Action Value :=
  match form, operands with
  | .conjunction, operands => evalConjunction ev f (.truth true) operands
  | .disjunction, operands => evalDisjunction ev f operands
  | .cond, clauses => evalClauses depth ev f clauses
  | .choice, test :: yes :: no => do
    -- the operands are counted before the test is evaluated
    if 1 < no.length then throw (.argument (.operandCount form))
    if (← ev f test).isTruthy then ev f yes else evalBody ev f .nil no
  | .defvar, [target, e] => do
    let name ← Action.ofExcept (requireTarget depth form target)
    let value ← ev f e
    Action.define name value f
    return value
  | .setq, [target, e] => do
    let name ← Action.ofExcept (requireTarget depth form target)
    -- the name is looked for only after this, so `e` may be what binds it
    let value ← ev f e
    Action.assign name value f
    return value
  | .defun strict, target :: parameters :: first :: rest => do
    let name ← Action.ofExcept (requireTarget depth form target)
    let formals ← Action.ofExcept (requireParameters depth form parameters)
    Action.define name (.closure formals (first :: rest) f strict (some name)) f
    return .symbol name
  | .lambda strict, parameters :: first :: rest => do
    let formals ← Action.ofExcept (requireParameters depth form parameters)
    return .closure formals (first :: rest) f strict none
  | _, _ => throw (.argument (.operandCount form))

/-! ## Calls -/

/-- Calls a function: one whose arguments are evaluated on their values, a special form on its
operands as they are. `f` is the frame of the call. -/
def callValue (depth : Nat) (ev : Evaluator) (f : FrameId) (function : Value) (args : List Value) :
    Action Value :=
  match function with
  | .primitive p => p.call depth args
  | .special form => runForm depth ev f form args
  | .closure formals body scope strict name =>
    callClosure depth ev formals body scope strict name args
  | v => do throw (.notCallable (.value (← Action.ofExcept (v.inspected depth))))

/-- Evaluates a call that a symbol heads. -/
def evalNamedCall (depth : Nat) (ev : Evaluator) (f : FrameId) (name : Text)
    (operands : List Value) : Action Value := do
  match ← Action.lookup name f with
  -- what the name is bound to decides, and not the name: a special form may have several
  | .special form => runForm depth ev f form operands
  | function =>
    if function.isFunction then callValue depth ev f function (← evalEach ev f operands)
    else throw (.notCallable (.boundTo name))

/-- Evaluates a call that another expression heads; its value has to be a closure. -/
def evalComputedCall (depth : Nat) (ev : Evaluator) (f : FrameId) (head : Value)
    (operands : List Value) : Action Value := do
  match ← ev f head with
  | .closure formals body scope strict name =>
    callClosure depth ev formals body scope strict name (← evalEach ev f operands)
  | _ => throw (.notCallable .head)

/-- Evaluates an expression, given an evaluator for those inside it. -/
def evalStep (depth : Nat) (ev : Evaluator) : Evaluator := fun f e =>
  match e with
  | .symbol name => Action.lookup name f
  | .list (.symbol name :: operands) => evalNamedCall depth ev f name operands
  | .list (head :: operands) => evalComputedCall depth ev f head operands
  | v => pure v

/-- Evaluates an expression with at most `n` evaluations inside one another. -/
def eval : Nat → Evaluator
  | 0 => fun _ _ => throw (.host .tooDeep)
  | n + 1 => evalStep n (eval n)

/-- Calls a function on arguments, with at most `n` evaluations inside one another. -/
def apply (n : Nat) (f : FrameId) (function : Value) (args : List Value) : Action Value :=
  callValue n (eval n) f function args

/-! ## Calls of names that are bound -/

section

variable {m : Machine} {f : FrameId} {name : Text} {operands : List Value}

/-- A call of a name that is bound to a special form runs this form. -/
theorem on_eval_form {form : SpecialForm} (h : m.lookup? name f = some (.special form)) (n : Nat) :
    (eval (n + 1) f (.list (.symbol name :: operands))).on m =
      (runForm n (eval n) f form operands).on m := by
  show (Action.lookup name f >>= _).on m = _
  rw [Action.on_bind, Action.on_lookup, h]

/-- A call of a name that is bound to a primitive evaluates the operands, and calls the primitive. -/
theorem on_eval_primitive {p : Primitive} (h : m.lookup? name f = some (.primitive p)) (n : Nat) :
    (eval (n + 1) f (.list (.symbol name :: operands))).on m =
      (evalEach (eval n) f operands >>= p.call n).on m := by
  show (Action.lookup name f >>= _).on m = _
  rw [Action.on_bind, Action.on_lookup, h]
  rfl

end

end SmallLisp
