import SmallLisp.Source.Expression
import SmallLisp.Value.Printed

/-!
# `SmallLisp.Fault`: why an evaluation fails

A `Fault` is a cause; `Fault.message` puts it into words. The texts of offending values are part of
the cause, because a value that cannot be written is a cause of its own.
-/

namespace SmallLisp

/-- What an argument or operand was refused for. -/
inductive ArgumentFault
  | tooFew (p : Primitive) (least : Nat)
  | exactly (p : Primitive) (count : Nat)
  | notNumeric (p : Primitive) (shown : Text)
  | notList (p : Primitive) (shown : Text)
  | consTail
  | operandCount (form : SpecialForm)
  | target (form : SpecialForm) (shown : Text)
  | parameterList (form : SpecialForm) (shown : Text)
  | clauseNotList (shown : Text)
  | clauseEmpty
  | arity (name : Option Text) (expected given : Nat)
  | parameter (shown : Text)
  | boundName (shown : Text)
  deriving DecidableEq, Repr

/-- What stands in the place of a function and is none. -/
inductive Uncallable
  | boundTo (name : Text)
  | head
  | value (shown : Text)
  deriving DecidableEq, Repr

/-- Why an evaluation fails. -/
inductive Fault
  | unreadable (why : Source.SyntaxFault)
  | unbound (name : Text)
  | unassignable (name : Text)
  | argument (why : ArgumentFault)
  | notCallable (what : Uncallable)
  | divisionByZero
  | exhausted
  | host (why : HostFault)
  deriving DecidableEq, Repr

/-- A fault of the language itself, and not one of the host. -/
def Fault.IsOwn : Fault → Prop
  | .host _ => False
  | _ => True

/-- What the stack guard makes of a fault: where the host runs out of stack, the language has a fault
of its own. -/
def Fault.guarded : Fault → Fault
  | .host .tooDeep => .exhausted
  | fault => fault

@[simp] theorem Fault.guarded_guarded (fault : Fault) : fault.guarded.guarded = fault.guarded := by
  cases fault with
  | host why => cases why <;> rfl
  | _ => rfl

/-- The kinds of fault that a program which embeds the language tells apart. -/
inductive Fault.Kind
  | unreadable
  | unbound
  | argument
  | notCallable
  | divisionByZero
  | exhausted
  | host (why : HostFault.Kind)
  deriving DecidableEq, Repr

/-- The kind of a fault. -/
def Fault.kind : Fault → Fault.Kind
  | .unreadable _ => .unreadable
  | .unbound _ | .unassignable _ => .unbound
  | .argument _ => .argument
  | .notCallable _ => .notCallable
  | .divisionByZero => .divisionByZero
  | .exhausted => .exhausted
  | .host why => .host why.kind

/-- The cause of a failed reading. -/
def Source.ReadFault.fault : Source.ReadFault → Fault
  | .malformed why => .unreadable why
  | .tooDeep => .host .tooDeep

/-- The program text of a value, or the fault of writing it. -/
def Value.written (depth : Nat) (v : Value) : Except Fault Text :=
  (v.render depth).mapError .host

/-- A value as a diagnostic shows it, or the fault of writing it. -/
def Value.inspected (depth : Nat) (v : Value) : Except Fault Text :=
  (v.inspect depth).mapError .host

/-- Refuses an argument, showing the value that is at fault. -/
def ArgumentFault.refuse {α : Type} (why : Text → ArgumentFault)
    (shown : Except Fault Text) : Except Fault α :=
  shown.bind fun text => .error (.argument (why text))

/-- The arguments that a primitive asks for, in words. -/
def argumentCount (n : Nat) : Text := if n = 1 then "1 argument" else s!"{n} arguments"

/-- The operands that a special form asks for, in words. -/
def SpecialForm.operands : SpecialForm → Text
  | .defvar => "exactly 2 arguments: (defvar name value)"
  | .setq => "exactly 2 arguments: (setq name value)"
  | .defun _ => "a name, a parameter list and at least one body form"
  | .lambda _ => "a parameter list and at least one body form"
  | .choice => "a condition, a then-expression and an optional else-expression"
  | .conjunction | .disjunction | .cond => "any operands"

/-- What a special form calls the symbol that it binds. -/
def SpecialForm.targetRole : SpecialForm → Text
  | .defun _ => "name"
  | _ => "first argument"

/-- What a closure is called. -/
def closureName (name : Option Text) : Text :=
  match name with
  | none => "lambda"
  | some name => if name = "" then "lambda" else name

/-- The fault in words. -/
def ArgumentFault.message : ArgumentFault → Text
  | .tooFew p least => p.name ++ " requires at least " ++ argumentCount least
  | .exactly p count => p.name ++ " requires exactly " ++ argumentCount count
  | .notNumeric p shown => p.name ++ " requires numeric arguments, got " ++ shown
  | .notList p shown => p.name ++ " requires a list argument, got " ++ shown
  | .consTail => "The second argument to cons must be a list"
  | .operandCount form => form.name ++ " requires " ++ form.operands
  | .target form shown =>
    form.name ++ " " ++ form.targetRole ++ " must be a symbol, got " ++ shown
  | .parameterList form shown => form.name ++ " parameters must be a list, got " ++ shown
  | .clauseNotList shown => "cond clauses must be lists, got " ++ shown
  | .clauseEmpty => "cond clauses cannot be empty"
  | .arity name expected given =>
    closureName name ++ s!" expects {expected} argument(s), got {given}"
  | .parameter shown => "Function parameters must be symbols, got " ++ shown
  | .boundName shown => "Cannot define " ++ shown ++ ": not a symbol"

/-- The fault in words. -/
def Uncallable.message : Uncallable → Text
  | .boundTo name => "not callable: " ++ name ++ " is bound to a non-function value"
  | .head => "not callable: head of the list is not a function"
  | .value shown => "not callable: " ++ shown

/-- The fault in words. -/
def Fault.message : Fault → Text
  | .unreadable why => why.message
  | .unbound name => "Unbound symbol: " ++ name
  | .unassignable name => "Cannot set unbound symbol " ++ name
  | .argument why => why.message
  | .notCallable what => what.message
  | .divisionByZero => "Division by zero"
  | .exhausted => "Maximum recursion depth exceeded"
  | .host why => why.message

end SmallLisp
