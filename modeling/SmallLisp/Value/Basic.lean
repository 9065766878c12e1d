import SmallLisp.Decimal.Binary
import SmallLisp.Text

/-!
# `SmallLisp.Value.Basic`: the values of the language

Expressions and values are the same thing: a program is a list that is evaluated. A value is a
number, a text, one of the two truth values, a symbol, a list, or a function. Functions are the
*primitives*, whose operands are evaluated first, the *special forms*, which see their operands as
they are written, and the *closures* that programs make. A program that embeds the language may also
hand in values of its own kinds (`Embedded`).
-/

namespace SmallLisp

/-- Scopes are numbered in the order in which they are made. -/
abbrev FrameId := Nat

/-- The functions whose operands are evaluated. -/
inductive Primitive
  | add
  | sub
  | mul
  | div
  | equal
  | less
  | greater
  | list
  | car
  | cdr
  | cons
  | not
  | print
  deriving DecidableEq, Repr

/-- The name that a primitive has at first, in a new session. -/
def Primitive.name : Primitive → Text
  | .add => "+"
  | .sub => "-"
  | .mul => "*"
  | .div => "/"
  | .equal => "="
  | .less => "<"
  | .greater => ">"
  | .list => "list"
  | .car => "car"
  | .cdr => "cdr"
  | .cons => "cons"
  | .not => "not"
  | .print => "print"

/-- All primitives, in the order in which a new session binds them. -/
def Primitive.all : List Primitive :=
  [.add, .sub, .mul, .div, .equal, .less, .greater, .list, .car, .cdr, .cons, .not, .print]

/-- The functions that see their operands unevaluated. Those that make closures hold the arity
policy that the closures get: a strict closure refuses a wrong number of arguments. -/
inductive SpecialForm
  | conjunction
  | disjunction
  | defvar
  | setq
  | defun (strict : Bool)
  | lambda (strict : Bool)
  | choice
  | cond
  deriving DecidableEq, Repr

/-- The name that a special form has at first, in a new session. -/
def SpecialForm.name : SpecialForm → Text
  | .conjunction => "and"
  | .disjunction => "or"
  | .defvar => "defvar"
  | .setq => "setq"
  | .defun _ => "defun"
  | .lambda _ => "lambda"
  | .choice => "if"
  | .cond => "cond"

/-- All special forms under an arity policy, in the order in which a new session binds them. -/
def SpecialForm.all (strict : Bool) : List SpecialForm :=
  [.conjunction, .disjunction, .defvar, .setq, .defun strict, .lambda strict, .choice, .cond]

/-- The values that only an embedding program can hand in, and the `nothing` that a closure without
body forms returns; programs make no such closures. -/
inductive Embedded
  | int (n : Int)
  | bool (b : Bool)
  | nothing
  deriving DecidableEq, Repr

/-- A value, or an expression. A closure holds its formal parameters, its body forms, the scope
where it was made, its arity policy and the name under which it was defined, if it has one. -/
inductive Value
  | number (x : Float)
  | text (s : Text)
  | truth (b : Bool)
  | symbol (name : Text)
  | list (items : List Value)
  | primitive (p : Primitive)
  | special (form : SpecialForm)
  | closure (formals body : List Value) (scope : FrameId) (strict : Bool) (name : Option Text)
  | embedded (e : Embedded)

namespace Value

/-- The false value, which is also the value of a form that has none of its own. -/
abbrev nil : Value := .truth false

instance : Inhabited Value := ⟨nil⟩

/-- Every value but `nil` counts as true. -/
def isTruthy : Value → Bool
  | .truth b => b
  | _ => true

/-- Is the value a function? -/
def isFunction : Value → Bool
  | .primitive _ | .special _ | .closure .. => true
  | _ => false

/-- The values that a new session binds to names: the primitives, the two truth values, the special
forms. -/
def initial (strict : Bool) : List (Text × Value) :=
  Primitive.all.map (fun p => (p.name, .primitive p)) ++ [(("nil" : Text), nil), ("t", .truth true)] ++
    (SpecialForm.all strict).map fun form => (form.name, .special form)

end Value

end SmallLisp
