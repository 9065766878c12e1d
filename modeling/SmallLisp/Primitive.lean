import SmallLisp.Action

/-!
# `SmallLisp.Primitive`: what the primitives compute

Every primitive but `print` is a function of its arguments alone (`Primitive.compute`). The
arithmetic ones check all their arguments before they compute anything. `depth` limits how deep a
value may be nested that is written: the offending one of a fault, or one that is printed.
-/

namespace SmallLisp

/-- A truth value. -/
def Value.ofBool (b : Bool) : Value := .truth b

namespace Primitive

/-! ## Numbers -/

/-- The double of a number, or the fault that it has none; nothing for what is no number. -/
def double? : Value → Option (Except Fault Float)
  | .number x => some (.ok x)
  | .embedded (.int n) => some (((Decimal.ofInt? n).map .ok).getD (.error (.host .integerTooLarge)))
  | _ => none

/-- Refuses an argument that is no number. -/
def requireNumber (depth : Nat) (p : Primitive) (v : Value) : Except Fault (Except Fault Float) :=
  match double? v with
  | some x => .ok x
  | none => ArgumentFault.refuse (.notNumeric p) (v.written depth)

/-- The arguments as doubles, once all of them are known to be numbers. -/
def numbers (depth : Nat) (p : Primitive) (args : List Value) : Except Fault (List Float) := do
  let found ← args.mapM (requireNumber depth p)
  found.mapM id

/-- The fault of too few arguments. -/
def tooFew (p : Primitive) (least : Nat) : Fault := .argument (.tooFew p least)

/-- The first number less all the others; of one number the negative. -/
def difference (p : Primitive) : List Float → Except Fault Float
  | [] => .error (tooFew p 1)
  | [x] => .ok (-x)
  | x :: rest => .ok (rest.foldl (· - ·) x)

/-- Divides by one number after another, none of which may be zero. -/
def divideBy (x : Float) : List Float → Except Fault Float
  | [] => .ok x
  | divisor :: rest => if divisor == 0 then .error .divisionByZero else divideBy (x / divisor) rest

/-- The first number divided by all the others; of one number the reciprocal. -/
def quotient (p : Primitive) : List Float → Except Fault Float
  | [] => .error (tooFew p 1)
  | [x] => divideBy 1 [x]
  | x :: rest => divideBy x rest

/-- Does the relation hold between every number and the next? -/
def isChain (related : Float → Float → Bool) : List Float → Bool
  | x :: y :: rest => related x y && isChain related (y :: rest)
  | _ => true

/-- Compares at least two numbers, each with the next. -/
def compare (depth : Nat) (p : Primitive) (related : Float → Float → Bool) (args : List Value) :
    Except Fault Value :=
  if args.length < 2 then .error (tooFew p 2)
  else do return .ofBool (isChain related (← numbers depth p args))

/-! ## Lists -/

/-- The only argument. -/
def requireOne (p : Primitive) : List Value → Except Fault Value
  | [v] => .ok v
  | _ => .error (.argument (.exactly p 1))

/-- The members of an argument that is a list. -/
def requireList (depth : Nat) (p : Primitive) : Value → Except Fault (List Value)
  | .list items => .ok items
  | v => ArgumentFault.refuse (.notList p) (v.written depth)

/-! ## All primitives -/

/-- The value that a primitive returns; `print` returns its last argument. -/
def compute (depth : Nat) (p : Primitive) (args : List Value) : Except Fault Value :=
  match p with
  | .add => do return .number ((← numbers depth p args).foldl (· + ·) 0)
  | .sub => do return .number (← difference p (← numbers depth p args))
  | .mul => do return .number ((← numbers depth p args).foldl (· * ·) 1)
  | .div => do return .number (← quotient p (← numbers depth p args))
  | .equal => compare depth p (· == ·) args
  | .less => compare depth p (· < ·) args
  | .greater => compare depth p (· > ·) args
  | .list => .ok (.list args)
  | .car => do return (← requireList depth p (← requireOne p args)).headD .nil
  | .cdr => do return .list (← requireList depth p (← requireOne p args)).tail
  | .cons =>
    match args with
    | [first, .list rest] => .ok (.list (first :: rest))
    | [_, _] => .error (.argument .consTail)
    | _ => .error (.argument (.exactly p 2))
  | .not => do
    match ← requireOne p args with
    | .truth b => return .truth !b
    | _ => return .nil
  | .print => .ok (args.getLast?.getD .nil)

/-- Calls a primitive. `print` writes all its arguments on one line and returns the last. -/
def call (depth : Nat) (p : Primitive) (args : List Value) : Action Value := do
  if p = .print then
    let texts ← Action.ofExcept (args.mapM (Value.written depth))
    Action.print (Text.intercalate " " texts)
  Action.ofExcept (p.compute depth args)

end Primitive

end SmallLisp
