import SmallLisp.Evaluation

/-!
# `SmallLisp.Interpreter`: sessions

An `Interpreter` reads, evaluates and prints one source text after another. Definitions stay from
one text to the next, also when a text fails.
-/

namespace SmallLisp

/-- How deep expressions and values may be nested, and evaluations may run inside one another. -/
def nestingLimit : Nat := 1000

/-- A session: its nesting limit, and its scopes with what they hold. -/
structure Interpreter where
  limit : Nat
  machine : Machine

namespace Interpreter

/-- A new session under an arity policy, which prints on a stream. -/
def fresh (strict : Bool) (output : Stream) : Interpreter := ⟨nestingLimit, .fresh strict output⟩

/-- Runs an action, keeping what it does to the machine. -/
def run {α : Type} (i : Interpreter) (action : Action α) : Except Fault α × Interpreter :=
  let (outcome, machine) := action.on i.machine
  (outcome, { i with machine })

/-- Reads the first expression of a source text and evaluates it, under the stack guard. -/
def evalAction (limit : Nat) (source : Text) : Action Value := Action.guarded do
  let expression ← Action.ofExcept ((Source.read limit source).mapError Source.ReadFault.fault)
  eval limit Machine.globalFrame expression

/-- The value of the first expression of a source text. -/
def evalSource (i : Interpreter) (source : Text) : Except Fault Value × Interpreter :=
  i.run (evalAction i.limit source)

/-- The program text of a value, written under a stack guard of its own. -/
def textOf (limit : Nat) (v : Value) : Except Fault Text :=
  (v.written limit).mapError Fault.guarded

/-- The program text of the value of the first expression of a source text. -/
def evalToText (i : Interpreter) (source : Text) : Except Fault Text × Interpreter :=
  let (outcome, i) := i.evalSource source
  (outcome.bind (textOf i.limit), i)

/-- What was printed since it was last taken: every line with a line feed. -/
def takePrinted (i : Interpreter) : Text × Interpreter :=
  (.join (i.machine.printed.toList.map (· ++ "\n")),
    { i with machine := { i.machine with printed := #[] } })

/-- What one source text gives: the lines that it prints, and the text of its value or a fault. -/
structure Reply where
  printed : Text
  outcome : Except Fault Text

/-- Evaluates a source text and takes what it prints. -/
def answer (i : Interpreter) (source : Text) : Reply × Interpreter :=
  let (outcome, i) := i.evalToText source
  let (printed, i) := i.takePrinted
  (⟨printed, outcome⟩, i)

/-- Evaluates source texts one after the other. -/
def answerAll (i : Interpreter) : List Text → List Reply × Interpreter
  | [] => ([], i)
  | source :: rest =>
    let (reply, i) := i.answer source
    let (replies, i) := i.answerAll rest
    (reply :: replies, i)

/-- How a fault is reported. -/
def report (fault : Fault) : Text := "Error: " ++ fault.message

/-- The text of an outcome: of the value, or of the report of a fault. A fault of the host is not
reported but fails with it. -/
def outcomeText : Except Fault Text → Except HostFault Text
  | .ok text => .ok text
  | .error (.host why) => .error why
  | .error fault => .ok (report fault)

/-- Evaluates one source text in a new session: what it prints, and the text of its outcome. -/
def evaluateSource (strict : Bool) (output : Stream) (source : Text) : Text × Except HostFault Text :=
  let reply := ((fresh strict output).answer source).1
  (reply.printed, outcomeText reply.outcome)

end Interpreter

end SmallLisp
