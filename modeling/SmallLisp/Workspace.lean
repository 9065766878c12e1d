import SmallLisp.Interpreter

/-!
# `SmallLisp.Workspace`: named sessions side by side

A `Workspace` holds interpreters under names. Each answers for itself.
-/

namespace SmallLisp

/-- Interpreters under names, in the order in which they were first used. -/
abbrev Workspace := List (Text × Interpreter)

namespace Workspace

/-- The interpreter of a name; a new one under the arity policy `strict`, with a stream of texts, if
the name is new. -/
def get (w : Workspace) (strict : Bool) (name : Text) : Interpreter :=
  (w.lookup name).getD (.fresh strict .texts)

/-- Evaluates a source text in the interpreter of a name. -/
def answer (w : Workspace) (strict : Bool) (name source : Text) :
    Interpreter.Reply × Workspace :=
  let (reply, i) := (w.get strict name).answer source
  (reply, Table.put name i w)

end Workspace

end SmallLisp
