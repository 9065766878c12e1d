import SmallLisp.Source.Atom
import SmallLisp.Source.Token

/-!
# `SmallLisp.Source.Expression`: tokens as expressions

An expression is an atom, or expressions between parentheses. `readFirst` takes the first expression
off a list of tokens. It walks over the tokens once, keeping the lists that are still open, and
refuses to open more of them than its limit.
-/

namespace SmallLisp.Source

/-- Why tokens do not begin with an expression. -/
inductive SyntaxFault
  | endOfInput
  | strayClosing
  | unclosed
  deriving DecidableEq, Repr

/-- The fault in words. -/
def SyntaxFault.message : SyntaxFault → Text
  | .endOfInput => "unexpected end of input"
  | .strayClosing => "unexpected closing paren"
  | .unclosed => "unclosed parenthesis"

/-- Why no expression is read. -/
inductive ReadFault
  | malformed (why : SyntaxFault)
  | tooDeep
  deriving DecidableEq, Repr

/-- The result of reading, and the tokens that are left. -/
abbrev Reading := Except ReadFault Value × List Text

/-- Reads on inside a list whose members so far are `members`, in reverse. The lists around it are
`outer`, innermost first, each with its members so far in reverse; `room` is how many more lists may
be opened. -/
def readInside (room : Nat) (members : List Value) (outer : List (List Value)) :
    List Text → Reading
  | [] => (.error (.malformed .unclosed), [])
  | token :: rest =>
    if token = "(" then
      match room with
      | 0 => (.error .tooDeep, rest)
      | room + 1 => readInside room [] (members :: outer) rest
    else if token = ")" then
      match outer with
      | [] => (.ok (.list members.reverse), rest)
      | around :: outer => readInside (room + 1) (.list members.reverse :: around) outer rest
    else readInside room (ofAtom token :: members) outer rest

/-- Reads the first expression, opening at most `limit` lists at a time. -/
def readFirst (limit : Nat) : List Text → Reading
  | [] => (.error (.malformed .endOfInput), [])
  | token :: rest =>
    if token = "(" then
      match limit with
      | 0 => (.error .tooDeep, rest)
      | room + 1 => readInside room [] [] rest
    else if token = ")" then (.error (.malformed .strayClosing), rest)
    else (.ok (ofAtom token), rest)

/-- Reads the first expression of a source text; what follows it is ignored. -/
def read (limit : Nat) (source : Text) : Except ReadFault Value :=
  (readFirst limit (tokenize source)).1

end SmallLisp.Source
