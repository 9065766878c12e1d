import SmallLisp.Host
import SmallLisp.Text.Blank

/-!
# `SmallLisp.Source.Token`: source text as tokens

A token is an opening or a closing parenthesis, or the longest run of other characters that holds no
blank. There are no comments, and quotes do not hold an atom together.
-/

namespace SmallLisp.Source

/-- Is the code point a token of its own? -/
def isParenthesis (c : CodePoint) : Bool := c == '(' || c == ')'

/-- The token that a run of characters makes; `run` is in reverse. -/
def closeRun (run : List CodePoint) : List (List CodePoint) := if run.isEmpty then [] else [run.reverse]

/-- Splits a text that follows the characters `run`, in reverse, of an unfinished atom. -/
def scan (run : List CodePoint) : List CodePoint → List (List CodePoint)
  | [] => closeRun run
  | c :: rest =>
    if isParenthesis c then closeRun run ++ [c] :: scan [] rest
    else if Text.isBlank c then closeRun run ++ scan [] rest
    else scan (c :: run) rest

/-- The tokens of a source text. -/
def tokenize (source : Text) : List Text := (scan [] source.toList).map Text.ofList

/-- Takes the first token off a stream of tokens. -/
def advance : List Text → Except HostFault Text × List Text
  | [] => (.error .noToken, [])
  | token :: rest => (.ok token, rest)

end SmallLisp.Source
