import SmallLisp.Interpreter

/-!
# `SmallLisp.Transcript`: the interactive loop

The loop prompts for a line, evaluates it in one session and shows what it prints and its value, or
the fault on the error stream. It ends with a line that says `exit` or with the input. The streams
are streams of texts: nothing that is shown is refused.
-/

namespace SmallLisp

/-- Texts on the two output streams. -/
structure Transcript where
  output : Text
  errors : Text
  deriving DecidableEq, Repr

namespace Transcript

/-- Nothing on either stream. -/
def empty : Transcript := ⟨"", ""⟩

/-- One transcript after the other, stream by stream. -/
def append (a b : Transcript) : Transcript := ⟨a.output ++ b.output, a.errors ++ b.errors⟩

instance : Append Transcript := ⟨append⟩

/-- How the answer to a source text is shown. -/
def ofReply (reply : Interpreter.Reply) : Transcript :=
  match reply.outcome with
  | .ok text => ⟨reply.printed ++ text ++ "\n", ""⟩
  | .error fault => ⟨reply.printed, Interpreter.report fault ++ "\n"⟩

/-- What the loop says first. -/
def banner : Text := "ducklisp interpreter\nType 'exit' to quit\n"

/-- Does the line, without the blanks around it, end the loop? -/
def isExit (line : Text) : Bool := Text.isWord "exit" (Text.strip line)

/-- The answer to a line other than one that ends the loop. -/
def answerLine (i : Interpreter) (line : Text) : Transcript × Interpreter :=
  let source := Text.strip line
  if source.isEmpty then (empty, i)
  else
    let (reply, i) := i.answer source
    (ofReply reply, i)

/-- What a line does: its answer, and whether the loop goes on. -/
def handleLine (i : Interpreter) (line : Text) : Bool × Transcript × Interpreter :=
  if isExit line then (false, empty, i) else (true, answerLine i line)

/-- The loop over the lines that are left. -/
def loop (prompt : Text) (i : Interpreter) : List Text → Transcript
  | [] => ⟨prompt ++ "\n", ""⟩
  | line :: rest =>
    if isExit line then ⟨prompt, ""⟩
    else
      let (answer, i) := answerLine i line
      ⟨prompt, ""⟩ ++ answer ++ loop prompt i rest

/-- The lines of a text, each with its line feed; the last one may have none. -/
def splitLines (run : List CodePoint) : List CodePoint → List (List CodePoint)
  | [] => if run.isEmpty then [] else [run.reverse]
  | c :: rest =>
    if c = '\n' then (c :: run).reverse :: splitLines [] rest else splitLines (c :: run) rest

/-- The lines of a text. -/
def lines (text : Text) : List Text := (splitLines [] text.toList).map .ofList

/-- The whole loop on an input text. -/
def run (prompt : Text) (i : Interpreter) (input : Text) : Transcript :=
  ⟨banner, ""⟩ ++ loop prompt i (lines input)

end Transcript

end SmallLisp
