import SmallLisp.Text.Integer
import SmallLisp.Text.Quoted
import SmallLisp.Text.Upper

/-!
# `SmallLisp.Settings`: defaults from the process environment

Variables of the environment replace the built-in defaults; options of the command line replace
both. A text setting that is blank counts as not set, and so does an empty prompt or port.
-/

namespace SmallLisp

/-- The variables of the process environment. -/
abbrev Variables := List (Text × Text)

namespace Settings

/-- The port variable holds something other than a whole number. -/
structure PortFault where
  value : Text
  deriving DecidableEq, Repr

/-- The variable that holds the port. -/
def portVariable : String := "DUCKLISP_PORT"

/-- All variables that are looked at. -/
def names : List String :=
  ["DUCKLISP_HOST", portVariable, "DUCKLISP_STRICT_ARITY", "DUCKLISP_LOG_LEVEL", "DUCKLISP_PROMPT"]

/-- The fault in words. -/
def PortFault.message (fault : PortFault) : Text :=
  portVariable ++ " must be an integer, got " ++ Text.quoted fault.value

/-- A text setting without the blanks around it; `default` if nothing is left. -/
def textOr (vars : Variables) (name default : Text) : Text :=
  match vars.lookup name with
  | none => default
  | some value => if (Text.strip value).isEmpty then default else Text.strip value

/-- The host that the service listens on. -/
def host (vars : Variables) : Text := textOr vars "DUCKLISP_HOST" "127.0.0.1"

/-- The port that the service listens on. -/
def port (vars : Variables) : Except PortFault Int :=
  match vars.lookup (portVariable : Text) with
  | none => .ok 8765
  | some value =>
    if value.isEmpty then .ok 8765
    else
      match Text.integer? value with
      | some n => .ok n
      | none => .error ⟨value⟩

/-- The words that switch a setting on. -/
def switchWords : List Text := ["1", "true", "yes", "on"]

/-- Are closures strict about the number of their arguments? -/
def strictArity (vars : Variables) : Bool :=
  ((vars.lookup ("DUCKLISP_STRICT_ARITY" : Text)).map fun value =>
    switchWords.any (Text.isWord · (Text.strip value))).getD false

/-- The logging level, in upper case. -/
def logLevel (vars : Variables) : Text :=
  Text.upper (textOr vars "DUCKLISP_LOG_LEVEL" "WARNING")

/-- The prompt of the interactive loop, with the blanks around it. -/
def prompt (vars : Variables) : Text :=
  match vars.lookup ("DUCKLISP_PROMPT" : Text) with
  | none => "> "
  | some value => if value.isEmpty then "> " else value

end Settings

end SmallLisp
