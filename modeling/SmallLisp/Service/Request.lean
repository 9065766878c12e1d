import SmallLisp.Interpreter
import SmallLisp.Json.Escape
import SmallLisp.Json.Reader
import SmallLisp.Text.Utf8

/-!
# `SmallLisp.Service.Request`: requests and responses

A request is a JSON object on one line that asks for a source text to be evaluated; the response is
one too. A service answers each request in a new session, or all of them in one. A line that is no
request is answered by a refusal and leaves the session as it was.

A line that the host fails on is not answered but ends the conversation (`Breakdown`): one with an
integer of too many digits, one nested too deep, and one whose source text lets the host fail, as by
printing what the output stream refuses.
-/

namespace SmallLisp

namespace Service

/-- What a response says. -/
inductive Response
  | success (text : Text)
  | failure (text : Text)
  deriving DecidableEq, Repr

/-- A response as a line of JSON, without its line feed. -/
def Response.line : Response → String
  | .success text => "\x7b\"ok\": true, \"result\": " ++ Json.quote text ++ "\x7d"
  | .failure text => "\x7b\"ok\": false, \"error\": " ++ Json.quote text ++ "\x7d"

/-- The response to a line that is no request. -/
def Response.invalid (why : Text) : Response := .failure ("Invalid request: " ++ why)

/-- Why a line is not answered at all. -/
inductive Breakdown
  | integerTooLong (digits : Nat)
  | nestedTooDeep
  | host (why : HostFault)
  deriving DecidableEq, Repr

/-- The breakdown in words. -/
def Breakdown.message : Breakdown → Text
  | .integerTooLong digits =>
    s!"Exceeds the limit ({maxIntegerDigits} digits) for integer string conversion: " ++
      s!"value has {digits} digits; use sys.set_int_max_str_digits() to increase the limit"
  | .nestedTooDeep => "Maximum recursion depth exceeded"
  | .host why => why.message

/-- The response to the outcome of a source text: faults of the language are reported, and those of
the host are not. -/
def respond : Except Fault Text → Except Breakdown Response
  | .ok text => .ok (.success text)
  | .error (.host why) => .error (.host why)
  | .error fault => .ok (.failure (Interpreter.report fault))

/-- What a line asks for. -/
inductive Request
  | eval (source : Text)
  | refuse (response : Response)
  deriving DecidableEq, Repr

/-- What the members of an object ask for. -/
def Request.ofMembers (members : List (Text × Json)) : Request :=
  let command := (members.lookup ("cmd" : Text)).getD .null
  if command.isString "eval" then
    match members.lookup ("code" : Text) with
    | none => .eval ""
    | some (.string source) => .eval source
    | some _ => .refuse (.invalid "code must be a string")
  else .refuse (.failure ("Unknown cmd: " ++ command.label))

/-- What a line asks for. -/
def Request.ofText (line : Text) : Except Breakdown Request :=
  match Json.read nestingLimit line with
  | .ok (.object members) => .ok (.ofMembers members)
  | .ok _ => .ok (.refuse (.invalid "expected a JSON object"))
  | .error (.malformed defect place) => .ok (.refuse (.invalid (defect.message line place)))
  | .error (.integerTooLong digits) => .error (.integerTooLong digits)
  | .error .tooDeep => .error .nestedTooDeep

/-- What a line of octets asks for. -/
def Request.ofOctets (line : List UInt8) : Except Breakdown Request :=
  match Text.Utf8.decode line with
  | .ok characters => Request.ofText (.ofList (characters.map .char))
  | .error fault => .ok (.refuse (.invalid fault.message))

/-- A line as it is handed to a service: a text, or octets. -/
inductive Line
  | text (line : Text)
  | octets (line : List UInt8)

/-- What a line asks for. -/
def Line.request : Line → Except Breakdown Request
  | text line => Request.ofText line
  | octets line => Request.ofOctets line

end Service

/-- A service: its arity policy, the stream on which source texts print, and its session if requests
share one. -/
structure Service where
  strict : Bool
  output : Stream
  session : Option Interpreter

namespace Service

/-- A new service. -/
def fresh (shared strict : Bool) (output : Stream) : Service :=
  ⟨strict, output, if shared then some (.fresh strict output) else none⟩

/-- What becomes of a line: its response or why it has none, what was printed, and the service after
it. -/
structure Handled where
  response : Except Breakdown Response
  printed : Text
  service : Service

/-- The interpreter that answers a request: that of the session, or a new one. -/
def interpreter (service : Service) : Interpreter :=
  service.session.getD (.fresh service.strict service.output)

/-- Answers a request. -/
def answer (service : Service) : Request → Handled
  | .refuse response => ⟨.ok response, "", service⟩
  | .eval source =>
    let (reply, i) := service.interpreter.answer source
    let service := { service with session := service.session.map fun _ => i }
    ⟨respond reply.outcome, reply.printed, service⟩

/-- Handles a line. -/
def handle (service : Service) (line : Line) : Handled :=
  match line.request with
  | .ok request => service.answer request
  | .error breakdown => ⟨.error breakdown, "", service⟩

end Service

end SmallLisp
