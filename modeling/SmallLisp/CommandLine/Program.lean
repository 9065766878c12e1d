import SmallLisp.CommandLine.Options
import SmallLisp.Service.Connection
import SmallLisp.Settings
import SmallLisp.Transcript

/-!
# `SmallLisp.CommandLine.Program`: what a command line does

`plan` turns a command line and the environment into a `Plan`: to show a text, to evaluate one
source text, to run the interactive loop, or to serve. `run` carries out a plan against an input
text and the chunks that clients send. A source text of the command line and the loop print on
streams of texts; a service prints on the stream that it is given.
-/

namespace SmallLisp.CommandLine

/-- How the program is called. -/
def usage : Text :=
  "usage: ducklisp [-h] [-e EXPR] [--serve] [--host HOST] [--port PORT]\n" ++
  "                [--session] [--strict-arity] [--log-level LOG_LEVEL]\n" ++
  "                [--version]\n"

/-- What the program is, and its options. -/
def helpText : Text :=
  usage ++
  "\nA small Lisp interpreter\n" ++
  "\noptions:\n" ++
  "  -h, --help            show this help message and exit\n" ++
  "  -e EXPR, --eval EXPR  evaluate one expression, print it and exit\n" ++
  "  --serve               run the JSON-lines TCP evaluation service\n" ++
  "  --host HOST           service host (default: $DUCKLISP_HOST or 127.0.0.1)\n" ++
  "  --port PORT           service port (default: $DUCKLISP_PORT or 8765)\n" ++
  "  --session             keep one interpreter for all service requests instead\n" ++
  "                        of one per request\n" ++
  "  --strict-arity        reject function calls with the wrong number of\n" ++
  "                        arguments\n" ++
  "  --log-level LOG_LEVEL\n" ++
  "                        logging level (default: $DUCKLISP_LOG_LEVEL or\n" ++
  "                        WARNING)\n" ++
  "  --version             show program's version number and exit\n"

/-- The name and the version of the program. -/
def versionText : Text := "ducklisp 0.3.0\n"

/-- Why the program ends without a status of its own. -/
inductive Abort
  | unknownLevel (level : Text)
  | port (fault : Settings.PortFault)
  deriving DecidableEq, Repr

/-- The cause in words. -/
def Abort.message : Abort → Text
  | .unknownLevel level => "Unknown level: " ++ Text.quoted level
  | .port fault => fault.message

/-- The logging levels. -/
def levels : List Text :=
  ["CRITICAL", "FATAL", "ERROR", "WARN", "WARNING", "INFO", "DEBUG", "NOTSET"]

/-- What the program is to do. -/
inductive Plan
  | finish (status : Nat) (shown : Transcript)
  | evaluate (strict : Bool) (source : Text)
  | interact (strict : Bool) (prompt : Text)
  | serve (host : Text) (port : Int) (service : Service)

/-- An option's text if it is given and not empty, else the setting. -/
def givenOr (given : Option Text) (setting : Text) : Text :=
  match given with
  | none => setting
  | some text => if text.isEmpty then setting else text

/-- What options ask for. The logging level is checked first. A service prints on the stream
`output`. -/
def planOptions (output : Stream) (vars : Variables) (options : Options) : Except Abort Plan :=
  let level := Text.upper (givenOr options.logLevel (Settings.logLevel vars))
  let strict := options.strictArity || Settings.strictArity vars
  if level ∉ levels then .error (.unknownLevel level)
  else if options.serve then do
    let port ← match options.port with
      | some port => .ok port
      | none => (Settings.port vars).mapError .port
    return .serve (givenOr options.host (Settings.host vars)) port
      (.fresh options.session strict output)
  else
    match options.source with
    | some source => .ok (.evaluate strict source)
    | none => .ok (.interact strict (Settings.prompt vars))

/-- What a command line asks for. -/
def plan (output : Stream) (vars : Variables) (words : List Text) : Except Abort Plan :=
  match parse words with
  | .error fault =>
    .ok (.finish 2 ⟨"", usage ++ "ducklisp: error: " ++ fault.message ++ "\n"⟩)
  | .ok .help => .ok (.finish 0 ⟨helpText, ""⟩)
  | .ok .version => .ok (.finish 0 ⟨versionText, ""⟩)
  | .ok (.run options) => planOptions output vars options

/-- What the program did: its status or why it has none, what it wrote, where it listened, and its
connections as they ended. -/
structure Run where
  status : Except Abort Nat
  shown : Transcript
  bound : Option (Text × Int)
  connections : List Service.Connection

/-- Evaluates one source text in a new session; the status tells whether that failed. -/
def evaluate (strict : Bool) (source : Text) : Nat × Transcript :=
  let reply := ((Interpreter.fresh strict .texts).answer source).1
  (if reply.outcome.isOk then 0 else 1, Transcript.ofReply reply)

/-- Carries out a plan on an input text and on the chunks of the connections that clients make, one
after the other. -/
def Plan.run (input : Text) (clients : List (List (List UInt8))) : Plan → Run
  | .finish status shown => ⟨.ok status, shown, none, []⟩
  | .evaluate strict source =>
    let (status, shown) := CommandLine.evaluate strict source
    ⟨.ok status, shown, none, []⟩
  | .interact strict prompt =>
    ⟨.ok 0, Transcript.run prompt (Interpreter.fresh strict .texts) input, none, []⟩
  | .serve host port service =>
    let connections := Service.serve service clients
    ⟨.ok 0, ⟨.join (connections.map (·.printed)), ""⟩, some (host, port), connections⟩

/-- Runs a command line. -/
def run (output : Stream) (vars : Variables) (words : List Text) (input : Text)
    (clients : List (List (List UInt8))) : Run :=
  match plan output vars words with
  | .ok plan => plan.run input clients
  | .error abort => ⟨.error abort, .empty, none, []⟩

end SmallLisp.CommandLine
