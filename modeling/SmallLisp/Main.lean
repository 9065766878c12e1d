import SmallLisp.CommandLine.Program
import Std.Async.DNS
import Std.Async.TCP
import Std.Sync.Mutex

/-!
# `SmallLisp.Main`: the program

Reads the command line and the environment, and carries out the plan that they give on the standard
streams and on the network. What is computed is decided elsewhere; here it is read and written.
-/

namespace SmallLisp.Main

open Std.Async Std.Net

/-- The variables of the environment that are set. -/
def readVariables : IO Variables :=
  Settings.names.filterMapM fun name => return (← IO.getEnv name).map fun value => (name, value)

/-- Writes a text, if it has octets. -/
def put (stream : IO.FS.Stream) (text : Text) : IO Unit :=
  match text.string? with
  | some s => stream.putStr s
  | none => throw (.userError "surrogates not allowed")

/-- Writes a transcript to the standard streams. -/
def write (shown : Transcript) : IO Unit := do
  put (← IO.getStdout) shown.output
  (← IO.getStdout).flush
  put (← IO.getStderr) shown.errors

/-- Prompts for lines until one ends the loop. -/
partial def interact (prompt : Text) (i : Interpreter) : IO Unit := do
  write ⟨prompt, ""⟩
  let line ← (← IO.getStdin).getLine
  if line.isEmpty then write ⟨"\n", ""⟩
  else
    let (goesOn, shown, i) := Transcript.handleLine i line
    write shown
    if goesOn then interact prompt i

/-- Talks to a client until it leaves or the conversation breaks down. Clients take turns at the
service, one octet string at a time. -/
partial def converse (shared : Std.Mutex Service) (client : TCP.Socket.Client)
    (c : Service.Connection) : IO Unit := do
  match ← (client.recv? 4096).block with
  | none => return
  | some octets =>
    let c ← shared.atomically do
      let c := { c with service := ← get, sent := "", printed := "" }.receive octets.toList
      set c.service
      return c
    write ⟨c.printed, ""⟩
    (client.send c.sent.toUTF8).block
    match c.breakdown with
    | some cause => write ⟨"", (cause.message : Text) ++ "\n"⟩
    | none => converse shared client c

/-- Accepts clients for ever. -/
partial def accept (shared : Std.Mutex Service) (server : TCP.Socket.Server) : IO Unit := do
  let client ← server.accept.block
  let start ← shared.atomically do return Service.Connection.start (← get)
  discard <| IO.asTask (converse shared client start) .dedicated
  accept shared server

/-- Listens on a host and a port. -/
def serve (host : Text) (port : Int) (service : Service) : IO Unit := do
  let name := host.string?.getD ""
  let found ← (DNS.getAddrInfo name (toString port) (some .ipv4)).block
  match found.toList with
  | .v4 address :: _ =>
    let server ← TCP.Socket.Server.mk
    server.bind (.v4 ⟨address, UInt16.ofNat port.toNat⟩)
    server.listen 5
    accept (← Std.Mutex.new service) server
  | _ => throw (.userError s!"no address for {name}")

/-- Carries out a plan. -/
def execute : CommandLine.Plan → IO UInt32
  | .interact strict prompt => do
    write ⟨Transcript.banner, ""⟩
    interact prompt (.fresh strict .texts)
    return 0
  | .serve host port service => do
    serve host port service
    return 0
  | plan => do
    let done := plan.run "" []
    write done.shown
    return UInt32.ofNat (done.status.toOption.getD 1)

end SmallLisp.Main

open SmallLisp in
/-- The program: a status for the caller, and texts on the standard streams. -/
def main (words : List String) : IO UInt32 := do
  match CommandLine.plan .utf8 (← Main.readVariables) (words.map .ofString) with
  | .ok plan => Main.execute plan
  | .error abort => do
    Main.write ⟨"", abort.message ++ "\n"⟩
    return 1
