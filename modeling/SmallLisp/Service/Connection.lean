import SmallLisp.Service.Request

/-!
# `SmallLisp.Service.Connection`: conversations with clients

A connection collects the octets that it receives, answers every line as soon as its line feed is
there, and passes over blank lines. Octets after the last line feed are never answered.
-/

namespace SmallLisp.Service

/-- A connection: the start of a line that is not complete, the service behind it, the text sent
back, what was printed, and the breakdown that ended the conversation, if there was one. -/
structure Connection where
  pending : List UInt8
  service : Service
  sent : String
  printed : Text
  breakdown : Option Breakdown

namespace Connection

/-- A connection at its start. -/
def start (service : Service) : Connection := ⟨[], service, "", "", none⟩

/-- Is the octet dropped at both ends of a line? -/
def isMargin (octet : UInt8) : Bool :=
  (0x09 ≤ octet.toNat && octet.toNat ≤ 0x0D) || octet.toNat == 0x20

/-- The complete lines of octets, without their line feeds, and the octets after the last. `run` is
the start of the first line, in reverse. -/
def cutLines (run : List UInt8) : List UInt8 → List (List UInt8) × List UInt8
  | [] => ([], run.reverse)
  | octet :: rest =>
    if octet = 0x0A then
      let (lines, pending) := cutLines [] rest
      (run.reverse :: lines, pending)
    else cutLines (octet :: run) rest

/-- Answers a complete line. -/
def answerLine (c : Connection) (line : List UInt8) : Connection :=
  let line := Text.stripBy isMargin line
  if c.breakdown.isSome || line.isEmpty then c
  else
    let done := c.service.handle (.octets line)
    let c := { c with service := done.service, printed := c.printed ++ done.printed }
    match done.response with
    | .ok response => { c with sent := c.sent ++ response.line ++ "\n" }
    | .error breakdown => { c with breakdown := some breakdown }

/-- Receives octets. -/
def receive (c : Connection) (octets : List UInt8) : Connection :=
  let (lines, pending) := cutLines [] (c.pending ++ octets)
  lines.foldl answerLine { c with pending }

/-- A whole conversation. A chunk without octets is the client's way to end it. -/
def converse (service : Service) (chunks : List (List UInt8)) : Connection :=
  (chunks.takeWhile (· ≠ [])).foldl receive (start service)

end Connection

/-- Conversations one after the other. Every client is heard by the service that those before have
left, also after a conversation that broke down: a breakdown ends the conversation of one client and
no other. -/
def serve (service : Service) : List (List (List UInt8)) → List Connection
  | [] => []
  | chunks :: rest =>
    let connection := Connection.converse service chunks
    connection :: serve connection.service rest

end SmallLisp.Service
