import SmallLisp.Proofs.Json.Objects
import SmallLisp.Proofs.Service.Requests

/-!
# `Proofs.Service.Wire` — what a client reads is what the interpreter said

A client writes source texts into requests, one to a line, and sends the octets in whatever chunks. The lines
come out of the stream as they were put in (`requestLines_requestStream`), each is decoded and read back as
the request that it is (`ofOctets_requestText`), and the response to it is on one line. A plain response reads
back from its line (`read_line`), and plain source texts in a plain session have plain responses
(`Reachable.plain_of_mem_replies`). So the wire does not show: the client reads the replies of an interpreter
to its source texts (`converse_replies`).
-/

namespace SmallLisp

namespace Service

/-- The members of a request to evaluate a source text, as they are written. -/
def requestMembers (written : List CodePoint) : List (List CodePoint × List CodePoint) :=
  [(("cmd" : Text).toList, Json.stringText ("eval" : Text).toList),
    (("code" : Text).toList, Json.stringText written)]

/-- A request to evaluate a source text, which is written between the quotes. -/
def requestText (written : List Char) : List Char :=
  "\x7b\"cmd\": \"eval\", \"code\": \"".toList ++ written ++ "\"\x7d".toList

/-- The octets of requests, each on a line of its own. -/
def requestStream (written : List (List Char)) : List UInt8 :=
  Text.Utf8.encode (written.flatMap fun t => requestText t ++ ['\n'])

/-- The object that a response is: the text of a value, or the report of a fault. -/
def Response.object : Response → Json
  | .success text => .object [("ok", .bool true), ("result", .string text)]
  | .failure text => .object [("ok", .bool false), ("error", .string text)]

/-- What the interpreter of a service says to source texts: that of the session, or a new one for each. -/
def replies (service : Service) (codes : List Text) : List Interpreter.Reply :=
  match service.session with
  | some i => (i.answerAll codes).1
  | none => codes.map fun code => ((Interpreter.fresh service.strict service.output).answer code).1

/-! ## Requests -/

/-- A request is read as its object. -/
theorem read_requestMembers {written : List CodePoint} {code : Text}
    (h : Json.Written written code.toList) :
    Json.read nestingLimit (.ofList (Json.objectText (requestMembers written))) =
      .ok (.object [("cmd", .string "eval"), ("code", .string code)]) := by
  have heval : Json.Written ("eval" : Text).toList ("eval" : Text).toList :=
    Json.written_self (by decide)
  have hcmd : Json.ReadsMember 999 (("cmd" : Text).toList, Json.stringText ("eval" : Text).toList)
      ("cmd", .string "eval") :=
    Json.readsMember_self (by decide) (Json.reads_string heval)
  have hcode : Json.ReadsMember 999 (("code" : Text).toList, Json.stringText written)
      ("code", .string code) :=
    Json.readsMember_self (by decide) (Json.reads_string h)
  have hkeys : ([("cmd" : Text), "code"] : List Text).Nodup := by decide
  have hread := Json.read_object (.cons hcmd (.cons hcode .nil))
  rw [Table.ofEntries_of_nodup] at hread
  · exact hread
  · exact hkeys

/-- An object with a command and a code asks for the code to be evaluated. -/
theorem ofText_requestMembers {written : List CodePoint} {code : Text}
    (h : Json.Written written code.toList) :
    Request.ofText (.ofList (Json.objectText (requestMembers written))) = .ok (.eval code) := by
  rw [Request.ofText, read_requestMembers h]
  rfl

/-- **Every source text can be asked for.** -/
theorem exists_asks (source : Text) : ∃ line : Line, line.Asks source := by
  obtain ⟨written, hwritten⟩ := Json.exists_written source.toList
  exact ⟨.text (.ofList (Json.objectText (requestMembers written))),
    Line.request_eq_eval_iff.1 (ofText_requestMembers hwritten)⟩

/-- A request is an object with a command and a code. -/
theorem map_requestText (written : List Char) :
    (requestText written).map .char = Json.objectText (requestMembers (written.map .char)) := by
  have hopen : "\x7b\"cmd\": \"eval\", \"code\": \"".toList.map CodePoint.char =
      .char '\x7b' :: (Json.memberText (("cmd" : Text).toList, Json.stringText ("eval" : Text).toList) ++
        .char ',' :: .char ' ' :: (Json.stringText ("code" : Text).toList ++
          [.char ':', .char ' ', .char '"'])) := by decide +kernel
  have hclose : "\"\x7d".toList.map CodePoint.char = [.char '"', .char '\x7d'] := by decide
  unfold requestText
  rw [List.map_append, List.map_append, hopen, hclose]
  simp [requestMembers, Json.objectText, Json.furtherText, Json.memberText, Json.stringText]

/-- **The octets of a request ask for its source text to be evaluated.** -/
theorem ofOctets_requestText {written : List Char} {code : Text}
    (h : Json.Written (written.map .char) code.toList) :
    Request.ofOctets (Text.Utf8.encode (requestText written)) = .ok (.eval code) := by
  rw [Request.ofOctets, Text.Utf8.decode_encode]
  show Request.ofText (.ofList ((requestText written).map .char)) = _
  rw [map_requestText, ofText_requestMembers h]

theorem lineFeed_not_mem_requestText {written : List Char} {s : List CodePoint}
    (h : Json.Written (written.map .char) s) : '\n' ∉ requestText written := by
  intro hmem
  have hpoint := List.mem_map_of_mem (f := CodePoint.char) hmem
  rw [map_requestText] at hpoint
  refine Json.lineFeed_not_mem_objectText ?_ hpoint
  simp [requestMembers, Json.stringText, h.lineFeed_not_mem]

/-! ## Responses -/

/-- The members of a response, as they are written: a truth value under `ok`, and a text under another key. -/
def verdictMembers (verdict key text : Text) : List (List CodePoint × List CodePoint) :=
  [(("ok" : Text).toList, verdict.toList),
    (key.toList, Json.stringText ((text.toList.flatMap Json.escapePoint).map .char))]

/-- The members of a response, as they are written. -/
def Response.members : Response → List (List CodePoint × List CodePoint)
  | .success text => verdictMembers "true" "result" text
  | .failure text => verdictMembers "false" "error" text

/-- What stands in front of the text of a response, and the text, between the quotes. -/
theorem objectText_verdictMembers (opening : Text) {verdict key : Text} (text : Text)
    (hopening : opening.toList = .char '\x7b' :: (Json.memberText (("ok" : Text).toList, verdict.toList) ++
      .char ',' :: .char ' ' :: (Json.stringText key.toList ++ [.char ':', .char ' ']))) :
    Json.objectText (verdictMembers verdict key text) =
      opening.toList ++ (Json.quote text).toList.map .char ++ [.char '\x7d'] := by
  rw [hopening, Json.quote, String.toList_ofList]
  simp [verdictMembers, Json.objectText, Json.furtherText, Json.memberText, Json.stringText]

/-- The line of a response is an object. -/
theorem ofString_line (response : Response) :
    Text.ofString response.line = .ofList (Json.objectText response.members) := by
  cases response with
  | success text =>
    unfold Response.line
    rw [Text.ofString_append, Text.ofString_append, Response.members,
      objectText_verdictMembers "\x7b\"ok\": true, \"result\": " text (by decide +kernel)]
    rfl
  | failure text =>
    unfold Response.line
    rw [Text.ofString_append, Text.ofString_append, Response.members,
      objectText_verdictMembers "\x7b\"ok\": false, \"error\": " text (by decide +kernel)]
    rfl

/-- What is escaped is written, if the text is plain. -/
theorem written_escapePoint {s : Text} (h : s.IsPlain) :
    Json.Written ((s.toList.flatMap Json.escapePoint).map .char) s.toList := by
  obtain ⟨t, rfl⟩ := Text.isPlain_iff.1 h
  rw [Text.toList_ofString, List.flatMap_map]
  exact Json.written_escape t.toList

/-- A plain text under a key is read back, and so is the truth value before it. -/
theorem read_verdictMembers {verdict key text : Text} {b : Bool}
    (hverdict : Json.Reads 999 verdict.toList (.bool b))
    (hkey : ∀ c ∈ key.toList, 0x20 ≤ c.toNat ∧ c ≠ .char '"' ∧ c ≠ .char '\\') (hne : ("ok" : Text) ≠ key)
    (h : text.IsPlain) :
    Json.read nestingLimit (.ofList (Json.objectText (verdictMembers verdict key text))) =
      .ok (.object [("ok", .bool b), (key, .string text)]) := by
  have hok : Json.ReadsMember 999 (("ok" : Text).toList, verdict.toList) ("ok", .bool b) :=
    Json.readsMember_self (by decide) hverdict
  have htext : Json.ReadsMember 999
      (key.toList, Json.stringText ((text.toList.flatMap Json.escapePoint).map .char)) (key, .string text) :=
    Json.readsMember_self hkey (Json.reads_string (written_escapePoint h))
  have hread := Json.read_object (.cons hok (.cons htext .nil))
  rw [Table.ofEntries_of_nodup] at hread
  · exact hread
  · simp [hne]

/-- **The line of a plain response reads as the response.** -/
theorem read_line {response : Response} (h : response.text.IsPlain) :
    Json.read nestingLimit response.line = .ok response.object := by
  rw [ofString_line]
  cases response with
  | success text => exact read_verdictMembers Json.reads_true (by decide) (by decide) h
  | failure text => exact read_verdictMembers Json.reads_false (by decide) (by decide) h

/-- A response is on one line, whatever it says. -/
theorem lineFeed_not_mem_line (response : Response) : '\n' ∉ response.line.toList := by
  have hverdict {verdict key : Text} (text : Text) (hv : .char '\n' ∉ verdict.toList)
      (hk : .char '\n' ∉ key.toList) :
      .char '\n' ∉ Json.objectText (verdictMembers verdict key text) := by
    apply Json.lineFeed_not_mem_objectText
    simp [verdictMembers, Json.stringText, Json.lineFeed_not_mem_escapePoint, hv, hk]
  intro hmem
  have hpoint : .char '\n' ∈ (Text.ofString response.line).toList := List.mem_map_of_mem hmem
  rw [ofString_line] at hpoint
  cases response with
  | success text => exact hverdict text (by decide) (by decide) hpoint
  | failure text => exact hverdict text (by decide) (by decide) hpoint

/-! ## Lines -/

section

variable {α : Type} {separator : α} {lines : List (List α)}

theorem getLast?_lines (h : lines ≠ []) :
    (lines.flatMap (· ++ [separator])).getLast? = some separator := by
  rcases List.eq_nil_or_concat lines with rfl | ⟨before, last, rfl⟩
  · exact absurd rfl h
  · simp

variable [DecidableEq α]

/-- Lines come out of a stream as they were put in. -/
theorem splitOn_lines (h : ∀ line ∈ lines, separator ∉ line) :
    (lines.flatMap (· ++ [separator])).splitOn separator = lines ++ [[]] := by
  induction lines with
  | nil => exact List.splitOn_nil separator
  | cons line rest ih =>
    obtain ⟨hline, hrest⟩ := List.forall_mem_cons.1 h
    rw [List.flatMap_cons, List.append_assoc]
    show ((line ++ separator :: rest.flatMap (· ++ [separator])).splitOn separator) = _
    rw [List.splitOn_append_cons_self_of_not_mem hline, ih hrest]
    rfl

theorem count_lines (h : ∀ line ∈ lines, separator ∉ line) :
    (lines.flatMap (· ++ [separator])).count separator = lines.length := by
  induction lines with
  | nil => rfl
  | cons line rest ih =>
    obtain ⟨hline, hrest⟩ := List.forall_mem_cons.1 h
    simp [List.count_eq_zero_of_not_mem hline, ih hrest]

end

/-- Octets between two that are no margin have no margin to lose. -/
theorem stripBy_of_ends {drop : UInt8 → Bool} {first last : UInt8} (hfirst : drop first = false)
    (hlast : drop last = false) (octets : List UInt8) :
    Text.stripBy drop (first :: (octets ++ [last])) = first :: (octets ++ [last]) := by
  simp [Text.stripBy, hfirst, hlast]

/-- The octets of a request stand between those of its braces. -/
theorem encode_requestText (written : List Char) :
    ∃ inner, Text.Utf8.encode (requestText written) = 0x7B :: (inner ++ [0x7D]) := by
  have hopen : Text.Utf8.encode "\x7b\"cmd\": \"eval\", \"code\": \"".toList =
      0x7B :: Text.Utf8.encode "\"cmd\": \"eval\", \"code\": \"".toList := by decide +kernel
  have hclose : Text.Utf8.encode "\"\x7d".toList = [0x22, 0x7D] := by decide
  unfold requestText
  rw [Text.Utf8.encode_append, Text.Utf8.encode_append, hopen, hclose]
  exact ⟨Text.Utf8.encode "\"cmd\": \"eval\", \"code\": \"".toList ++
    Text.Utf8.encode written ++ [0x22], by simp⟩

/-- **The request lines of a stream are the requests**, each as it was encoded. -/
theorem requestLines_requestStream {written : List (List Char)}
    (h : ∀ t ∈ written, '\n' ∉ requestText t) :
    Connection.requestLines (requestStream written) =
      written.map fun t => Text.Utf8.encode (requestText t) := by
  have hlineFeed : Text.Utf8.encode ['\n'] = [0x0A] := by decide
  have hstream : requestStream written =
      (written.map fun t => Text.Utf8.encode (requestText t)).flatMap (· ++ [0x0A]) := by
    rw [requestStream, Text.Utf8.encode, List.flatMap_assoc, List.flatMap_map]
    congr 1
    funext t
    rw [← hlineFeed, ← Text.Utf8.encode_append]
    rfl
  have hlines : Connection.completeLines (requestStream written) =
      written.map fun t => Text.Utf8.encode (requestText t) := by
    rw [Connection.completeLines, hstream, splitOn_lines, List.dropLast_concat]
    intro line hline
    obtain ⟨t, ht, rfl⟩ := List.mem_map.1 hline
    exact Text.Utf8.lineFeed_not_mem_encode (h t ht)
  have hstrip : ∀ t, Text.stripBy Connection.isMargin (Text.Utf8.encode (requestText t)) =
      Text.Utf8.encode (requestText t) := by
    intro t
    obtain ⟨inner, hinner⟩ := encode_requestText t
    rw [hinner]
    exact stripBy_of_ends (by decide) (by decide) inner
  rw [Connection.requestLines, hlines, List.map_map, List.filter_eq_self.2]
  · simp [Function.comp_def, hstrip]
  · intro line hline
    obtain ⟨t, _, rfl⟩ := List.mem_map.1 hline
    obtain ⟨inner, hinner⟩ := encode_requestText t
    show !(Text.stripBy Connection.isMargin (Text.Utf8.encode (requestText t))).isEmpty
    rw [hstrip, hinner]
    rfl

/-- Requests that source texts are written into ask for these source texts. -/
theorem forall₂_handed {written : List (List Char)} {codes : List Text}
    (h : List.Forall₂ (fun t code => Json.Written (t.map .char) code.toList) written codes) :
    List.Forall₂ (fun line code => Line.request line = .ok (.eval code))
      (Connection.handed (requestStream written)) codes := by
  have hone : ∀ t ∈ written, '\n' ∉ requestText t := by
    induction h with
    | nil => simp
    | cons hcode _ ih => exact List.forall_mem_cons.2 ⟨lineFeed_not_mem_requestText hcode, ih⟩
  rw [Connection.handed, requestLines_requestStream hone, List.forall₂_map_left_iff,
    List.forall₂_map_left_iff]
  exact h.imp fun _ _ => ofOctets_requestText

/-! ## Replies -/

section

variable {shared strict : Bool} {output : Stream} {service : Service} {codes : List Text}

/-- The first source text is answered by the service as it is, and the others by what that leaves. -/
theorem replies_cons (service : Service) (code : Text) (rest : List Text) :
    service.replies (code :: rest) =
      (service.interpreter.answer code).1 :: (service.evaluated code).replies rest := by
  cases hs : service.session with
  | none => simp [replies, evaluated, interpreter, hs]
  | some i => simp [replies, evaluated, interpreter, hs, Interpreter.answerAll]

theorem length_replies (service : Service) (codes : List Text) :
    (service.replies codes).length = codes.length := by
  induction codes generalizing service with
  | nil => cases hs : service.session <;> simp [replies, hs, Interpreter.answerAll]
  | cons code rest ih => rw [replies_cons, List.length_cons, ih, List.length_cons]

/-- **Plain source texts in a plain session** are answered in plain texts. -/
theorem Reachable.plain_of_mem_replies (h : service.Reachable shared strict output)
    (houtput : output.TakesPlain) (hplain : service.interpreter.IsPlain)
    (hcodes : ∀ code ∈ codes, code.IsPlain) : ∀ reply ∈ service.replies codes, reply.IsPlain := by
  obtain ⟨_, _, hreachable⟩ := h.session
  intro reply hreply
  cases hs : service.session with
  | none =>
    have hinterpreter : service.interpreter = .fresh service.strict service.output := by
      rw [interpreter, hs, Option.getD_none]
    simp only [replies, hs, ← hinterpreter, List.mem_map] at hreply
    obtain ⟨code, hcode, rfl⟩ := hreply
    exact (hplain.answer hreachable houtput (hcodes code hcode)).2
  | some i =>
    have hinterpreter : service.interpreter = i := by rw [interpreter, hs, Option.getD_some]
    simp only [replies, hs, ← hinterpreter] at hreply
    exact hplain.answerAll hreachable houtput hcodes reply hreply

/-- An answer in plain texts is a plain response. -/
theorem exists_respond_plain {reply : Interpreter.Reply} (h : reply.IsPlain) :
    ∃ response, respond reply.outcome = .ok response ∧ response.text.IsPlain := by
  cases houtcome : reply.outcome with
  | ok text => exact ⟨.success text, rfl, h.text text houtcome⟩
  | error fault =>
    obtain ⟨hown, hmessage⟩ := h.fault fault houtcome
    exact ⟨_, respond_of_isOwn hown, (Text.isPlain_ofString "Error: ").append hmessage⟩

/-- Requests for source texts are answered by the replies to them, if these are plain. -/
theorem handleAll_replies {lines : List Line}
    (h : List.Forall₂ (fun line code => Line.request line = .ok (.eval code)) lines codes)
    (hplain : ∀ reply ∈ service.replies codes, reply.IsPlain) :
    (service.handleAll lines).breakdown = none ∧
      List.Forall₂ (fun response reply => respond reply.outcome = .ok response ∧ response.text.IsPlain)
        (service.handleAll lines).responses (service.replies codes) := by
  induction h generalizing service with
  | nil =>
    have hnone : service.replies [] = [] := List.eq_nil_of_length_eq_zero (length_replies service [])
    rw [hnone]
    exact ⟨rfl, .nil⟩
  | @cons line code lines codes hline _ ih =>
    rw [replies_cons] at hplain ⊢
    obtain ⟨hreply, hlater⟩ := List.forall_mem_cons.1 hplain
    obtain ⟨response, hresponse, htext⟩ := exists_respond_plain hreply
    obtain ⟨hbreakdown, hresponses⟩ := ih hlater
    rw [handleAll_eval hline hresponse]
    exact ⟨hbreakdown, .cons ⟨hresponse, htext⟩ hresponses⟩

end

/-- The text of an exchange is the lines of its responses, with a line feed after each. -/
theorem toList_text (exchange : Exchange) :
    exchange.text.toList =
      (exchange.responses.map fun response => response.line.toList).flatMap (· ++ ['\n']) := by
  rw [Exchange.text, String.toList_join]
  simp [List.flatMap_map]

/-- **What a client reads is what the interpreter said.** Every source text without lone surrogates can be
    written as the code of a request. Let the stream of a service write such texts, and let no lone surrogate
    be in its session; then a client that writes source texts so, however it escapes them, and sends the
    requests with a line feed after each, however the octets are cut, is sent as many line feeds, the last of
    them at the end. The lines before them read as the responses to the source texts, in their order: the very
    texts of the values, and the very reports of the faults, that the interpreter of the service gives for
    them. -/
theorem converse_replies {shared strict : Bool} {output : Stream} {service : Service}
    (h : service.Reachable shared strict output) (houtput : output.TakesPlain)
    (hplain : service.interpreter.IsPlain) {codes : List String} {written : List (List Char)}
    (hwritten : List.Forall₂ (fun t (code : String) => Json.Written (t.map .char) (code : Text).toList)
      written codes)
    {chunks : List (List UInt8)} (hchunks : ∀ chunk ∈ chunks, chunk ≠ [])
    (hstream : chunks.flatten = requestStream written) :
    let connection := Connection.converse service chunks
    let sent := connection.sent.toList
    let replies := service.replies (codes.map Text.ofString)
    (∀ code : String, Json.Written ((code.toList.flatMap Json.escapeChar).map .char) (code : Text).toList) ∧
    connection.breakdown = none ∧
    Text.Utf8.decode (Text.Utf8.encode sent) = .ok sent ∧
    sent.count '\n' = codes.length ∧
    (codes ≠ [] → sent.getLast? = some '\n') ∧
    replies.length = codes.length ∧
    List.Forall₂ (fun line reply => ∃ response, respond reply.outcome = .ok response ∧
        Json.read nestingLimit (.ofList (line.map .char)) = .ok response.object)
      (sent.splitOn '\n').dropLast replies ∧
    ∀ reply ∈ replies, ∀ fault, reply.outcome = .error fault → fault.IsOwn := by
  intro connection sent replies
  have hcodes : ∀ code ∈ codes.map Text.ofString, code.IsPlain := by
    intro code hcode
    obtain ⟨s, _, rfl⟩ := List.mem_map.1 hcode
    exact Text.isPlain_ofString s
  have hreplies := h.plain_of_mem_replies houtput hplain hcodes
  have hrequests := forall₂_handed (List.forall₂_map_right_iff.2 hwritten)
  rw [← hstream] at hrequests
  obtain ⟨hbreakdown, hresponses⟩ := handleAll_replies hrequests hreplies
  have hlength : replies.length = codes.length := (length_replies service _).trans (List.length_map _)
  have hdelivers := Connection.converse_delivers service hchunks
  let exchange := service.handleAll (Connection.handed chunks.flatten)
  let lines := exchange.responses.map fun response => response.line.toList
  have hsent : sent = lines.flatMap (· ++ ['\n']) :=
    (congrArg String.toList hdelivers.sent).trans (toList_text exchange)
  have hlines : ∀ line ∈ lines, '\n' ∉ line := by
    intro line hline
    obtain ⟨response, _, rfl⟩ := List.mem_map.1 hline
    exact lineFeed_not_mem_line response
  have hcount : lines.length = codes.length :=
    (List.length_map _).trans (hresponses.length_eq.trans hlength)
  refine ⟨fun code => Json.written_escape _, hdelivers.breakdown.trans hbreakdown,
    Text.Utf8.decode_encode sent, ?_, ?_, hlength, ?_, fun reply hreply fault hfault =>
      ((hreplies reply hreply).fault fault hfault).1⟩
  · rw [hsent, count_lines hlines, hcount]
  · intro hsome
    rw [hsent]
    apply getLast?_lines
    rw [← List.length_pos_iff, hcount, List.length_pos_iff]
    exact hsome
  · rw [hsent, splitOn_lines hlines, List.dropLast_concat, List.forall₂_map_left_iff]
    exact hresponses.imp fun response _ hresponse => ⟨response, hresponse.1, read_line hresponse.2⟩

/-- Two source texts with a line feed and a character past `U+FFFF` in them: in the first request this
    character is written as it is, and its octets are cut apart; in the second all is escaped. -/
theorem converse_replies_cut :
    let code := "\"\n𝄞\""
    let written := [['\\', '"', '\\', 'n', '𝄞', '\\', '"'], code.toList.flatMap Json.escapeChar]
    let chunks := [(requestStream written).take 31, (requestStream written).drop 31]
    let service := fresh true false .utf8
    service.Reachable true false .utf8 ∧ Stream.utf8.TakesPlain ∧ service.interpreter.IsPlain ∧
      List.Forall₂ (fun t (code : String) => Json.Written (t.map .char) (code : Text).toList) written
        [code, code] ∧
      (∀ chunk ∈ chunks, chunk ≠ []) ∧ chunks.flatten = requestStream written ∧
      (Connection.converse service chunks).sent.toList.count '\n' = 2 := by
  intro code written chunks service
  have hclef : Json.Written [.char '𝄞', .char '\\', .char '"'] [.char '𝄞', .char '"'] :=
    .plain (by decide) (by decide) (by decide) (.letter rfl .nil)
  have hcode : (code : Text).toList = [.char '"', .char '\n', .char '𝄞', .char '"'] := by decide
  have hfirst : Json.Written (['\\', '"', '\\', 'n', '𝄞', '\\', '"'].map .char) (code : Text).toList := by
    rw [hcode]
    exact .letter rfl (.letter rfl hclef)
  have hwritten : List.Forall₂ (fun t (code : String) => Json.Written (t.map .char) (code : Text).toList)
      written [code, code] := .cons hfirst (.cons (Json.written_escape _) .nil)
  have hchunks : ∀ chunk ∈ chunks, chunk ≠ [] := by decide +kernel
  have hstream : chunks.flatten = requestStream written := by simp [chunks]
  have hplain : service.interpreter.IsPlain := Interpreter.isPlain_fresh
  obtain ⟨_, _, _, hcount, _⟩ :=
    converse_replies .fresh Stream.utf8_takesPlain hplain hwritten hchunks hstream
  exact ⟨.fresh, Stream.utf8_takesPlain, hplain, hwritten, hchunks, hstream, hcount⟩

end Service

end SmallLisp
