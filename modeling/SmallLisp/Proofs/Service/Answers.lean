import SmallLisp.Proofs.Json.Reader
import SmallLisp.Proofs.Service.Conversation
import SmallLisp.Proofs.Session.Plain

/-!
# `Proofs.Service.Answers` — which lines are answered

Two kinds of line end a conversation where a refusal would do: those in which more digits stand in a row
than an integer may have, and those that open more arrays and objects than may be nested. A text that is no
document for another reason is malformed at a place, and the refusal names the place (`ofText_cases`).

A line that is read is answered, also if it asks for an evaluation: the sessions of a service are those that
source texts lead to (`Reachable.session`), so what they fail with is a fault of the language, and a response
reports it. The one exception is a line of own values that the stream of the service refuses to write
(`Line.BreaksDown`).
-/

namespace SmallLisp

namespace Text.Utf8

/-- Octets below `0x80` are a text of as many characters. -/
theorem decode_ascii {octets : List UInt8} (h : ∀ octet ∈ octets, octet.toNat < 0x80) :
    decode octets = .ok (octets.map fun octet => Char.ofNat octet.toNat) := by
  have hfrom (start : Nat) :
      decodeFrom start octets = .ok (octets.map fun octet => Char.ofNat octet.toNat) := by
    induction octets generalizing start with
    | nil => rfl
    | cons octet rest ih =>
      obtain ⟨hoctet, hrest⟩ := List.forall_mem_cons.1 h
      rw [decodeFrom, if_pos hoctet, ih hrest]
      rfl
  exact hfrom 0

end Text.Utf8

namespace Service

/-! ## Lines -/

namespace Line

/-- The text of a line, unless its octets spell none. -/
def text? : Line → Option Text
  | text line => some line
  | octets line => (Text.Utf8.decode line).toOption.map fun characters => .ofList (characters.map .char)

/-- **An evaluation.** The line is a JSON object with the command `eval` and this source text as its code; an
    object without code has an empty one. -/
def Asks (line : Line) (source : Text) : Prop :=
  ∃ text members, line.text? = some text ∧ Json.read nestingLimit text = .ok (.object members) ∧
    members.lookup ("cmd" : Text) = some (.string "eval") ∧
    (members.lookup ("code" : Text) = some (.string source) ∨
      members.lookup ("code" : Text) = none ∧ source = "")

/-- The source text that a line asks to be evaluated. -/
def source? (line : Line) : Option Text :=
  match line.request with
  | .ok (.eval source) => some source
  | _ => none

/-- Does the line ask for an evaluation? -/
def isEvaluation (line : Line) : Bool := line.source?.isSome

end Line

/-- A value is a string if it is told apart as this string. -/
theorem isString_getD {value : Option Json} {s : Text} :
    (value.getD .null).isString s ↔ value = some (.string s) := by
  cases value with
  | none => simp [Json.isString]
  | some value => cases value <;> simp [Json.isString]

theorem ofMembers_eq_eval_iff {members : List (Text × Json)} {source : Text} :
    Request.ofMembers members = .eval source ↔
      members.lookup ("cmd" : Text) = some (.string "eval") ∧
        (members.lookup ("code" : Text) = some (.string source) ∨
          members.lookup ("code" : Text) = none ∧ source = "") := by
  unfold Request.ofMembers
  rw [← isString_getD]
  simp only
  split
  · rename_i hcmd
    rw [and_iff_right hcmd]
    split
    · rename_i hcode
      simp [hcode, eq_comm]
    · rename_i code hcode
      simp [hcode]
    · rename_i value hvalue hcode
      simp only [hcode, reduceCtorEq, false_iff, not_or, Option.some.injEq]
      exact ⟨fun h => hvalue _ h, fun h => h.1.elim⟩
  · rename_i hcmd
    simp only [reduceCtorEq, false_iff, not_and]
    intro heval
    exact absurd heval hcmd

theorem ofText_eq_eval_iff {text source : Text} :
    Request.ofText text = .ok (.eval source) ↔ ∃ members,
      Json.read nestingLimit text = .ok (.object members) ∧
      Request.ofMembers members = .eval source := by
  unfold Request.ofText
  split
  · rename_i members hread
    simp [hread]
  · rename_i value hvalue hread
    simp only [hread, Except.ok.injEq, reduceCtorEq, false_iff, not_exists, not_and]
    intro members hobject
    exact absurd hobject (hvalue members)
  all_goals
    rename_i hread
    simp [hread]

/-- A line asks for the evaluation that its request is. -/
theorem Line.request_eq_eval_iff {line : Line} {source : Text} :
    line.request = .ok (.eval source) ↔ line.Asks source := by
  have hasks : line.Asks source ↔
      ∃ text, line.text? = some text ∧ Request.ofText text = .ok (.eval source) := by
    simp only [Line.Asks, ofText_eq_eval_iff, ofMembers_eq_eval_iff, exists_and_left]
  rw [hasks]
  cases line with
  | text line => simp [Line.request, Line.text?]
  | octets line =>
    show Request.ofOctets line = _ ↔ _
    unfold Request.ofOctets
    cases hdecode : Text.Utf8.decode line with
    | ok characters => simp [Line.text?, hdecode, Except.toOption]
    | error fault => simp [Line.text?, hdecode, Except.toOption]

theorem Line.source?_eq_some_iff {line : Line} {source : Text} :
    line.source? = some source ↔ line.Asks source := by
  rw [← Line.request_eq_eval_iff]
  unfold Line.source?
  split
  · rename_i hread
    simp [hread]
  · rename_i hread
    simpa using hread source

/-- What a text has in it when it cannot be read for that reason. -/
def Breakdown.Shows (text : Text) : Breakdown → Prop
  | .integerTooLong digits => maxIntegerDigits < digits ∧ Json.HasRun text.toList digits
  | .nestedTooDeep => nestingLimit < Json.openings text.toList
  | .host _ => False

/-- **A text is read, or it shows why it is not.** -/
theorem ofText_cases (text : Text) :
    (∃ request, Request.ofText text = .ok request) ∨
      ∃ breakdown, Request.ofText text = .error breakdown ∧ breakdown.Shows text := by
  unfold Request.ofText
  split
  · exact .inl ⟨_, rfl⟩
  · exact .inl ⟨_, rfl⟩
  · exact .inl ⟨_, rfl⟩
  · rename_i digits hread
    exact .inr ⟨.integerTooLong digits, rfl, Json.read_accounted hread⟩
  · rename_i hread
    exact .inr ⟨.nestedTooDeep, rfl, Json.read_accounted hread⟩

/-- A line is read if it is no text, and else as the text is. -/
theorem Line.request_cases (line : Line) :
    (∃ request, line.request = .ok request) ∨
      ∃ text, line.text? = some text ∧
        ∃ breakdown, line.request = .error breakdown ∧ breakdown.Shows text := by
  cases line with
  | text line =>
    exact (ofText_cases line).imp_right fun hbreakdown => ⟨line, rfl, hbreakdown⟩
  | octets line =>
    cases hdecode : Text.Utf8.decode line with
    | error fault =>
      refine .inl ⟨.refuse (.invalid fault.message), ?_⟩
      rw [Line.request, Request.ofOctets, hdecode]
    | ok characters =>
      have htext : (octets line).text? = some (.ofList (characters.map .char)) := by
        rw [Line.text?, hdecode]
        rfl
      have hrequest : (octets line).request = Request.ofText (.ofList (characters.map .char)) := by
        rw [Line.request, Request.ofOctets, hdecode]
      rw [htext, hrequest]
      exact (ofText_cases _).imp_right fun hbreakdown => ⟨_, rfl, hbreakdown⟩

theorem ofOctets_replicate {octet : UInt8} (h : octet.toNat < 0x80) (count : Nat) :
    Request.ofOctets (List.replicate count octet) =
      Request.ofText (.ofList (List.replicate count (.char (Char.ofNat octet.toNat)))) := by
  have hascii : ∀ o ∈ List.replicate count octet, o.toNat < 0x80 := fun o ho =>
    List.eq_of_mem_replicate ho ▸ h
  rw [Request.ofOctets, Text.Utf8.decode_ascii hascii, List.map_replicate]
  simp only [List.map_replicate]

/-- Digits in a row are not answered if they are too many. -/
theorem ofText_digits {count : Nat} (h : maxIntegerDigits < count) :
    Request.ofText (.ofList (List.replicate count (.char '1'))) = .error (.integerTooLong count) := by
  obtain ⟨more, rfl⟩ := Nat.exists_eq_succ_of_ne_zero (Nat.ne_of_gt (Nat.zero_lt_of_lt h))
  have hdigits : ∀ c ∈ .char '1' :: List.replicate more (.char '1'), Json.isDigit c := by
    intro c hc
    rw [← List.replicate_succ] at hc
    rw [List.eq_of_mem_replicate hc]
    rfl
  rw [Request.ofText, List.replicate_succ,
    Json.read_digits (by decide) hdigits (by simpa using h)]
  simp

/-- Arrays in one another are not answered if they are too many. -/
theorem ofText_openings {count : Nat} (h : nestingLimit < count) :
    Request.ofText (.ofList (List.replicate count (.char '['))) = .error .nestedTooDeep := by
  rw [Request.ofText, Json.read_openings h]

/-! ## Services -/

variable {shared strict : Bool} {output : Stream} {service : Service} {line : Line}

/-- **The services that requests lead to**, with or without a session that they share. -/
inductive Reachable (shared strict : Bool) (output : Stream) : Service → Prop
  | fresh : Reachable shared strict output (.fresh shared strict output)
  | handle {service : Service} (h : Reachable shared strict output service) (line : Line) :
      Reachable shared strict output (service.handle line).service

/-- **Why a line is not answered**: it cannot be read, or it asks for an evaluation in which the stream
    refuses to write a line of own values. -/
inductive Line.BreaksDown (output : Stream) (line : Line) : Breakdown → Prop
  | unread {text : Text} {breakdown : Breakdown} (ht : line.text? = some text)
      (h : breakdown.Shows text) : BreaksDown output line breakdown
  | unwritten {source : Text} {why : String} (hasks : line.Asks source)
      (h : output.Refuses (Value.Everywhere Value.IsOwn) why) :
      BreaksDown output line (.host (.unwritable why))

/-- The service after the evaluation of a source text. -/
def evaluated (service : Service) (source : Text) : Service :=
  { service with session := service.session.map fun _ => (service.interpreter.answer source).2 }

theorem handle_eval (service : Service) {source : Text} (h : line.request = .ok (.eval source)) :
    let reply := (service.interpreter.answer source).1
    service.handle line = ⟨respond reply.outcome, reply.printed, service.evaluated source⟩ := by
  simp only [handle, h, answer, evaluated]

theorem handle_refuse {response : Response} (h : line.request = .ok (.refuse response)) :
    service.handle line = ⟨.ok response, "", service⟩ := by
  simp only [handle, h, answer]

theorem handle_error {breakdown : Breakdown} (h : line.request = .error breakdown) :
    service.handle line = ⟨.error breakdown, "", service⟩ := by
  simp only [handle, h]

/-- A fault of the language is reported in a response. -/
theorem respond_of_isOwn {fault : Fault} (h : fault.IsOwn) :
    respond (.error fault) = .ok (.failure (Interpreter.report fault)) := by
  cases fault with
  | host why => exact h.elim
  | _ => rfl

/-- The session that answers is one that source texts lead to. -/
theorem Reachable.session (h : service.Reachable shared strict output) :
    service.strict = strict ∧ service.output = output ∧ service.interpreter.Reachable strict output := by
  induction h with
  | fresh => cases shared <;> exact ⟨rfl, rfl, .fresh⟩
  | @handle service _ line ih =>
    obtain ⟨hstrict, houtput, hsession⟩ := ih
    obtain ⟨hstrict', houtput'⟩ := handle_carries service line
    refine ⟨hstrict'.trans hstrict, houtput'.trans houtput, ?_⟩
    cases hrequest : line.request with
    | error breakdown =>
      rw [handle_error hrequest]
      exact hsession
    | ok request =>
      cases request with
      | refuse response =>
        rw [handle_refuse hrequest]
        exact hsession
      | eval source =>
        cases hs : service.session with
        | none =>
          rw [handle_stateless hs]
          exact hsession
        | some i =>
          rw [handle_eval _ hrequest]
          simp only [evaluated, Service.interpreter, hs, Option.map_some, Option.getD_some] at hsession ⊢
          exact (hsession.evalToText source).takePrinted

theorem Reachable.handleAll (h : service.Reachable shared strict output) (lines : List Line) :
    (service.handleAll lines).service.Reachable shared strict output := by
  induction lines generalizing service with
  | nil => exact h
  | cons line rest ih =>
    cases hline : (service.handle line).response with
    | error breakdown =>
      rw [handleAll_of_error hline]
      exact h.handle line
    | ok response =>
      rw [handleAll_of_ok hline]
      exact ih (h.handle line)

/-- **A line is answered, or breaks down for one of these reasons.** -/
theorem Reachable.handle_cases (h : service.Reachable shared strict output) (line : Line) :
    (∃ response, (service.handle line).response = .ok response) ∨
      ∃ breakdown, (service.handle line).response = .error breakdown ∧
        line.BreaksDown output breakdown := by
  rcases line.request_cases with ⟨request, hrequest⟩ | ⟨text, htext, breakdown, hrequest, hshows⟩
  · cases request with
    | refuse response =>
      rw [handle_refuse hrequest]
      exact .inl ⟨response, rfl⟩
    | eval source =>
      have hasks : line.Asks source := Line.request_eq_eval_iff.1 hrequest
      rw [handle_eval _ hrequest]
      cases houtcome : (service.interpreter.answer source).1.outcome with
      | ok text => exact .inl ⟨.success text, rfl⟩
      | error fault =>
        cases Interpreter.answer_owned h.session.2.2 source houtcome with
        | own hown => exact .inl ⟨_, respond_of_isOwn hown⟩
        | refused hrefused => exact .inr ⟨_, rfl, .unwritten hasks hrefused⟩
  · rw [handle_error hrequest]
    exact .inr ⟨breakdown, rfl, .unread htext hshows⟩

/-- Where no line is refused, an evaluation is answered. -/
theorem Reachable.answered_of_asks (h : service.Reachable shared strict output)
    (hwritten : ∀ why, ¬ output.Refuses (Value.Everywhere Value.IsOwn) why) {source : Text}
    (hasks : line.Asks source) : ∃ response, (service.handle line).response = .ok response := by
  rw [handle_eval _ (Line.request_eq_eval_iff.2 hasks)]
  cases houtcome : (service.interpreter.answer source).1.outcome with
  | ok text => exact ⟨.success text, rfl⟩
  | error fault =>
    have hexpected := Interpreter.answer_owned h.session.2.2 source houtcome
    exact ⟨_, respond_of_isOwn (hexpected.isOwn hwritten)⟩

/-- **Lines are answered up to the first that breaks down.** -/
theorem Reachable.handleAll_cases (h : service.Reachable shared strict output) (lines : List Line) :
    let done := service.handleAll lines
    done.breakdown = none ∧ done.responses.length = lines.length ∨
      ∃ before line after breakdown, lines = before ++ line :: after ∧
        done.responses.length = before.length ∧ done.breakdown = some breakdown ∧
        line.BreaksDown output breakdown := by
  induction lines generalizing service with
  | nil => exact .inl ⟨rfl, rfl⟩
  | cons line rest ih =>
    rcases h.handle_cases line with ⟨response, hresponse⟩ | ⟨breakdown, hresponse, hbreaks⟩
    · rw [handleAll_of_ok hresponse]
      rcases ih (h.handle line) with
        ⟨hnone, hlength⟩ | ⟨before, next, after, breakdown, rfl, hlength, hbreakdown, hbreaks⟩
      · exact .inl ⟨hnone, congrArg (· + 1) hlength⟩
      · exact .inr ⟨line :: before, next, after, breakdown, rfl, congrArg (· + 1) hlength, hbreakdown,
          hbreaks⟩
    · rw [handleAll_of_error hresponse]
      exact .inr ⟨[], line, rest, breakdown, rfl, rfl, rfl, hbreaks⟩

/-- **All lines are answered but those that break down.** In every service that requests lead to, a line is
    answered, text or octets, unless it has more digits in a row than an integer may have, opens more arrays
    and objects than may be nested, or asks for an evaluation that prints what the stream refuses; if the
    stream writes every text, the evaluation of a source text is always answered. A client is sent a response
    for each request line, up to the first that breaks down, and is served to its end if there is none.
    Digits alone and openings alone are such lines: they are answered by nothing. -/
theorem answers_all_but_breakdowns (h : service.Reachable shared strict output) :
    (∀ line : Line, (∃ response, (service.handle line).response = .ok response) ∨
      ∃ breakdown, (service.handle line).response = .error breakdown ∧
        line.BreaksDown output breakdown) ∧
    (output.TakesAll → ∀ (line : Line) (source : Text), line.Asks source →
      ∃ response, (service.handle line).response = .ok response) ∧
    (∀ chunks : List (List UInt8), (∀ chunk ∈ chunks, chunk ≠ []) →
      let lines := Connection.handed chunks.flatten
      let connection := Connection.converse service chunks
      connection.service.Reachable shared strict output ∧
      ∃ responses : List Response,
        connection.sent = String.join (responses.map fun response => response.line ++ "\n") ∧
        (connection.breakdown = none ∧ responses.length = lines.length ∨
          ∃ before line after breakdown, lines = before ++ line :: after ∧
            responses.length = before.length ∧ connection.breakdown = some breakdown ∧
            line.BreaksDown output breakdown)) ∧
    (∀ count, maxIntegerDigits < count →
      (service.handle (.text (.ofList (List.replicate count (.char '1'))))).response =
          .error (.integerTooLong count) ∧
        (service.handle (.octets (List.replicate count 0x31))).response = .error (.integerTooLong count)) ∧
    ∀ count, nestingLimit < count →
      (service.handle (.text (.ofList (List.replicate count (.char '['))))).response =
          .error .nestedTooDeep ∧
        (service.handle (.octets (List.replicate count 0x5B))).response = .error .nestedTooDeep := by
  have hbroken {line : Line} {breakdown : Breakdown} (hrequest : line.request = .error breakdown) :
      (service.handle line).response = .error breakdown := by rw [handle_error hrequest]
  refine ⟨h.handle_cases, ?_, ?_, ?_, ?_⟩
  · intro hall line source hasks
    exact h.answered_of_asks (hall.not_refuses _) hasks
  · intro chunks hchunks lines connection
    have hdelivers := Connection.converse_delivers service hchunks
    rw [hdelivers.service, hdelivers.breakdown]
    exact ⟨h.handleAll _, _, hdelivers.sent, h.handleAll_cases lines⟩
  · intro count hcount
    exact ⟨hbroken (ofText_digits hcount),
      hbroken ((ofOctets_replicate (by decide) count).trans (ofText_digits hcount))⟩
  · intro count hcount
    exact ⟨hbroken (ofText_openings hcount),
      hbroken ((ofOctets_replicate (by decide) count).trans (ofText_openings hcount))⟩

/-- A new service with a session that prints on a stream of octets: a line with one digit more than an integer
    may have, and one that asks for the printing of a lone surrogate. -/
theorem answers_all_but_breakdowns_fresh :
    let service := fresh true false .utf8
    let line := Line.text "\x7b\"cmd\": \"eval\", \"code\": \"(print \\\"\\ud800\\\")\"\x7d"
    service.Reachable true false .utf8 ∧ maxIntegerDigits < 4301 ∧
      (service.handle (.octets (List.replicate 4301 0x31))).response = .error (.integerTooLong 4301) ∧
      (service.handle line).response = .error (.host (.unwritable
        "'utf-8' codec can't encode character '\\ud800' in position 1: surrogates not allowed")) := by
  intro service line
  have hreachable : service.Reachable true false .utf8 := .fresh
  have hlong : maxIntegerDigits < 4301 := by decide
  obtain ⟨_, _, _, hdigits, _⟩ := answers_all_but_breakdowns hreachable
  exact ⟨hreachable, hlong, (hdigits 4301 hlong).2, by decide +kernel⟩

end Service

end SmallLisp
