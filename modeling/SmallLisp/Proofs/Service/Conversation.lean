import SmallLisp.Proofs.Service.Lines

/-!
# `Proofs.Service.Conversation` — what the clients of a service are sent

`Service.handleAll` says what comes of lines that are handled one after the other: a response for each of
them in turn, up to the first that breaks down. A conversation is what comes of the request lines of its
stream (`converse_delivers`), so neither the cuts nor the octets after the last line feed show in it. From
one conversation to the next nothing is carried but the service, and of that only its session; a breakdown
ends one conversation and keeps no client from being heard (`serve_delivers`).
-/

namespace SmallLisp

namespace Service

/-- What comes of lines: the responses, what was printed, the service after them, and the breakdown of the
    last of them, if it was not answered. -/
structure Exchange where
  responses : List Response
  printed : Text
  service : Service
  breakdown : Option Breakdown

/-- The text that is sent back: every response on a line of its own. -/
def Exchange.text (exchange : Exchange) : String :=
  String.join (exchange.responses.map fun response => response.line ++ "\n")

/-- **Lines one after the other.** Each line is handled once, by the service as the lines before have left
    it, up to the first line that breaks down. -/
def handleAll (service : Service) : List Line → Exchange
  | [] => ⟨[], "", service, none⟩
  | line :: rest =>
    let done := service.handle line
    match done.response with
    | .error breakdown => ⟨[], done.printed, done.service, some breakdown⟩
    | .ok response =>
      let later := done.service.handleAll rest
      ⟨response :: later.responses, done.printed ++ later.printed, later.service, later.breakdown⟩

/-- What a client has been sent, and how the conversation ended, is what comes of the exchange. -/
structure Connection.Delivers (c : Connection) (exchange : Exchange) : Prop where
  sent : c.sent = exchange.text
  printed : c.printed = exchange.printed
  service : c.service = exchange.service
  breakdown : c.breakdown = exchange.breakdown

/-- A connection after an exchange: the text is sent after what was sent before. -/
def Connection.carry (c : Connection) (exchange : Exchange) : Connection :=
  { c with
    service := exchange.service
    sent := c.sent ++ exchange.text
    printed := c.printed ++ exchange.printed
    breakdown := exchange.breakdown }

variable {service : Service}

/-! ## What a line leaves of a service -/

/-- A line leaves a service its arity policy and its stream. -/
theorem handle_carries (service : Service) (line : Line) :
    (service.handle line).service.strict = service.strict ∧
      (service.handle line).service.output = service.output := by
  unfold handle
  cases line.request with
  | error breakdown => exact ⟨rfl, rfl⟩
  | ok request => cases request <;> exact ⟨rfl, rfl⟩

/-- Without a session a line leaves no trace. -/
theorem handle_stateless (h : service.session = none) (line : Line) :
    (service.handle line).service = service := by
  unfold handle
  cases line.request with
  | error breakdown => rfl
  | ok request =>
    cases request with
    | refuse response => rfl
    | eval source =>
      show { service with session := service.session.map _ } = service
      rw [h, Option.map_none, ← h]

theorem handleAll_of_error {line : Line} {breakdown : Breakdown}
    (h : (service.handle line).response = .error breakdown) (rest : List Line) :
    service.handleAll (line :: rest) =
      ⟨[], (service.handle line).printed, (service.handle line).service, some breakdown⟩ := by
  simp only [handleAll, h]

theorem handleAll_of_ok {line : Line} {response : Response}
    (h : (service.handle line).response = .ok response) (rest : List Line) :
    service.handleAll (line :: rest) =
      let later := (service.handle line).service.handleAll rest
      ⟨response :: later.responses, (service.handle line).printed ++ later.printed, later.service,
        later.breakdown⟩ := by
  simp only [handleAll, h]

theorem handleAll_carries (service : Service) (lines : List Line) :
    (service.handleAll lines).service.strict = service.strict ∧
      (service.handleAll lines).service.output = service.output := by
  induction lines generalizing service with
  | nil => exact ⟨rfl, rfl⟩
  | cons line rest ih =>
    obtain ⟨hstrict, houtput⟩ := handle_carries service line
    cases h : (service.handle line).response with
    | error breakdown =>
      rw [handleAll_of_error h]
      exact ⟨hstrict, houtput⟩
    | ok response =>
      obtain ⟨hlater, hlater'⟩ := ih (service.handle line).service
      rw [handleAll_of_ok h]
      exact ⟨hlater.trans hstrict, hlater'.trans houtput⟩

theorem handleAll_sessionless (h : service.session = none) (lines : List Line) :
    (service.handleAll lines).service = service := by
  induction lines with
  | nil => rfl
  | cons line rest ih =>
    have hsame := handle_stateless h line
    cases hline : (service.handle line).response with
    | error breakdown =>
      rw [handleAll_of_error hline]
      exact hsame
    | ok response =>
      rw [handleAll_of_ok hline, hsame]
      exact ih

/-! ## One conversation -/

namespace Connection

variable {c : Connection}

/-- After a breakdown no line is answered. -/
theorem foldl_answerLine_of_breakdown (h : c.breakdown.isSome) (lines : List (List UInt8)) :
    lines.foldl answerLine c = c := by
  induction lines with
  | nil => rfl
  | cons line rest ih =>
    have hline : c.answerLine line = c := by simp [answerLine, h]
    rw [List.foldl_cons, hline, ih]

/-- The lines of a stream that are to be answered, as they are handed to the service. -/
def handed (octets : List UInt8) : List Line := (requestLines octets).map .octets

/-- Lines are answered as they are handled. -/
theorem foldl_answerLine (h : c.breakdown = none) (lines : List (List UInt8)) :
    lines.foldl answerLine c = c.carry (c.service.handleAll
      (((lines.map (Text.stripBy isMargin)).filter fun line => !line.isEmpty).map .octets)) := by
  induction lines generalizing c with
  | nil => simp [carry, handleAll, Exchange.text, ← h]
  | cons line rest ih =>
    rw [List.foldl_cons, List.map_cons]
    by_cases hempty : (Text.stripBy isMargin line).isEmpty
    · -- an empty line is passed over
      have hline : c.answerLine line = c := by simp [answerLine, hempty]
      rw [List.filter_cons_of_neg (by simp [hempty]), hline]
      exact ih h
    · rw [List.filter_cons_of_pos (by simp [hempty]), List.map_cons]
      cases hresponse : (c.service.handle (.octets (Text.stripBy isMargin line))).response with
      | error breakdown =>
        have hbroken : (c.answerLine line).breakdown = some breakdown := by
          simp [answerLine, hempty, h, hresponse]
        rw [foldl_answerLine_of_breakdown (by rw [hbroken]; rfl), handleAll_of_error hresponse]
        simp [answerLine, hempty, h, hresponse, carry, Exchange.text]
      | ok response =>
        have hnext : (c.answerLine line).breakdown = none := by
          simp [answerLine, hempty, h, hresponse]
        rw [ih hnext, handleAll_of_ok hresponse]
        simp [answerLine, hempty, h, hresponse, carry, Exchange.text, String.append_assoc, Text.append_assoc]

/-- **A conversation is what comes of the request lines of its stream.** -/
theorem converse_delivers (service : Service) {chunks : List (List UInt8)}
    (h : ∀ chunk ∈ chunks, chunk ≠ []) :
    (converse service chunks).Delivers (service.handleAll (handed chunks.flatten)) := by
  have hlines : (cutLines [] ((start service).pending ++ chunks.flatten)).1 =
      completeLines chunks.flatten := fst_cutLines [] chunks.flatten
  rw [converse_eq_receive service h, receive_eq, hlines, foldl_answerLine rfl]
  exact ⟨String.empty_append, Text.empty_append _, rfl, rfl⟩

end Connection

/-! ## Clients one after the other -/

/-- The service that clients leave to the next one. -/
def afterClients (service : Service) (clients : List (List (List UInt8))) : Service :=
  clients.foldl (fun service chunks => (Connection.converse service chunks).service) service

theorem afterClients_cons (service : Service) (chunks : List (List UInt8))
    (rest : List (List (List UInt8))) :
    service.afterClients (chunks :: rest) =
      (Connection.converse service chunks).service.afterClients rest := rfl

/-- Each client is heard by the service that those before have left. -/
theorem serve_getElem? (service : Service) (before after : List (List (List UInt8)))
    (chunks : List (List UInt8)) :
    (serve service (before ++ chunks :: after))[before.length]? =
      some (.converse (service.afterClients before) chunks) := by
  induction before generalizing service with
  | nil => rfl
  | cons first rest ih =>
    rw [List.cons_append, serve, List.length_cons, List.getElem?_cons_succ]
    exact ih _

theorem length_serve (service : Service) (clients : List (List (List UInt8))) :
    (serve service clients).length = clients.length := by
  induction clients generalizing service with
  | nil => rfl
  | cons chunks rest ih => exact congrArg (· + 1) (ih _)

/-- Clients leave the service its arity policy and its stream, and without a session they leave it as it
    was. -/
theorem afterClients_carries (service : Service) {clients : List (List (List UInt8))}
    (h : ∀ chunks ∈ clients, ∀ chunk ∈ chunks, chunk ≠ []) :
    (service.afterClients clients).strict = service.strict ∧
      (service.afterClients clients).output = service.output ∧
      (service.session = none → service.afterClients clients = service) := by
  induction clients generalizing service with
  | nil => exact ⟨rfl, rfl, fun _ => rfl⟩
  | cons chunks rest ih =>
    obtain ⟨hstrict, houtput, hstateless⟩ := ih (Connection.converse service chunks).service
      fun cs hcs => h cs (List.mem_cons_of_mem _ hcs)
    have hservice := (Connection.converse_delivers service (h chunks List.mem_cons_self)).service
    obtain ⟨hstrict', houtput'⟩ := handleAll_carries service (Connection.handed chunks.flatten)
    rw [hservice] at hstrict houtput hstateless
    rw [afterClients_cons, hservice]
    refine ⟨hstrict.trans hstrict', houtput.trans houtput', ?_⟩
    intro hnone
    have hsame := handleAll_sessionless hnone (Connection.handed chunks.flatten)
    rw [hstateless (by rw [hsame, hnone]), hsame]

/-- **What clients are sent hangs on the lines of their streams alone.** However a stream is cut into
    chunks, and whatever stands after its last line feed, a client is sent the responses to the request
    lines of the stream, each handled once and in order, up to the first that breaks down. Of clients
    that are served one after the other every one is heard, also after a breakdown; each begins with
    nothing pending, and finds the service that those before have left: the same service if it keeps no
    session, and else the same but for the session. -/
theorem serve_delivers (service : Service) (clients : List (List (List UInt8)))
    (h : ∀ chunks ∈ clients, ∀ chunk ∈ chunks, chunk ≠ []) :
    (∀ chunks ∈ clients, ∀ service : Service,
      (Connection.converse service chunks).Delivers
        (service.handleAll (Connection.handed chunks.flatten)) ∧
      ∀ tail, 0x0A ∉ tail → Connection.handed (chunks.flatten ++ tail) =
        Connection.handed chunks.flatten) ∧
    (serve service clients).length = clients.length ∧
    ∀ before chunks after, clients = before ++ chunks :: after →
      (service.afterClients before).strict = service.strict ∧
      (service.afterClients before).output = service.output ∧
      (service.session = none → service.afterClients before = service) ∧
      (serve service clients)[before.length]? =
        some (.converse (service.afterClients before) chunks) := by
  refine ⟨?_, length_serve service clients, ?_⟩
  · intro chunks hchunks service
    refine ⟨Connection.converse_delivers service (h chunks hchunks), fun tail htail => ?_⟩
    rw [Connection.handed, Connection.requestLines_append_of_not_mem _ htail, Connection.handed]
  · rintro before chunks after rfl
    obtain ⟨hstrict, houtput, hstateless⟩ := afterClients_carries service
      fun cs hcs => h cs (List.mem_append_left _ hcs)
    exact ⟨hstrict, houtput, hstateless, serve_getElem? service before after chunks⟩

/-- Two clients of one session. The stream of the first is cut inside of its definition, has a line after it
    that breaks down, and ends without a line feed; the second is answered from the definition. -/
theorem serve_delivers_cut :
    let define := Text.Utf8.encode "\x7b\"cmd\":\"eval\",\"code\":\"(defvar x t)\"\x7d\n".toList
    let use := Text.Utf8.encode "\x7b\"cmd\":\"eval\",\"code\":\"x\"\x7d\n".toList
    let broken := List.replicate 1001 0x5B ++ [0x0A]
    let first := [define.take 20, define.drop 20 ++ broken, [0x20]]
    let connections := serve (fresh true false .texts) [first, [use]]
    (∀ chunks ∈ [first, [use]], ∀ chunk ∈ chunks, chunk ≠ []) ∧
      connections[0]?.map (·.breakdown) = some (some .nestedTooDeep) ∧
      connections[1]?.map (·.sent) = some "\x7b\"ok\": true, \"result\": \"t\"\x7d\n" := by
  intro define use broken first connections
  have hchunks : ∀ chunks ∈ [first, [use]], ∀ chunk ∈ chunks, chunk ≠ [] := by decide +kernel
  obtain ⟨_, _, hclients⟩ := serve_delivers (fresh true false .texts) [first, [use]] hchunks
  have hfirst : connections[0]? = some (.converse (fresh true false .texts) first) :=
    (hclients [] first [[use]] rfl).2.2.2
  have hsecond : connections[1]? = some (.converse ((fresh true false .texts).afterClients [first]) [use]) :=
    (hclients [first] [use] [] rfl).2.2.2
  rw [hfirst, hsecond]
  refine ⟨hchunks, ?_, ?_⟩
  · decide +kernel
  · decide +kernel

end Service

end SmallLisp
