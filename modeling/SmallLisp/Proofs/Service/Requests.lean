import Mathlib.Data.List.Forall2
import SmallLisp.Proofs.Service.Answers

/-!
# `Proofs.Service.Requests` — a service answers evaluations as an interpreter does

Of the lines that a service is handed, some ask for a source text to be evaluated (`Line.Asks`): they are JSON
objects with the command `eval`. All others are refused. With a session the responses to the evaluations are
what one interpreter answers to their source texts, in their order, and a refused line changes neither what
comes after it nor what is printed (`handleAll_session`, `handleAll_kept`). Without a session every line is
answered as the first line of a new service (`handleAll_stateless`). All this is about lines none of which
breaks down (`unbroken_cases`).
-/

namespace SmallLisp

namespace Service

/-! ## Lines one after the other -/

/-- The members at the places that are marked. -/
def kept {α : Type} : List Bool → List α → List α
  | true :: marks, x :: xs => x :: kept marks xs
  | false :: marks, _ :: xs => kept marks xs
  | _, _ => []

variable {service : Service} {line : Line} {lines rest : List Line} {source : Text} {i : Interpreter}
  {response : Response}

theorem handleAll_eval (h : line.request = .ok (.eval source))
    (hresponse : respond (service.interpreter.answer source).1.outcome = .ok response) (rest : List Line) :
    let later := (service.evaluated source).handleAll rest
    service.handleAll (line :: rest) = ⟨response :: later.responses,
      (service.interpreter.answer source).1.printed ++ later.printed, later.service, later.breakdown⟩ := by
  have hhandle := handle_eval service h
  dsimp only at hhandle
  rw [hresponse] at hhandle
  rw [handleAll_of_ok (by rw [hhandle]), hhandle]

theorem handleAll_refuse (h : line.request = .ok (.refuse response)) (rest : List Line) :
    service.handleAll (line :: rest) =
      { service.handleAll rest with responses := response :: (service.handleAll rest).responses } := by
  rw [handleAll_of_ok (by rw [handle_refuse h]), handle_refuse h]
  simp

/-- **Where no line breaks down**, the first is an evaluation with a response, or it is refused, and of the
    lines after it none breaks down. -/
theorem unbroken_cases (h : (service.handleAll (line :: rest)).breakdown = none) :
    (∃ source response, line.request = .ok (.eval source) ∧ line.source? = some source ∧
      respond (service.interpreter.answer source).1.outcome = .ok response ∧
      ((service.evaluated source).handleAll rest).breakdown = none) ∨
    ∃ response, line.request = .ok (.refuse response) ∧ line.source? = none ∧
      (service.handleAll rest).breakdown = none := by
  cases hresponse : (service.handle line).response with
  | error breakdown =>
    rw [handleAll_of_error hresponse] at h
    cases h
  | ok response =>
    rw [handleAll_of_ok hresponse] at h
    cases hrequest : line.request with
    | error breakdown =>
      rw [handle_error hrequest] at hresponse
      cases hresponse
    | ok request =>
      cases request with
      | eval source =>
        rw [handle_eval _ hrequest] at hresponse h
        exact .inl ⟨source, response, rfl, by rw [Line.source?, hrequest], hresponse, h⟩
      | refuse refusal =>
        rw [handle_refuse hrequest] at h
        exact .inr ⟨refusal, rfl, by rw [Line.source?, hrequest], h⟩

/-- **Refused lines leave nothing behind.** Without some of them, or all, the responses to the others are
    the same, and so is what is printed and the service after them. -/
theorem handleAll_kept {marks : List Bool}
    (hmarks : List.Forall₂ (fun (mark : Bool) (line : Line) => line.isEvaluation → mark = true) marks lines)
    (h : (service.handleAll lines).breakdown = none) :
    service.handleAll (kept marks lines) =
      { service.handleAll lines with responses := kept marks (service.handleAll lines).responses } := by
  induction hmarks generalizing service with
  | nil => rfl
  | @cons mark line marks lines hmark _ ih =>
    rcases unbroken_cases h with
      ⟨source, response, hrequest, hsource, hresponse, hrest⟩ | ⟨response, hrequest, _, hrest⟩
    · have hmarked : mark = true := hmark (by rw [Line.isEvaluation, hsource]; rfl)
      subst hmarked
      simp only [kept, handleAll_eval hrequest hresponse, ih hrest]
    · cases mark with
      | true => simp only [kept, handleAll_refuse hrequest, ih hrest]
      | false => simp only [kept, handleAll_refuse hrequest, ih hrest]

/-- **A session is one interpreter.** The evaluations are answered by what the interpreter of the session
    answers to their source texts, one after the other. -/
theorem handleAll_session (hs : service.session = some i) (h : (service.handleAll lines).breakdown = none) :
    let done := service.handleAll lines
    let told := i.answerAll (lines.filterMap Line.source?)
    done.responses.length = lines.length ∧
      (kept (lines.map Line.isEvaluation) done.responses).map .ok =
        told.1.map (fun reply => respond reply.outcome) ∧
      done.printed = Text.join (told.1.map (·.printed)) ∧
      done.service = { service with session := some told.2 } := by
  induction lines generalizing service i with
  | nil =>
    refine ⟨rfl, rfl, rfl, ?_⟩
    show service = { service with session := some i }
    rw [← hs]
  | cons line rest ih =>
    have hinterpreter : service.interpreter = i := by rw [interpreter, hs, Option.getD_some]
    rcases unbroken_cases h with
      ⟨source, response, hrequest, hsource, hresponse, hrest⟩ | ⟨response, hrequest, hsource, hrest⟩
    · have hevaluation : line.isEvaluation = true := by rw [Line.isEvaluation, hsource]; rfl
      have hafter : (service.evaluated source).session = some (i.answer source).2 := by
        rw [evaluated, hs, hinterpreter, Option.map_some]
      obtain ⟨hlength, hresponses, hprinted, hservice⟩ := ih hafter hrest
      rw [hinterpreter] at hresponse
      simp only [handleAll_eval hrequest (hinterpreter ▸ hresponse), List.map_cons, hevaluation, kept,
        List.filterMap_cons_some hsource, Interpreter.answerAll, List.length_cons]
      refine ⟨congrArg (· + 1) hlength, ?_, ?_, hservice⟩
      · rw [hresponses, hresponse]
      · rw [hprinted, hinterpreter, Text.join_cons]
    · have hevaluation : line.isEvaluation = false := by rw [Line.isEvaluation, hsource]; rfl
      obtain ⟨hlength, hresponses, hprinted, hservice⟩ := ih hs hrest
      simp only [handleAll_refuse hrequest, List.map_cons, hevaluation, kept,
        List.filterMap_cons_none hsource, List.length_cons]
      exact ⟨congrArg (· + 1) hlength, hresponses, hprinted, hservice⟩

/-- **Without a session every line is on its own**, answered as the first line of the service. -/
theorem handleAll_stateless (hs : service.session = none)
    (h : (service.handleAll lines).breakdown = none) :
    (service.handleAll lines).responses.map .ok = lines.map fun line => (service.handle line).response := by
  induction lines with
  | nil => rfl
  | cons line rest ih =>
    cases hresponse : (service.handle line).response with
    | error breakdown =>
      rw [handleAll_of_error hresponse] at h
      cases h
    | ok response =>
      rw [handleAll_of_ok hresponse, handle_stateless hs line] at h ⊢
      rw [List.map_cons, List.map_cons, hresponse, ih h]

/-! ## New services -/

/-- The text of a response. -/
def Response.text : Response → Text
  | .success text => text
  | .failure text => text

/-- A response says what the outcome does in words. -/
theorem outcomeText_of_respond {outcome : Except Fault Text} (h : respond outcome = .ok response) :
    Interpreter.outcomeText outcome = .ok response.text := by
  cases outcome with
  | ok text =>
    cases h
    rfl
  | error fault => cases fault <;> cases h <;> rfl

/-- What a response reports is a fault of the language. -/
theorem isOwn_of_respond {fault : Fault} (h : respond (.error fault) = .ok response) : fault.IsOwn := by
  cases fault with
  | host why => cases h
  | _ => trivial

/-- **A service answers evaluations as an interpreter does, and refused lines are inert.** Those lines ask for
    an evaluation that are JSON objects with the command `eval` and a source text. Let none of the lines break
    down. Then with a session the evaluations are answered by what one new interpreter answers to these source
    texts, in their order: the texts of the values, and the reports of faults of the language. Without any of
    the other lines the responses to those that are left are the same, and what is printed. Without a session
    the response to a line is what a new service answers to it alone, and to an evaluation it is what a new
    interpreter answers. -/
theorem handleAll_evaluations (strict : Bool) (output : Stream) (lines : List Line) :
    let session := (fresh true strict output).handleAll lines
    let told := (Interpreter.fresh strict output).answerAll (lines.filterMap Line.source?)
    let stateless := (fresh false strict output).handleAll lines
    (∀ line source, Line.source? line = some source ↔ line.Asks source) ∧
    (session.breakdown = none →
      session.responses.length = lines.length ∧
      (kept (lines.map Line.isEvaluation) session.responses).map .ok =
        told.1.map (fun reply => respond reply.outcome) ∧
      session.printed = Text.join (told.1.map (·.printed)) ∧
      (∀ reply ∈ told.1, ∀ fault, reply.outcome = .error fault → fault.IsOwn) ∧
      ∀ marks,
        List.Forall₂ (fun (mark : Bool) (line : Line) => line.isEvaluation → mark = true) marks lines →
        (fresh true strict output).handleAll (kept marks lines) =
          { session with responses := kept marks session.responses }) ∧
    (stateless.breakdown = none →
      (stateless.responses.map .ok =
        lines.map fun line => ((fresh false strict output).handle line).response) ∧
      ∀ line ∈ lines, ∀ source, line.Asks source → ∀ reply,
        ((Interpreter.fresh strict output).answer source).1 = reply →
        ∃ response, respond reply.outcome = .ok response ∧
          (fresh false strict output).handle line =
            ⟨.ok response, reply.printed, fresh false strict output⟩ ∧
          Interpreter.evaluateSource strict output source = (reply.printed, .ok response.text)) := by
  intro session told stateless
  refine ⟨fun line source => Line.source?_eq_some_iff, ?_, ?_⟩
  · intro h
    obtain ⟨hlength, hresponses, hprinted, _⟩ :=
      handleAll_session (rfl : (fresh true strict output).session = some (.fresh strict output)) h
    refine ⟨hlength, hresponses, hprinted, ?_, fun marks hmarks => handleAll_kept hmarks h⟩
    intro reply hreply fault hfault
    have hresponded :=
      List.mem_map_of_mem (f := fun reply : Interpreter.Reply => respond reply.outcome) hreply
    rw [← hresponses] at hresponded
    obtain ⟨response, _, hresponse⟩ := List.mem_map.1 hresponded
    rw [hfault] at hresponse
    exact isOwn_of_respond hresponse.symm
  · intro h
    have hresponses := handleAll_stateless (rfl : (fresh false strict output).session = none) h
    refine ⟨hresponses, ?_⟩
    rintro line hline source hasks reply rfl
    have hhandle := handle_eval (fresh false strict output) (Line.request_eq_eval_iff.2 hasks)
    have hanswered := List.mem_map_of_mem
      (f := fun line => ((fresh false strict output).handle line).response) hline
    rw [← hresponses] at hanswered
    obtain ⟨response, _, hresponse⟩ := List.mem_map.1 hanswered
    rw [hhandle] at hresponse
    have hresponded : respond ((Interpreter.fresh strict output).answer source).1.outcome = .ok response :=
      hresponse.symm
    refine ⟨response, hresponded, ?_, congrArg _ (outcomeText_of_respond hresponded)⟩
    rw [hhandle, ← hresponded]
    rfl

/-- Two definitions of names that differ in a lone surrogate, and the use of the first, with two lines between
    them that are refused: one that is no JSON, and an octet that is no text. Without these two the definition
    is used as before. -/
theorem handleAll_evaluations_between :
    let define := Line.text "\x7b\"cmd\": \"eval\", \"code\": \"(defvar \\ud800 (print t))\"\x7d"
    let other := Line.text "\x7b\"cmd\": \"eval\", \"code\": \"(defvar \\ud801 nil)\"\x7d"
    let use := Line.text "\x7b\"cmd\": \"eval\", \"code\": \"\\ud800\"\x7d"
    let lines := [define, .text "x", .octets [0xFF], other, use]
    ((fresh true false .utf8).handleAll lines).breakdown = none ∧
      ((fresh true false .utf8).handleAll lines).responses.length = 5 ∧
      ((fresh true false .utf8).handleAll [define, other, use]).responses =
        [.success "t", .success "nil", .success "t"] ∧
      ((fresh true false .utf8).handleAll [define, other, use]).printed = "t\n" := by
  intro define other use lines
  have hbreakdown : ((fresh true false .utf8).handleAll lines).breakdown = none := by decide +kernel
  have hevaluations : lines.map Line.isEvaluation = [true, false, false, true, true] := by decide +kernel
  let told := ((Interpreter.fresh false .utf8).answerAll (lines.filterMap Line.source?)).1
  have htexts : told.map (fun reply => respond reply.outcome) =
      [.ok (.success "t"), .ok (.success "nil"), .ok (.success "t")] := by decide +kernel
  have hlines : Text.join (told.map (·.printed)) = "t\n" := by decide +kernel
  obtain ⟨hlength, hresponses, hprinted, _, hkept⟩ := (handleAll_evaluations false .utf8 lines).2.1 hbreakdown
  have hfewer : kept (lines.map Line.isEvaluation) lines = [define, other, use] := by
    rw [hevaluations]
    rfl
  have hless := hkept (lines.map Line.isEvaluation)
    (List.forall₂_map_left_iff.2 (List.forall₂_same.2 fun _ _ => id))
  rw [hfewer] at hless
  refine ⟨hbreakdown, hlength, ?_, ?_⟩
  · rw [hless]
    apply List.map_injective_iff.2 fun _ _ => Except.ok.inj
    dsimp only
    rw [hresponses]
    exact htexts
  · rw [hless]
    dsimp only
    rw [hprinted]
    exact hlines

end Service

end SmallLisp
