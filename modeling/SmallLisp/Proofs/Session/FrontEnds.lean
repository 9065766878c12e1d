import SmallLisp.CommandLine.Program
import SmallLisp.Proofs.Service.Wire
import SmallLisp.Proofs.Session.OneLine
import SmallLisp.Proofs.Session.Transcript

/-!
# `Proofs.Session.FrontEnds` — four ways to evaluate a text have one outcome

A source text can be evaluated by the function that answers in a text, by a request to a service without
session, by the option `--eval` of the command line, and on a line of the interactive loop. Each of them makes
a new session, and reports what this session answers in its own way (`FrontEnds`, `frontEnds_of_answer`).
-/

namespace SmallLisp

namespace CommandLine

/-- The words of a command line that evaluates a source text, with or without the switch for strict arity. -/
def evalWords (switch : Bool) (source : Text) : List Text :=
  (if switch then [("--strict-arity" : Text)] else []) ++ ["--eval=" ++ source]

/-- A word is split at its first equals sign. -/
theorem splitEquals_append {name : Text} (h : .char '=' ∉ name.toList) (value : Text) :
    splitEquals (name ++ .ofList (.char '=' :: value.toList)) = (name, some value) := by
  have hname : ∀ c ∈ name.toList, decide (c ≠ .char '=') = true := fun c hc =>
    decide_eq_true fun hequals => h (hequals ▸ hc)
  rw [splitEquals, Text.toList_append, Text.toList_ofList, List.dropWhile_append_of_pos hname,
    List.takeWhile_append_of_pos hname]
  simp

/-- No option has an equals sign in it. -/
theorem equals_not_mem_spelling : ∀ entry ∈ OptionName.table, .char '=' ∉ entry.1.toList := by decide +kernel

/-- What is joined to `--eval` by an equals sign is the value of this option, whatever it is. -/
theorem ofText_eval (source : Text) :
    Word.ofText ("--eval=" ++ source) = .ok (.option .eval (some source)) := by
  have hspelled : OptionName.table.lookup (("--eval=" : Text) ++ source) = none := by
    apply List.lookup_eq_none_iff.2
    intro entry hentry
    rw [bne_iff_ne]
    intro hsame
    apply equals_not_mem_spelling entry hentry
    have hequals : CodePoint.char '=' ∈ ("--eval=" : Text).toList := by decide
    rw [← hsame, Text.toList_append]
    exact List.mem_append_left _ hequals
  have hequals : CodePoint.char '=' ∉ ("--eval" : Text).toList := by decide
  have hsplit : splitEquals (("--eval=" : Text) ++ source) = (("--eval" : Text), some source) :=
    splitEquals_append hequals source
  have hname : OptionName.table.lookup ("--eval" : Text) = some .eval := by decide +kernel
  have hdash : (("--eval=" : Text) ++ source).toList =
      .char '-' :: .char '-' :: (("eval=" : Text).toList ++ source.toList) := rfl
  unfold Word.ofText
  simp only [hdash, hsplit, hspelled, hname]

theorem parse_evalWords (switch : Bool) (source : Text) :
    parse (evalWords switch source) =
      .ok (.run { Options.none with source := some source, strictArity := switch }) := by
  have hswitch : Word.ofText "--strict-arity" = .ok (.option .strictArity none) := by decide
  have hassign (options : Options) (strays : List Text) :
      act options strays [("--eval=" ++ source, .option .eval (some source))] =
        act { options with source := some source } strays [] := by
    simp only [act, Options.assign, Except.bind]
  unfold parse evalWords
  cases switch with
  | true =>
    rw [if_pos rfl, List.singleton_append, List.mapM_cons, List.mapM_cons, hswitch, ofText_eval]
    show act .none [] [("--strict-arity", .option .strictArity none), _] = _
    rw [act, hassign]
    rfl
  | false =>
    rw [if_neg nofun, List.nil_append, List.mapM_cons, ofText_eval]
    exact hassign .none []

/-- With the logging level left alone, these words ask for an evaluation. -/
theorem plan_evalWords (output : Stream) {vars : Variables} (hlevel : Settings.logLevel vars = "WARNING")
    (switch : Bool) (source : Text) :
    plan output vars (evalWords switch source) =
      .ok (.evaluate (switch || Settings.strictArity vars) source) := by
  have hknown : Text.upper (givenOr none (Settings.logLevel vars)) ∈ levels := by
    rw [hlevel]
    decide +kernel
  rw [plan, parse_evalWords]
  show planOptions output vars _ = _
  rw [planOptions]
  simp only [Options.none, hknown, not_true_eq_false, if_false]
  rfl

end CommandLine

namespace Interpreter

/-- **The same outcome four times.** What a source text gives in new sessions under one arity policy, when it
    prints `printed` on a stream of texts: from the function its text; from every request for it to a service
    without session the response; from the command line its status and what it shows; and of a line of the
    loop, unless it is blank or ends the loop, what is shown. -/
structure FrontEnds (vars : Variables) (switch : Bool) (source printed text : Text)
    (response : Service.Response) (status : Nat) (shown : Transcript) : Prop where
  function : evaluateSource (switch || Settings.strictArity vars) .texts source = (printed, .ok text)
  requested : ∃ line : Service.Line, line.Asks source
  request (line : Service.Line) (hasks : line.Asks source) :
    let service := Service.fresh false (switch || Settings.strictArity vars) .texts
    service.handle line = ⟨.ok response, printed, service⟩
  command (output : Stream) (input : Text) (clients : List (List (List UInt8))) :
    CommandLine.run output vars (CommandLine.evalWords switch source) input clients =
      ⟨.ok status, shown, none, []⟩
  line (hblank : ¬ Transcript.IsBlank source) (hexit : Transcript.isExit source = false) :
    let session := fresh (switch || Settings.strictArity vars) .texts
    Transcript.handleLine session source = (true, shown, (session.answer source).2)

/-- The front ends report what a new session answers. -/
theorem frontEnds_of_answer {vars : Variables} (hlevel : Settings.logLevel vars = "WARNING")
    {switch : Bool} {source : Text} {reply : Reply} {response : Service.Response}
    (hreply : ((fresh (switch || Settings.strictArity vars) .texts).answer source).1 = reply)
    (hresponse : Service.respond reply.outcome = .ok response) :
    FrontEnds vars switch source reply.printed response.text response
      (if reply.outcome.isOk then 0 else 1) (.ofReply reply) where
  function := by
    rw [evaluateSource, hreply, Service.outcomeText_of_respond hresponse]
  requested := Service.exists_asks source
  request line hasks := by
    intro service
    have hhandle := Service.handle_eval service (Service.Line.request_eq_eval_iff.2 hasks)
    have hanswer : (service.interpreter.answer source).1 = reply := hreply
    rw [hhandle, hanswer, hresponse]
    rfl
  command output input clients := by
    rw [CommandLine.run, CommandLine.plan_evalWords output hlevel]
    show CommandLine.Plan.run input clients (.evaluate _ source) = _
    rw [CommandLine.Plan.run, CommandLine.evaluate, hreply]
  line hblank hexit := by
    intro session
    rw [Transcript.handleLine, hexit, Transcript.answerLine_eq, if_neg hblank, hreply]
    rfl

end Interpreter

end SmallLisp
