import Mathlib.Data.List.TakeWhile
import Mathlib.Logic.Function.Iterate
import SmallLisp.Proofs.Session.Values
import SmallLisp.Proofs.Source.Tokens
import SmallLisp.Transcript

/-!
# `Proofs.Session.Transcript` — the loop shows what one session answers

The loop takes one line off the input at a time (`Dialogue.turn`). A turn that meets the end of the input or a
line that says `exit` is the last one; every other turn prompts, and shows what the session answers to the
line (`turn_line`). So there are no more turns than lines and one (`turns_of_cut`), and the transcript is that
of the lines before the first `exit`, each answered by the session that was fed the lines before it
(`run_transcript`).

The blanks at the ends of a line are dropped before it is evaluated, which changes nothing
(`Interpreter.answer_strip`).
-/

namespace SmallLisp

/-! ## Blanks around a source text -/

theorem Source.read_strip (limit : Nat) (source : Text) :
    read limit (Text.strip source) = read limit source := by
  rw [read, read, tokenize_strip]

/-- **A session answers a text without the blanks at its ends as it answers the text.** -/
theorem Interpreter.answer_strip (i : Interpreter) (source : Text) :
    i.answer (Text.strip source) = i.answer source := by
  simp only [answer, evalToText, evalSource, evalAction, Source.read_strip]

namespace Transcript

variable {prompt : Text} {strict : Bool} {output : Stream} {i : Interpreter}

/-! ## Lines -/

/-- **The lines of a text.** Each one ends with a line feed and has no other, but the last one may have
    none. -/
inductive Cut : List CodePoint → List Text → Prop
  | nil : Cut [] []
  | unterminated {body : List CodePoint} (hne : body ≠ []) (hbody : .char '\n' ∉ body) :
      Cut body [Text.ofList body]
  | line {body rest : List CodePoint} {lines : List Text} (hbody : .char '\n' ∉ body) (hrest : Cut rest lines) :
      Cut (body ++ .char '\n' :: rest) (Text.ofList (body ++ [.char '\n']) :: lines)

/-- Only blanks stand on the line. -/
def IsBlank (line : Text) : Prop := ∀ c ∈ line.toList, Text.isBlank c

instance (line : Text) : Decidable (IsBlank line) :=
  List.decidableBAll (fun c => Text.isBlank c) line.toList

/-- The source texts among lines: those that are not blank. -/
def sources (lines : List Text) : List Text := lines.filter fun line => ¬ IsBlank line

/-- The lines before the first that ends the loop. -/
def asked (lines : List Text) : List Text := lines.takeWhile fun line => !isExit line

theorem cut_splitLines {run : List CodePoint} (hrun : .char '\n' ∉ run) (text : List CodePoint) :
    Cut (run.reverse ++ text) ((splitLines run text).map Text.ofList) := by
  induction text generalizing run with
  | nil =>
    rw [splitLines, List.append_nil]
    cases run with
    | nil => exact .nil
    | cons c run =>
      refine .unterminated (by simp) ?_
      rwa [List.mem_reverse]
  | cons c text ih =>
    rw [splitLines]
    split
    · -- the line feed ends the line
      rename_i hc
      subst hc
      rw [List.map_cons, List.reverse_cons]
      refine .line ?_ (ih List.not_mem_nil)
      rwa [List.mem_reverse]
    · rename_i hc
      have hrun' : .char '\n' ∉ c :: run := by
        intro hmem
        rcases List.mem_cons.1 hmem with h | h
        · exact hc h.symm
        · exact hrun h
      have := ih hrun'
      rwa [List.reverse_cons, List.append_assoc] at this

theorem cut_lines (text : Text) : Cut text.toList (lines text) :=
  cut_splitLines List.not_mem_nil text.toList

/-! ## What is shown of a line -/

/-- **What is shown of a line** after which the loop goes on: nothing if it is blank; otherwise what the
    session prints for it and the text of its value, or what it prints and, on the other stream, the fault. -/
inductive Shows (i : Interpreter) (line : Text) : Transcript → Prop
  | blank (h : IsBlank line) : Shows i line ⟨"", ""⟩
  | value {text : Text} (h : ¬ IsBlank line) (htext : (i.evalToText line).1 = .ok text) :
      Shows i line ⟨(i.evalToText line).2.takePrinted.1 ++ text ++ "\n", ""⟩
  | fault {fault : Fault} (h : ¬ IsBlank line) (hfault : (i.evalToText line).1 = .error fault)
      (hown : fault.IsOwn) :
      Shows i line ⟨(i.evalToText line).2.takePrinted.1, "Error: " ++ fault.message ++ "\n"⟩

/-- What is shown of lines one after the other, and the session after them. -/
def answerLines (i : Interpreter) : List Text → List Transcript × Interpreter
  | [] => ([], i)
  | line :: rest =>
    let (shown, i) := answerLine i line
    let (later, i) := answerLines i rest
    (shown :: later, i)

theorem answerLines_cons (i : Interpreter) (line : Text) (rest : List Text) :
    answerLines i (line :: rest) =
      ((answerLine i line).1 :: (answerLines (answerLine i line).2 rest).1,
        (answerLines (answerLine i line).2 rest).2) := by
  rw [answerLines]

theorem isEmpty_strip (line : Text) : (Text.strip line).isEmpty = true ↔ IsBlank line := by
  have hempty : (Text.strip line).isEmpty = true ↔ Text.stripBy Text.isBlank line.toList = [] := by
    rw [Text.isEmpty, Text.strip, Text.toList_ofList, List.isEmpty_iff]
  rw [hempty]
  constructor
  · intro h
    obtain ⟨before, after, hline, hbefore, hafter⟩ := Source.exists_margins Text.isBlank line.toList
    rw [h, List.append_nil] at hline
    rw [IsBlank, hline]
    exact List.forall_mem_append.2 ⟨hbefore, hafter⟩
  · intro h
    have hdropped : line.toList.dropWhile Text.isBlank = [] := List.dropWhile_eq_nil_iff.2 h
    rw [Text.stripBy, hdropped]
    rfl

/-- A blank line is passed over, every other one is a source text. -/
theorem answerLine_eq (i : Interpreter) (line : Text) :
    answerLine i line =
      if IsBlank line then (empty, i) else (ofReply (i.answer line).1, (i.answer line).2) := by
  unfold answerLine
  simp only [isEmpty_strip, Interpreter.answer_strip]

/-- What is shown of a line. -/
theorem shows_answerLine (h : i.Reachable strict output) (hall : output.TakesAll) (line : Text) :
    Shows i line (answerLine i line).1 := by
  rw [answerLine_eq]
  by_cases hblank : IsBlank line
  · rw [if_pos hblank]
    exact .blank hblank
  · rw [if_neg hblank]
    show Shows i line (ofReply ⟨(i.evalToText line).2.takePrinted.1, (i.evalToText line).1⟩)
    cases houtcome : (i.evalToText line).1 with
    | ok text => exact .value hblank houtcome
    | error fault =>
      exact .fault hblank houtcome ((Interpreter.answer_owned h line houtcome).isOwn (hall.not_refuses _))

/-- A blank line leads nowhere, every other one where it leads as a source text. -/
theorem answerAll_sources_cons (i : Interpreter) (line : Text) (rest : List Text) :
    (i.answerAll (sources (line :: rest))).2 =
      ((answerLine i line).2.answerAll (sources rest)).2 := by
  rw [answerLine_eq, sources, List.filter_cons]
  by_cases hblank : IsBlank line
  · rw [if_pos hblank, if_neg (by simpa using hblank)]
    rfl
  · rw [if_neg hblank, if_pos (by simpa using hblank)]
    rfl

theorem answerLines_snd (i : Interpreter) (lines : List Text) :
    (answerLines i lines).2 = (i.answerAll (sources lines)).2 := by
  induction lines generalizing i with
  | nil => rfl
  | cons line rest ih => rw [answerAll_sources_cons, answerLines_cons, ih]

theorem reachable_answerLine (h : i.Reachable strict output) (line : Text) :
    (answerLine i line).2.Reachable strict output := by
  rw [answerLine_eq]
  split
  · exact h
  · exact (h.evalToText line).takePrinted

/-- **Of every line is shown what it gives in the session that was fed the lines before it.** -/
theorem shows_answerLines (h : i.Reachable strict output) (hall : output.TakesAll) {lines : List Text}
    {k : Nat} {line : Text}
    (hline : lines[k]? = some line) :
    ∃ shown, (answerLines i lines).1[k]? = some shown ∧
      Shows (i.answerAll (sources (lines.take k))).2 line shown := by
  induction lines generalizing i k with
  | nil => cases hline
  | cons earlier rest ih =>
    rw [answerLines_cons]
    cases k with
    | zero =>
      cases hline
      exact ⟨_, rfl, shows_answerLine h hall line⟩
    | succ k =>
      rw [List.getElem?_cons_succ] at hline
      rw [List.take_succ_cons, answerAll_sources_cons, List.getElem?_cons_succ]
      exact ih (reachable_answerLine h earlier) hline

theorem length_answerLines (i : Interpreter) (lines : List Text) :
    (answerLines i lines).1.length = lines.length := by
  induction lines generalizing i with
  | nil => rfl
  | cons line rest ih => rw [answerLines_cons, List.length_cons, List.length_cons, ih]

/-! ## The loop -/

theorem append_output (a b : Transcript) : (a ++ b).output = a.output ++ b.output := rfl

theorem append_errors (a b : Transcript) : (a ++ b).errors = a.errors ++ b.errors := rfl

theorem append_assoc (a b c : Transcript) : a ++ b ++ c = a ++ (b ++ c) := by
  show append (append a b) c = append a (append b c)
  simp only [append, Text.append_assoc]

theorem append_empty (a : Transcript) : a ++ empty = a := by
  show append a empty = a
  simp only [append, empty, Text.append_empty]

theorem asked_exit {line : Text} (hexit : isExit line = true) (rest : List Text) :
    asked (line :: rest) = [] := by
  rw [asked, List.takeWhile_cons, hexit]
  rfl

theorem asked_line {line : Text} (hexit : isExit line = false) (rest : List Text) :
    asked (line :: rest) = line :: asked rest := by
  rw [asked, List.takeWhile_cons, hexit]
  rfl

theorem loop_exit {line : Text} (hexit : isExit line = true) (rest : List Text) :
    loop prompt i (line :: rest) = ⟨prompt, ""⟩ := by
  rw [loop, if_pos hexit]

theorem loop_line {line : Text} (hexit : isExit line = false) (rest : List Text) :
    loop prompt i (line :: rest) =
      ⟨prompt, ""⟩ ++ (answerLine i line).1 ++ loop prompt (answerLine i line).2 rest := by
  rw [loop, if_neg (by simp [hexit])]

/-- **The transcript of the loop**: of every line before the first that ends the loop, the prompt and what is
    shown of it; then the prompt for that line, or for the end of the input. -/
theorem loop_eq (prompt : Text) (i : Interpreter) (lines : List Text) :
    (loop prompt i lines).output =
        Text.join ((answerLines i (asked lines)).1.map fun shown => prompt ++ shown.output) ++
          (if lines.any isExit then prompt else prompt ++ "\n") ∧
      (loop prompt i lines).errors =
        Text.join ((answerLines i (asked lines)).1.map (·.errors)) := by
  induction lines generalizing i with
  | nil => exact ⟨(Text.empty_append _).symm, rfl⟩
  | cons line rest ih =>
    rw [List.any_cons]
    cases hexit : isExit line with
    | true =>
      rw [loop_exit hexit, asked_exit hexit]
      exact ⟨(Text.empty_append _).symm, rfl⟩
    | false =>
      obtain ⟨houtput, herrors⟩ := ih (answerLine i line).2
      rw [loop_line hexit, asked_line hexit, answerLines_cons]
      simp only [List.map_cons, Text.join_cons, append_output, append_errors, Bool.false_or]
      rw [houtput, herrors]
      exact ⟨by simp only [Text.append_assoc], by simp only [Text.empty_append]⟩

/-! ## Turns -/

/-- A text as it is read: the characters up to the first line feed and with it, and the rest. -/
def readLine : List CodePoint → List CodePoint × List CodePoint
  | [] => ([], [])
  | c :: rest =>
    if c = '\n' then ([c], rest)
    else
      let (line, rest) := readLine rest
      (c :: line, rest)

/-- The loop between two turns: the input that is left, the session, what was shown, and whether it is
    over. -/
structure Dialogue where
  input : List CodePoint
  session : Interpreter
  shown : Transcript
  ended : Bool

/-- **One turn of the loop**: it prompts, reads a line, and does what the line says. -/
def Dialogue.turn (prompt : Text) (d : Dialogue) : Dialogue :=
  if d.ended then d
  else
    let (line, rest) := readLine d.input
    if line.isEmpty then { d with shown := d.shown ++ ⟨prompt ++ "\n", ""⟩, ended := true }
    else
      let (goesOn, answer, session) := handleLine d.session (Text.ofList line)
      ⟨rest, session, d.shown ++ ⟨prompt, ""⟩ ++ answer, !goesOn⟩

open Dialogue

variable {input rest line : List CodePoint} {parts : List Text} {shown : Transcript}

theorem readLine_line (h : .char '\n' ∉ line) (rest : List CodePoint) :
    readLine (line ++ .char '\n' :: rest) = (line ++ [.char '\n'], rest) := by
  induction line with
  | nil => rfl
  | cons c line ih =>
    have hc : c ≠ '\n' := fun hc => h (hc ▸ List.mem_cons_self)
    rw [List.cons_append, readLine, if_neg hc, ih fun hline => h (List.mem_cons_of_mem _ hline)]
    rfl

theorem readLine_unterminated (h : .char '\n' ∉ line) : readLine line = (line, []) := by
  induction line with
  | nil => rfl
  | cons c line ih =>
    have hc : c ≠ '\n' := fun hc => h (hc ▸ List.mem_cons_self)
    rw [readLine, if_neg hc, ih fun hline => h (List.mem_cons_of_mem _ hline)]

/-- At the end of the input the loop is over. -/
theorem turn_nil :
    turn prompt ⟨[], i, shown, false⟩ = ⟨[], i, shown ++ ⟨prompt ++ "\n", ""⟩, true⟩ := rfl

/-- With a line that says so the loop is over. -/
theorem turn_exit (hread : readLine input = (line, rest)) (hne : line ≠ [])
    (hexit : isExit (Text.ofList line) = true) :
    turn prompt ⟨input, i, shown, false⟩ = ⟨rest, i, shown ++ ⟨prompt, ""⟩, true⟩ := by
  have hempty : line.isEmpty = false := by simpa using hne
  simp only [turn, hread, hempty, handleLine, hexit, append_empty, Bool.false_eq_true, if_false, if_true,
    Bool.not_false]

/-- Any other line is answered, and the loop goes on. -/
theorem turn_line (hread : readLine input = (line, rest)) (hne : line ≠ [])
    (hexit : isExit (Text.ofList line) = false) :
    turn prompt ⟨input, i, shown, false⟩ =
      ⟨rest, (answerLine i (Text.ofList line)).2,
        shown ++ ⟨prompt, ""⟩ ++ (answerLine i (Text.ofList line)).1, false⟩ := by
  have hempty : line.isEmpty = false := by simpa using hne
  simp only [turn, hread, hempty, handleLine, hexit, Bool.false_eq_true, if_false, Bool.not_true]

/-- When the loop is over it stays so. -/
theorem turns_over (n : Nat) (input : List CodePoint) (i : Interpreter) (shown : Transcript) :
    (turn prompt)^[n] ⟨input, i, shown, true⟩ = ⟨input, i, shown, true⟩ :=
  Function.iterate_fixed rfl n

/-- The loop is over after a turn for each line and one more, and has shown its transcript. -/
def EndsWith (prompt : Text) (input : List CodePoint) (parts : List Text) : Prop :=
  ∀ (i : Interpreter) (shown : Transcript), ∃ rest,
    (turn prompt)^[parts.length + 1] ⟨input, i, shown, false⟩ =
      ⟨rest, (answerLines i (asked parts)).2, shown ++ loop prompt i parts, true⟩

theorem EndsWith.cons (h : EndsWith prompt rest parts) (hread : readLine input = (line, rest))
    (hne : line ≠ []) : EndsWith prompt input (Text.ofList line :: parts) := by
  intro i shown
  rw [List.length_cons, Function.iterate_succ_apply]
  cases hexit : isExit (Text.ofList line) with
  | true =>
    rw [turn_exit hread hne hexit, turns_over, loop_exit hexit, asked_exit hexit]
    exact ⟨rest, rfl⟩
  | false =>
    rw [turn_line hread hne hexit, loop_line hexit, asked_line hexit, answerLines_cons]
    obtain ⟨left, hleft⟩ := h (answerLine i (Text.ofList line)).2
      (shown ++ ⟨prompt, ""⟩ ++ (answerLine i (Text.ofList line)).1)
    refine ⟨left, hleft.trans ?_⟩
    simp only [append_assoc]

/-- **The loop ends**, after at most one turn more than there are lines. -/
theorem turns_of_cut (h : Cut input parts) : EndsWith prompt input parts := by
  have hnil : EndsWith prompt [] [] := fun i shown => ⟨[], turn_nil⟩
  induction h with
  | nil => exact hnil
  | unterminated hne hbody => exact hnil.cons (readLine_unterminated hbody) hne
  | line hbody _ ih => exact ih.cons (readLine_line hbody _) (by simp)

/-- **The transcript of the loop is that of one session** that prints on a stream of texts. The lines of an
    input are what its line feeds cut it into. The loop ends on every input, after at most one turn more than
    there are lines. Its output is the banner; for every line before the first that ends the loop the prompt
    and what is shown of the line; and the prompt once more, with a line feed at the end of the input. On the
    other stream stand the faults, in their order. What is shown of a line is what one session, which was fed
    those of the lines before it that are not blank, then prints for it and gives as its value or its fault;
    and no line after the first that ends the loop is given to the session. -/
theorem run_transcript (strict : Bool) (prompt input : Text) :
    let met := asked (lines input)
    let session (k : Nat) := ((Interpreter.fresh strict .texts).answerAll (sources (met.take k))).2
    let told := run prompt (.fresh strict .texts) input
    Cut input.toList (lines input) ∧
    (∃ rest, (turn prompt)^[(lines input).length + 1]
        ⟨input.toList, .fresh strict .texts, ⟨"ducklisp interpreter\nType 'exit' to quit\n", ""⟩, false⟩ =
      ⟨rest, session met.length, told, true⟩) ∧
    ∃ shown : List Transcript,
      shown.length = met.length ∧
      (∀ k line, met[k]? = some line →
        ∃ answer, shown[k]? = some answer ∧ Shows (session k) line answer) ∧
      told.output = "ducklisp interpreter\nType 'exit' to quit\n" ++
        Text.join (shown.map fun answer => prompt ++ answer.output) ++
          (if (lines input).any isExit then prompt else prompt ++ "\n") ∧
      told.errors = Text.join (shown.map (·.errors)) := by
  intro met session told
  refine ⟨cut_lines input, ?_, (answerLines (.fresh strict .texts) met).1, length_answerLines _ _, ?_, ?_, ?_⟩
  · have hends : EndsWith prompt input.toList (lines input) := turns_of_cut (cut_lines input)
    obtain ⟨rest, hrest⟩ := hends (.fresh strict .texts) ⟨banner, ""⟩
    have hsession : session met.length = (answerLines (.fresh strict .texts) met).2 := by
      show ((Interpreter.fresh strict .texts).answerAll (sources (met.take met.length))).2 = _
      rw [answerLines_snd, List.take_length]
    rw [hsession]
    exact ⟨rest, hrest⟩
  · intro k line hline
    exact shows_answerLines .fresh Stream.texts_takesAll hline
  · show banner ++ (loop prompt (.fresh strict .texts) (lines input)).output = _
    rw [(loop_eq prompt (.fresh strict .texts) (lines input)).1, ← Text.append_assoc]
    rfl
  · show "" ++ (loop prompt (.fresh strict .texts) (lines input)).errors = _
    rw [(loop_eq prompt (.fresh strict .texts) (lines input)).2, Text.empty_append]

/-- Blank lines are passed over, and what follows `exit` is left alone. -/
example : run "> " (.fresh false .texts) "\n   \n(print t)\n)\n Exit \nt" =
    ⟨banner ++ "> > > t\nt\n> > ", "Error: unexpected closing paren\n"⟩ := by
  decide +kernel

end Transcript

end SmallLisp
