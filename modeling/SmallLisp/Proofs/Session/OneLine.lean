import SmallLisp.Proofs.Session.Alphabet
import SmallLisp.Proofs.Session.Lexical

/-!
# `Proofs.Session.OneLine` — a session answers in single lines

Whatever a session writes is one line: the text of a value, the message of a fault, and what one call of
`print` writes. The words of a session have no blanks (`Proofs.Session.Lexical`), so they are over the
alphabet of the line, and a session keeps to this alphabet (`Proofs.Session.Alphabet`).

The text of a value begins in no case like the report of a fault. A list, a text and a function begin with a
character of their own, and the other values are written without a space, which the report has at its seventh
place.
-/

namespace SmallLisp

open Text (isBlank IsLine isAlphabet_line over_literal)

/-! ## Words -/

theorem isLine_of_isAtomic {s : Text} (h : ∀ c ∈ s.toList, Source.isAtomic c) : IsLine s := by
  intro c hc hblank
  rw [Source.isBlank_of_isAtomic (h c hc)] at hblank
  cases hblank

/-- The tokens of every source text stay on their line. -/
theorem Source.isOver_line (source : Text) : Source.IsOver (fun c => isBlank c → c = ' ') source := by
  intro token htoken
  by_cases hopen : token = "("
  · rw [hopen]
    exact over_literal isAlphabet_line rfl
  · by_cases hclose : token = ")"
    · rw [hclose]
      exact over_literal isAlphabet_line rfl
    · exact isLine_of_isAtomic (isAtom_of_mem_tokenize htoken hopen hclose).2

/-- The words of lexical values stay on their line. -/
theorem Value.IsLexical.isOver {v : Value} (h : v.IsLexical) : v.IsOver fun c => isBlank c → c = ' ' := by
  cases v with
  | text s => exact isLine_of_isAtomic h
  | symbol name => exact isLine_of_isAtomic h.1.2
  | closure _ _ _ _ name => exact fun s hs => isLine_of_isAtomic (h s hs).1.2
  | embedded e => exact h.elim
  | _ => trivial

/-! ## Reports -/

/-- **The text of a lexical value does not begin like a report.** -/
theorem Value.render_ne_report {depth : Nat} {v : Value} {text : Text} (hv : v.Everywhere IsLexical)
    (h : v.render depth = .ok text) (rest : Text) : text ≠ "Error: " ++ rest := by
  have hletters : ("Error: " ++ rest).toList =
      "Error: ".toList.map CodePoint.char ++ rest.toList := rfl
  have hatom {text : Text} (hatomic : ∀ c ∈ text.toList, Source.isAtomic c) :
      text ≠ "Error: " ++ rest := by
    rintro rfl
    have hspace : CodePoint.char ' ' ∈ ("Error: " ++ rest).toList := by
      rw [hletters]
      exact List.mem_append_left _ (by decide)
    have := hatomic ' ' hspace
    cases this
  have hfirst {text : Text} {c : Char} (hhead : text.toList.head? = some (.char c)) (hc : c ≠ 'E') :
      text ≠ "Error: " ++ rest := by
    rintro rfl
    exact hc (CodePoint.char.inj (Option.some.inj hhead)).symm
  cases depth with
  | zero => cases h
  | succ depth =>
    cases v with
    | number x =>
      cases h
      exact hatom (isAtom_programText x).2
    | text s =>
      cases h
      exact hfirst (c := '"') (by simp) (by decide)
    | truth b =>
      cases h
      apply hatom
      cases b with
      | true => exact List.all_eq_true.1 rfl
      | false => exact List.all_eq_true.1 rfl
    | symbol name =>
      cases h
      exact hatom hv.self.1.2
    | list items =>
      obtain ⟨parts, _, rfl⟩ := exists_of_render_list h
      exact hfirst (c := '(') (by simp) (by decide)
    | primitive p =>
      cases h
      exact hfirst (c := '#') (by simp) (by decide)
    | special form =>
      cases h
      exact hfirst (c := '#') (by simp) (by decide)
    | closure formals body scope strict name =>
      obtain ⟨first, second, _, _, rfl⟩ := exists_of_render_closure h
      exact hfirst (c := '#') (by simp) (by decide)
    | embedded e => exact hv.self.elim

/-! ## Sessions -/

namespace Interpreter

variable {strict : Bool} {output : Stream} {i : Interpreter}

/-- Every call of `print` in a session writes one line. -/
theorem isLine_of_printed (h : i.Reachable strict output) : ∀ line ∈ i.machine.printed, IsLine line := by
  refine printed_of_reachable permissive_isLexical (q := IsLine) ?_ h
  intro n args depth texts hargs htexts
  exact Value.over_of_mapM_written isAlphabet_line
    (fun arg harg => (hargs arg harg).mono fun _ h => h.1.isOver) htexts

theorem evaluateSource_snd (strict : Bool) (output : Stream) (source : Text) :
    (evaluateSource strict output source).2 = outcomeText ((fresh strict output).evalToText source).1 := by
  have houtcome (i : Interpreter) : (i.answer source).1.outcome = (i.evalToText source).1 := rfl
  rw [← houtcome]
  unfold evaluateSource
  rfl

/-- A fault of the language is reported. -/
theorem outcomeText_of_isOwn {fault : Fault} (h : fault.IsOwn) :
    outcomeText (.error fault) = .ok (report fault) := by
  cases fault with
  | host why => exact h.elim
  | _ => rfl

/-- Every session keeps to the alphabet of the line. -/
theorem isOver_line_of_reachable (h : i.Reachable strict output) : i.IsOver fun c => isBlank c → c = ' ' :=
  fun f b hb => (lexical_of_reachable h f b hb).mono fun _ h => h.isOver

/-- The text of a value does not begin like a report. -/
theorem ne_report_of_evalToText (h : i.Reachable strict output) {source text : Text}
    (htext : (i.evalToText source).1 = .ok text) (rest : Text) : text ≠ "Error: " ++ rest := by
  rcases evalToText_cases h source with
    ⟨v, _, hv, hrender, hsame⟩ | ⟨_, _, _, hexhausted⟩ | ⟨_, _, hfault⟩
  · rw [hsame] at htext
    cases htext
    exact Value.render_ne_report (lexical_of_evalSource h hv) hrender rest
  · rw [hexhausted] at htext
    cases htext
  · rw [hfault] at htext
    cases htext

/-- **A session answers in single lines, and no value passes for a fault.** In every session, what each call
    of `print` writes, the text of the value of a source text, and the message of its fault have no blank in
    them but spaces; only where the stream refuses a line the fault is none of the language, and the message
    is that of the stream. What a source text gives in a session of its own begins like a report just if its
    evaluation fails with a fault of the language. -/
theorem evalToText_lines (h : i.Reachable strict output) (source : Text) :
    (∀ line ∈ (i.evalToText source).2.machine.printed, IsLine line) ∧
      (∀ text, (i.evalToText source).1 = .ok text → IsLine text) ∧
      (∀ fault, (i.evalToText source).1 = .error fault →
        (fault.IsOwn ∧ IsLine fault.message) ∨
          ∃ why line, fault = .host (.unwritable why) ∧ output.refusal? line = some why) ∧
      ((∃ rest, (evaluateSource strict output source).2 = .ok ("Error: " ++ rest)) ↔
        ∃ fault, ((fresh strict output).evalToText source).1 = .error fault ∧ fault.IsOwn) := by
  obtain ⟨_, htext, hfault⟩ :=
    IsOver.evalToText isAlphabet_line (isOver_line_of_reachable h) h (Source.isOver_line source)
  refine ⟨isLine_of_printed (h.evalToText source), htext, ?_, ?_⟩
  · intro fault hf
    obtain ⟨hexpected, hline⟩ := hfault fault hf
    cases hexpected with
    | own hown => exact .inl ⟨hown, hline hown⟩
    | refused hrefused =>
      obtain ⟨_, _, texts, _, _, hwhy⟩ := hrefused
      exact .inr ⟨_, Text.intercalate " " texts, rfl, hwhy⟩
  · rw [evaluateSource_snd]
    have hfresh : (fresh strict output).Reachable strict output := .fresh
    cases houtcome : ((fresh strict output).evalToText source).1 with
    | ok text =>
      constructor
      · rintro ⟨rest, hrest⟩
        exact absurd (Except.ok.inj hrest) (ne_report_of_evalToText hfresh houtcome rest)
      · rintro ⟨fault, hfault, _⟩
        cases hfault
    | error fault =>
      constructor
      · rintro ⟨rest, hrest⟩
        refine ⟨fault, rfl, ?_⟩
        cases fault with
        | host why => cases hrest
        | _ => trivial
      · rintro ⟨own, hsame, hown⟩
        cases hsame
        exact ⟨fault.message, outcomeText_of_isOwn hown⟩

/-- A function may be called `Error:`, and the answer to its definition is this name. -/
theorem evalToText_lines_named_error :
    let i := ((fresh true .texts).evalToText "(defun Error: (x) (print x))").2
    i.Reachable true .texts ∧
      (∀ line ∈ (i.evalToText "(Error: Error:)").2.machine.printed, IsLine line) ∧
      (evaluateSource true .texts "(defun Error: (x) (print x))").2 = .ok "Error:" ∧
      ¬ ∃ rest, (evaluateSource true .texts "(defun Error: (x) (print x))").2 = .ok ("Error: " ++ rest) := by
  intro i
  have hreachable : i.Reachable true .texts := .evalToText .fresh _
  have htext : ((fresh true .texts).evalToText "(defun Error: (x) (print x))").1 = .ok "Error:" := by
    decide +kernel
  refine ⟨hreachable, (evalToText_lines hreachable "(Error: Error:)").1, ?_, ?_⟩
  · rw [evaluateSource_snd, htext, outcomeText]
  · rw [(evalToText_lines hreachable "(defun Error: (x) (print x))").2.2.2, htext]
    rintro ⟨fault, hfault, _⟩
    cases hfault

end Interpreter

end SmallLisp
