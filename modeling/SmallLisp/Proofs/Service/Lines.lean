import SmallLisp.Service.Connection

/-!
# `Proofs.Service.Lines` — the lines of a stream do not hang on how it is cut

A connection receives a stream in chunks and answers every line as soon as its line feed is there. The
lines of a stream are what stands between its line feeds; what stands after the last one is pending
(`fst_cutLines`). To receive one chunk after another is to receive both as one (`receive_receive`),
whatever the cut goes through, so a conversation hangs on the stream alone (`converse_eq_receive`).
-/

namespace SmallLisp.Service.Connection

/-- The lines of a stream: what ends with a line feed, without it. -/
def completeLines (octets : List UInt8) : List (List UInt8) := (octets.splitOn 0x0A).dropLast

/-- The lines of a stream that ask for an answer: without their margins, and not those that are empty
    then. -/
def requestLines (octets : List UInt8) : List (List UInt8) :=
  ((completeLines octets).map (Text.stripBy isMargin)).filter fun line => !line.isEmpty

variable {run octets more : List UInt8} {c : Connection}

/-! ## Cutting lines -/

theorem fst_cutLines (run octets : List UInt8) :
    (cutLines run octets).1 = (octets.splitOnPPrepend (· == 0x0A) run).dropLast := by
  induction octets generalizing run with
  | nil => rfl
  | cons octet rest ih =>
    rw [cutLines, List.splitOnPPrepend_cons_eq_if]
    by_cases h : octet = 0x0A
    · -- what follows a line feed has a last part, so the line before it is not the last
      have hne : rest.splitOnP (· == 0x0A) ≠ [] := List.splitOnP_ne_nil _ _
      rw [if_pos h, if_pos (beq_iff_eq.2 h), List.dropLast_cons_of_ne_nil hne]
      exact congrArg (run.reverse :: ·) (ih [])
    · rw [if_neg h, if_neg (by simpa using h), ih]

/-- What is cut off a stream is cut off its first part, and off the rest with what was pending. -/
theorem cutLines_append (run octets more : List UInt8) :
    cutLines run (octets ++ more) =
      ((cutLines run octets).1 ++ (cutLines (cutLines run octets).2.reverse more).1,
        (cutLines (cutLines run octets).2.reverse more).2) := by
  induction octets generalizing run with
  | nil => simp [cutLines]
  | cons octet rest ih =>
    rw [List.cons_append, cutLines, cutLines]
    by_cases h : octet = 0x0A
    · simp only [if_pos h, ih [], List.cons_append]
    · simp only [if_neg h, ih (octet :: run)]

/-- Without a line feed there is no line, and everything is pending. -/
theorem cutLines_of_not_mem (h : 0x0A ∉ octets) :
    cutLines run octets = ([], run.reverse ++ octets) := by
  induction octets generalizing run with
  | nil => simp [cutLines]
  | cons octet rest ih =>
    have hne : octet ≠ 0x0A := fun e => h (e ▸ List.mem_cons_self)
    rw [cutLines, if_neg hne, ih fun hrest => h (List.mem_cons_of_mem _ hrest)]
    simp

/-- No line feed is pending. -/
theorem not_mem_pending (h : 0x0A ∉ run) : 0x0A ∉ (cutLines run octets).2 := by
  induction octets generalizing run with
  | nil => simpa [cutLines] using h
  | cons octet rest ih =>
    rw [cutLines]
    by_cases ho : octet = 0x0A
    · rw [if_pos ho]
      exact ih List.not_mem_nil
    · rw [if_neg ho]
      refine ih ?_
      intro hmem
      rcases List.mem_cons.1 hmem with he | hrun
      · exact ho he.symm
      · exact h hrun

/-- What stands after the last line feed asks for nothing. -/
theorem requestLines_append_of_not_mem (octets : List UInt8) (h : 0x0A ∉ more) :
    requestLines (octets ++ more) = requestLines octets := by
  have hlines (s : List UInt8) : completeLines s = (cutLines [] s).1 := (fst_cutLines [] s).symm
  unfold requestLines
  rw [hlines, hlines, cutLines_append, cutLines_of_not_mem h, List.append_nil]

/-! ## Answering lines -/

/-- An answer leaves alone what is pending, and does not hang on it. -/
theorem answerLine_pending (c : Connection) (pending line : List UInt8) :
    answerLine { c with pending } line = { c.answerLine line with pending } := by
  simp only [answerLine]
  split
  · rfl
  · split <;> rfl

theorem foldl_answerLine_pending (c : Connection) (pending : List UInt8)
    (lines : List (List UInt8)) :
    lines.foldl answerLine { c with pending } = { lines.foldl answerLine c with pending } := by
  induction lines generalizing c with
  | nil => rfl
  | cons line rest ih => rw [List.foldl_cons, List.foldl_cons, answerLine_pending, ih]

theorem receive_eq (c : Connection) (octets : List UInt8) :
    c.receive octets =
      { (cutLines [] (c.pending ++ octets)).1.foldl answerLine c with
        pending := (cutLines [] (c.pending ++ octets)).2 } :=
  foldl_answerLine_pending c _ _

theorem receive_nil (h : 0x0A ∉ c.pending) : c.receive [] = c := by
  rw [receive_eq, List.append_nil, cutLines_of_not_mem h]
  rfl

/-- **Two chunks are one.** To receive octets and then more is to receive all of them at once. -/
theorem receive_receive (c : Connection) (octets more : List UInt8) :
    (c.receive octets).receive more = c.receive (octets ++ more) := by
  -- only octets without a line feed wait for more, so they are the start of the next line
  have hpending : 0x0A ∉ (cutLines [] (c.pending ++ octets)).2 := not_mem_pending List.not_mem_nil
  have hcut := cutLines_append [] (c.pending ++ octets) more
  have hnext : cutLines [] ((cutLines [] (c.pending ++ octets)).2 ++ more) =
      cutLines (cutLines [] (c.pending ++ octets)).2.reverse more := by
    rw [cutLines_append, cutLines_of_not_mem hpending]
    rfl
  rw [List.append_assoc] at hcut
  rw [receive_eq c (octets ++ more), hcut, List.foldl_append, ← hnext,
    receive_eq (c.receive octets), receive_eq c octets, foldl_answerLine_pending]

theorem foldl_receive (h : 0x0A ∉ c.pending) (chunks : List (List UInt8)) :
    chunks.foldl receive c = c.receive chunks.flatten := by
  induction chunks generalizing c with
  | nil => exact (receive_nil h).symm
  | cons chunk rest ih =>
    have hpending : 0x0A ∉ (c.receive chunk).pending := by
      rw [receive_eq]
      exact not_mem_pending List.not_mem_nil
    rw [List.foldl_cons, ih hpending, receive_receive, List.flatten_cons]

/-- **A conversation is one stream**, however it is cut into chunks. -/
theorem converse_eq_receive (service : Service) {chunks : List (List UInt8)}
    (h : ∀ chunk ∈ chunks, chunk ≠ []) :
    converse service chunks = (start service).receive chunks.flatten := by
  have hall : (chunks ++ []).takeWhile (· ≠ []) = chunks ++ [] :=
    List.takeWhile_append_of_pos fun chunk hc => decide_eq_true (h chunk hc)
  rw [List.append_nil] at hall
  rw [converse, hall, foldl_receive List.not_mem_nil]

end SmallLisp.Service.Connection
