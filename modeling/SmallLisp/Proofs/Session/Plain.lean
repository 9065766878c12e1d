import SmallLisp.Proofs.Session.Alphabet

/-!
# `Proofs.Session.Plain` — source texts do not fail with a fault of the host

An embedding program can hand in integers, truth values of its own and `nothing`, and a list as a name; none
of these comes out of a source text (`Proofs.Session.Values`). What is left of the host is the stream on which
`print` writes, and it may refuse a line. A stream of texts refuses none, and a stream of octets exactly those
with a surrogate that stands alone (`unencodable?_eq_none_iff`). Such a line has to come from such a source
text: a session that is given plain texts only holds nothing else (`IsPlain.answer`), and nothing that it prints
is refused (`TakesPlain.not_refuses`).
-/

namespace SmallLisp

open Text (IsPlain isAlphabet_plain)

/-- **The octets of UTF-8 are for plain texts, and for all of them.** -/
theorem Text.Utf8.unencodable?_eq_none_iff {s : Text} : unencodable? s = none ↔ s.IsPlain := by
  have hpoint (c : CodePoint) : c.isChar = true ↔ ∃ d : Char, c = d := by
    cases c with
    | char d => exact ⟨fun _ => ⟨d, rfl⟩, fun _ => rfl⟩
    | lone unit => exact ⟨fun h => Bool.noConfusion h, fun ⟨_, h⟩ => CodePoint.noConfusion h⟩
  have hnone : unencodable? s = none ↔ s.toList.dropWhile CodePoint.isChar = [] := by
    unfold unencodable?
    split <;> simp_all
  rw [hnone, List.dropWhile_eq_nil_iff]
  exact forall₂_congr fun c _ => hpoint c

namespace Stream

variable {output : Stream}

/-- The stream writes every plain text. -/
def TakesPlain (output : Stream) : Prop := ∀ s : Text, s.IsPlain → output.refusal? s = none

theorem utf8_takesPlain : utf8.TakesPlain := by
  intro s hs
  show (Text.Utf8.unencodable? s).map Text.Utf8.Unencodable.message = none
  rw [Text.Utf8.unencodable?_eq_none_iff.2 hs, Option.map_none]

/-- **No line of plain values is refused.** -/
theorem TakesPlain.not_refuses (h : output.TakesPlain) (why : String) :
    ¬ output.Refuses (Value.Everywhere (Value.IsOver fun c => ∃ d : Char, c = d)) why := by
  rintro ⟨args, depth, texts, hargs, htexts, hwhy⟩
  have hline : IsPlain (Text.intercalate " " texts) :=
    Value.over_of_mapM_written isAlphabet_plain hargs htexts
  rw [h _ hline] at hwhy
  cases hwhy

end Stream

/-- The tokens of a plain text are plain. -/
theorem Source.isOver_of_isPlain {source : Text} (h : source.IsPlain) :
    Source.IsOver (fun c => ∃ d : Char, c = d) source := fun _ htoken c hc =>
  h c (mem_of_mem_tokenize htoken c hc)

namespace Interpreter

variable {strict : Bool} {output : Stream} {i : Interpreter} {source : Text}

/-- A session without lone surrogates. -/
def IsPlain (i : Interpreter) : Prop := i.IsOver fun c => ∃ d : Char, c = d

theorem isPlain_fresh : (fresh strict output).IsPlain := isOver_fresh

/-- An answer in plain texts: the text of a value, or the message of a fault of the language. -/
structure Reply.IsPlain (reply : Reply) : Prop where
  text : ∀ text, reply.outcome = .ok text → text.IsPlain
  fault : ∀ fault, reply.outcome = .error fault → fault.IsOwn ∧ fault.message.IsPlain

/-- **A plain source text keeps a session plain**, and is answered in plain texts if the stream writes them. -/
theorem IsPlain.answer (hi : i.IsPlain) (h : i.Reachable strict output) (houtput : output.TakesPlain)
    (hs : source.IsPlain) : (i.answer source).2.IsPlain ∧ (i.answer source).1.IsPlain := by
  obtain ⟨hafter, htext, hfault⟩ :=
    IsOver.evalToText isAlphabet_plain hi h (Source.isOver_of_isPlain hs)
  refine ⟨hafter, htext, fun fault hf => ?_⟩
  obtain ⟨hexpected, hmessage⟩ := hfault fault hf
  have hown := hexpected.isOwn houtput.not_refuses
  exact ⟨hown, hmessage hown⟩

/-- Plain source texts, one after the other. -/
theorem IsPlain.answerAll (hi : i.IsPlain) (h : i.Reachable strict output) (houtput : output.TakesPlain)
    {sources : List Text} (hs : ∀ source ∈ sources, source.IsPlain) :
    ∀ reply ∈ (i.answerAll sources).1, reply.IsPlain := by
  induction sources generalizing i with
  | nil => exact fun reply hreply => absurd hreply List.not_mem_nil
  | cons source rest ih =>
    obtain ⟨hsource, hrest⟩ := List.forall_mem_cons.1 hs
    obtain ⟨hafter, hanswer⟩ := hi.answer h houtput hsource
    exact List.forall_mem_cons.2 ⟨hanswer, ih hafter (h.evalToText source).takePrinted hrest⟩

end Interpreter

end SmallLisp
