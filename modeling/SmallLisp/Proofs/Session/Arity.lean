import SmallLisp.Proofs.Session.Parallel

/-!
# `Proofs.Session.Arity` — strict arity only refuses calls

A session under the strict policy makes other closures than a session under the lenient one, and both hold
the policy in their special forms. Nothing shows that, until a strict closure refuses a call because of the
number of its arguments: up to there the two sessions answer the same (`replies_strict_lenient`).
-/

namespace SmallLisp

/-- The answer is that a strict closure refused a call. -/
def Interpreter.Reply.Mismatches (reply : Interpreter.Reply) : Prop :=
  ∃ name expected given, reply.outcome = .error (.argument (.arity name expected given))

namespace Simulation

/-- **A lenient session stands for a strict one**: a strict closure may be lenient instead. The comparison
    ends where a strict closure refuses a call. -/
def lenient : Simulation where
  name := Eq
  policy strict strict' := strict' = true → strict = true
  label := Eq
  text := Eq
  frame := id
  apart _ := none
  escapes fault := ∃ name expected given, fault = .argument (.arity name expected given)

theorem lenient_literal : lenient.Literal := ⟨⟨id, id⟩, id⟩

theorem lenient_not_tooDeep : ¬ lenient.escapes (.host .tooDeep) := by
  rintro ⟨_, _, _, ⟨⟩⟩

theorem lenient_reflexive : lenient.Reflexive :=
  ⟨fun _ => rfl, fun _ => id, fun _ => rfl, Iff.rfl, fun _ => rfl⟩

theorem lenient_lawful : lenient.Lawful where
  name_iff := by
    rintro s s' t t' rfl rfl
    rfl
  frame := strictMono_id
  policy {strict strict'} hp := by
    cases strict' with
    | true => exact .inl (hp rfl)
    | false =>
      cases strict with
      | true => exact .inr ⟨rfl, fun name expected given => ⟨name, expected, given, rfl⟩⟩
      | false => exact .inl rfl
  unnamed := rfl
  named := congrArg some
  written hv := hv.ends_written (fun _ _ => id) (fun _ => rfl) lenient_not_tooDeep
  inspected hv := hv.ends_inspected (fun _ _ => id) (fun _ => rfl) lenient_not_tooDeep
  joined := text_joined fun _ _ => Iff.rfl
  reflexive _ := lenient_reflexive
  guarded := by
    rintro _ ⟨name, expected, given, rfl⟩
    exact ⟨name, expected, given, rfl⟩

end Simulation

namespace Interpreter

variable {i j : Interpreter}

/-- Sessions that stand for one another answer the same, up to the first call that is refused. -/
theorem answerAll_of_machines (hlimit : i.limit = j.limit)
    (hm : Simulation.lenient.Machines i.machine j.machine) (sources : List Text) (k : Nat)
    {reply reply' : Reply} (hreply : (i.answerAll sources).1[k]? = some reply)
    (hreply' : (j.answerAll sources).1[k]? = some reply')
    (hearlier : ∀ earlier ∈ (i.answerAll sources).1.take k, ¬ earlier.Mismatches) :
    (¬ reply.Mismatches → reply.Same reply') ∧
      (reply.Mismatches → ∃ more, reply'.printed = reply.printed ++ more) := by
  -- the comparison ends with the answers that refuse a call, and with no others
  have hescaped {reply : Reply} (h : Simulation.lenient.Escaped reply) : reply.Mismatches := by
    obtain ⟨fault, hfault, name, expected, given, rfl⟩ := h
    exact ⟨name, expected, given, hfault⟩
  rcases Simulation.lenient_lawful.answerAll_same_or_escapes Simulation.lenient_literal rfl
    (.inl hlimit) (Simulation.lenient_reflexive.reads hlimit) hm sources k hreply hreply'
    (fun earlier he h => hearlier earlier he (hescaped h)) with hsame | ⟨hends, hmore⟩
  · refine ⟨fun _ => hsame, fun _ => ⟨"", ?_⟩⟩
    rw [Text.append_empty]
    exact hsame.1.symm
  · exact ⟨fun h => absurd (hescaped hends) h, fun _ => hmore⟩

/-- The answers of a new session, under an arity policy and a limit, to source texts one after the other. -/
def replies (strict : Bool) (output : Stream) (limit : Nat) (sources : List Text) : List Reply :=
  ({ fresh strict output with limit }.answerAll sources).1

/-- **Strict arity only refuses calls.** Of a strict session and a lenient one that are given the same source
    texts, on the same stream and under any limit, the answers are the same up to the first call that a strict
    closure refuses: the same printed lines, with the same text or a fault of the same kind and message. What
    the strict session prints before it refuses that call is the start of what the lenient one prints. -/
theorem replies_strict_lenient (output : Stream) (limit : Nat) (sources : List Text) :
    (replies true output limit sources).length = sources.length ∧
    (replies false output limit sources).length = sources.length ∧
    ∀ k reply reply', (replies true output limit sources)[k]? = some reply →
      (replies false output limit sources)[k]? = some reply' →
      (∀ earlier ∈ (replies true output limit sources).take k, ¬ earlier.Mismatches) →
      (¬ reply.Mismatches → reply.Same reply') ∧
        (reply.Mismatches → ∃ more, reply'.printed = reply.printed ++ more) := by
  refine ⟨length_answerAll _ _, length_answerAll _ _, ?_⟩
  intro k reply reply' hreply hreply' hearlier
  have hfresh : Simulation.lenient.Machines (.fresh true output) (.fresh false output) :=
    .fresh Simulation.lenient_lawful (fun _ => rfl) (fun _ => rfl) (fun _ _ => rfl)
      (Simulation.lenient_literal.streams output)
  exact answerAll_of_machines (i := { fresh true output with limit }) (j := { fresh false output with limit })
    rfl hfresh sources k hreply hreply' hearlier

/-- A function is made, and then called with an argument too many: the strict session refuses the call
    before the body prints. -/
theorem replies_strict_lenient_defun :
    let sources : List Text := ["(defun f (x) (print x))", "(f t nil)"]
    let strict := replies true .texts nestingLimit sources
    let lenient := replies false .texts nestingLimit sources
    ∃ reply reply' : Reply, strict[1]? = some reply ∧ lenient[1]? = some reply' ∧
      (∀ earlier ∈ strict.take 1, ¬ earlier.Mismatches) ∧ reply.Mismatches ∧
      ∃ more, reply'.printed = reply.printed ++ more ∧ more = "t\n" := by
  intro sources strict lenient
  have hfirst : (strict.take 1).map (·.outcome) = [.ok "f"] := by decide +kernel
  have hstrict : strict[1]?.map (fun reply : Reply => (reply.outcome, reply.printed)) =
      some (.error (.argument (.arity (some "f") 1 2)), ("" : Text)) := by decide +kernel
  have hlenient : lenient[1]?.map (·.printed) = some ("t\n" : Text) := by decide +kernel
  obtain ⟨reply, hreply, hrefused⟩ := Option.map_eq_some_iff.1 hstrict
  obtain ⟨reply', hreply', hprinted'⟩ := Option.map_eq_some_iff.1 hlenient
  obtain ⟨houtcome, hprinted⟩ := Prod.mk.inj hrefused
  have hmismatch : reply.Mismatches := ⟨some "f", 1, 2, houtcome⟩
  have hearlier : ∀ earlier ∈ strict.take 1, ¬ earlier.Mismatches := by
    rintro earlier hmem ⟨name, expected, given, herror⟩
    have hok := List.mem_map_of_mem (f := (·.outcome)) hmem
    rw [hfirst, herror] at hok
    simp at hok
  obtain ⟨_, _, hreplies⟩ := replies_strict_lenient .texts nestingLimit sources
  obtain ⟨more, hmore⟩ := (hreplies 1 reply reply' hreply hreply' hearlier).2 hmismatch
  refine ⟨reply, reply', hreply, hreply', hearlier, hmismatch, more, hmore, ?_⟩
  rw [hprinted', hprinted, Text.empty_append] at hmore
  exact hmore.symm

end Interpreter

end SmallLisp
