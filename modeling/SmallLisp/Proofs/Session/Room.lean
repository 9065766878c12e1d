import SmallLisp.Proofs.Session.Parallel
import SmallLisp.Proofs.Session.Reachable

/-!
# `Proofs.Session.Room` — the limit decides between an answer and exhaustion, and nothing else

Reading, evaluating and writing share one limit, and each of them may run out of it. A step that does not
comes to the same with every greater limit: a text is written or read in the same way (`Roomier`), and an
evaluation does the same to its machine. The evaluation is the simulation `roomier`, under which everything
stands for itself and only exhaustion ends the comparison, because a run that is exhausted has stopped where
the roomier one goes on.

So a program cannot find out its limit: until it is exhausted, every answer is the one that it would get with
more room, and what it has printed by then is the start of what is printed with more room
(`answers_roomier`).
-/

namespace SmallLisp

/-! ## Outcomes with more room -/

/-- **The second outcome is that of more room**: the first one has run out of room, or the second is the
    same. -/
def Roomier {ε α : Type} (out : ε) (outcome outcome' : Except ε α) : Prop :=
  outcome = .error out ∨ outcome' = outcome

namespace Roomier

variable {ε α β : Type} {out : ε}

theorem refl (outcome : Except ε α) : Roomier out outcome outcome := .inr rfl

theorem bind {outcome outcome' : Except ε α} {next next' : α → Except ε β}
    (h : Roomier out outcome outcome') (hn : ∀ a, Roomier out (next a) (next' a)) :
    Roomier out (outcome >>= next) (outcome' >>= next') := by
  rcases h with rfl | rfl
  · exact .inl rfl
  · cases outcome' with
    | ok a => exact hn a
    | error why => exact .inr rfl

theorem mapM {write write' : β → Except ε α} (h : ∀ x, Roomier out (write x) (write' x))
    (xs : List β) : Roomier out (xs.mapM write) (xs.mapM write') := by
  induction xs with
  | nil => exact refl _
  | cons x xs ih =>
    rw [List.mapM_cons, List.mapM_cons]
    apply (h x).bind
    intro y
    apply ih.bind
    intro ys
    exact refl _

end Roomier

namespace Value

theorem render_roomier {d d' : Nat} (h : d ≤ d') (v : Value) :
    Roomier .tooDeep (v.render d) (v.render d') := by
  -- on the limit: a closure is written as the two lists that it is made of
  induction d generalizing d' v with
  | zero => exact .inl rfl
  | succ d ih =>
    obtain ⟨d', rfl⟩ := Nat.exists_eq_add_one_of_ne_zero (Nat.ne_zero_of_lt h)
    have hinside (w : Value) : Roomier .tooDeep (w.render d) (w.render d') :=
      ih (Nat.le_of_succ_le_succ h) w
    cases v with
    | list items =>
      simp only [render]
      apply (Roomier.mapM hinside items).bind
      intro parts
      exact .refl _
    | closure formals body scope strict name =>
      simp only [render]
      apply (hinside _).bind
      intro formals
      apply (hinside _).bind
      intro body
      exact .refl _
    | embedded e => cases e <;> exact .refl _
    | _ => exact .refl _

theorem inspect_roomier {d d' : Nat} (h : d ≤ d') (v : Value) :
    Roomier .tooDeep (v.inspect d) (v.inspect d') := by
  induction d generalizing d' v with
  | zero => exact .inl rfl
  | succ d ih =>
    have hrender := render_roomier h v
    obtain ⟨d', rfl⟩ := Nat.exists_eq_add_one_of_ne_zero (Nat.ne_zero_of_lt h)
    cases v with
    | list items =>
      simp only [inspect]
      apply (Roomier.mapM (fun w => ih (Nat.le_of_succ_le_succ h) w) items).bind
      intro parts
      exact .refl _
    | truth | primitive | special | closure => exact hrender
    | embedded e =>
      cases e with
      | nothing => exact hrender
      | _ => exact .refl _
    | _ => exact .refl _

end Value

namespace Source

/-- Inside a list more room changes nothing, unless the reader runs out of it. -/
theorem readInside_roomier {room room' : Nat} (h : room ≤ room') (members : List Value)
    (outer : List (List Value)) (tokens : List Text) :
    (readInside room members outer tokens).1 = .error .tooDeep ∨
      readInside room' members outer tokens = readInside room members outer tokens := by
  -- on the tokens; the room shrinks with an opening parenthesis and grows with a closing one
  induction tokens generalizing room room' members outer with
  | nil => exact .inr rfl
  | cons token rest ih =>
    rw [readInside.eq_def room, readInside.eq_def room']
    by_cases hopen : token = "("
    · simp only [if_pos hopen]
      cases room with
      | zero => exact .inl rfl
      | succ room =>
        obtain ⟨room', rfl⟩ := Nat.exists_eq_add_one_of_ne_zero (Nat.ne_zero_of_lt h)
        exact ih (Nat.le_of_succ_le_succ h) _ _
    · by_cases hclose : token = ")"
      · simp only [if_neg hopen, if_pos hclose]
        cases outer with
        | nil => exact .inr rfl
        | cons around outer => exact ih (Nat.succ_le_succ h) _ _
      · simp only [if_neg hopen, if_neg hclose]
        exact ih h _ _

theorem read_roomier {limit limit' : Nat} (h : limit ≤ limit') (source : Text) :
    Roomier .tooDeep (read limit source) (read limit' source) := by
  unfold read
  cases tokenize source with
  | nil => exact .refl _
  | cons token rest =>
    rw [readFirst.eq_def limit, readFirst.eq_def limit']
    by_cases hopen : token = "("
    · simp only [if_pos hopen]
      cases limit with
      | zero => exact .inl rfl
      | succ room =>
        obtain ⟨room', rfl⟩ := Nat.exists_eq_add_one_of_ne_zero (Nat.ne_zero_of_lt h)
        rcases readInside_roomier (Nat.le_of_succ_le_succ h) [] [] rest with hout | hsame
        · exact .inl hout
        · exact .inr (congrArg Prod.fst hsame)
    · simp only [if_neg hopen]
      exact .refl _

end Source

/-! ## Evaluations with more room -/

namespace Simulation

/-- **A run with more room stands for a run with less.** Everything stands for itself, and the comparison
    ends where the first run is exhausted. -/
def roomier : Simulation where
  name := Eq
  policy := Eq
  label := Eq
  text := Eq
  frame := id
  apart _ := none
  escapes fault := fault.guarded = .exhausted

theorem roomier_exact : roomier.Exact := ⟨⟨⟨id, id⟩, id⟩, id⟩

theorem roomier_reflexive : roomier.Reflexive :=
  ⟨fun _ => rfl, fun _ => rfl, fun _ => rfl, Iff.rfl, fun _ => rfl⟩

theorem roomier_depths {d d' : Nat} : roomier.Depths d d' ↔ d ≤ d' := by
  constructor
  · rintro (rfl | ⟨_, hle⟩)
    · exact Nat.le_refl d
    · exact hle
  · intro hle
    exact .inr ⟨rfl, hle⟩

/-- A text that is written with less room is the same with more. -/
theorem roomier_ends {outcome outcome' : Except HostFault Text}
    (h : Roomier .tooDeep outcome outcome') :
    roomier.Ends Eq (outcome.mapError .host) (outcome'.mapError .host) := by
  rcases h with rfl | rfl
  · exact .escape rfl _
  · exact ends_mapError (S := roomier) (fun _ => rfl) _

theorem roomier_lawful : roomier.Lawful where
  name_iff := by
    rintro s s' t t' rfl rfl
    rfl
  frame := strictMono_id
  policy := .inl
  unnamed := rfl
  named := congrArg some
  written {v w d d'} hv hd := by
    obtain rfl := roomier_exact.values_eq (fun _ => rfl) v w hv
    exact roomier_ends (v.render_roomier (roomier_depths.1 hd))
  inspected {v w d d'} hv hd := by
    obtain rfl := roomier_exact.values_eq (fun _ => rfl) v w hv
    exact roomier_ends (v.inspect_roomier (roomier_depths.1 hd))
  joined := text_joined fun _ _ => Iff.rfl
  reflexive _ := roomier_reflexive
  guarded := (Fault.guarded_guarded _).trans

theorem roomier_reads {limit limit' : Nat} (h : limit ≤ limit') (source : Text) :
    roomier.Reads limit limit' source source := by
  rcases Source.read_roomier h source with hout | hsame
  · rw [Reads, hout]
    exact .escape rfl _
  · rw [Reads, hsame]
    exact roomier_reflexive.reads rfl source

/-- Every machine stands for itself. -/
theorem roomier_machines (m : Machine) : roomier.Machines m m :=
  .refl roomier_lawful roomier_reflexive m

/-- A run with more room comes to the same, unless the first one is exhausted. -/
theorem roomier_cases {α : Type} {good : α → α → Prop} (hgood : ∀ a b, good a b → a = b)
    {run run' : Except Fault α × Machine} (h : roomier.Agree good run run') :
    run'.1 = run.1 ∧ run.2.Same run'.2 ∨ ∃ fault, run.1 = .error fault ∧ fault.guarded = .exhausted :=
  roomier_exact.agree_cases roomier_reflexive hgood h

end Simulation

/-! ## Sessions with more room -/

namespace Interpreter

variable {i : Interpreter} {limit : Nat}

/-- A source text that is answered without exhaustion has the same outcome with more room, and leaves the
    same state. -/
theorem evalToText_roomier (hlimit : i.limit ≤ limit) {source : Text}
    (h : (i.evalToText source).1 ≠ .error .exhausted) :
    ({ i with limit }.evalToText source).1 = (i.evalToText source).1 ∧
      (i.evalToText source).2.machine.Same ({ i with limit }.evalToText source).2.machine := by
  have hagree := Simulation.roomier_lawful.agree_evalToText (i := i) (j := { i with limit }) rfl
    (Simulation.roomier_machines i.machine) (Simulation.roomier_depths.2 hlimit)
    (Simulation.roomier_reads hlimit source)
  rcases Simulation.roomier_cases (fun _ _ => id) hagree with hsame | ⟨fault, hfault, hexhausted⟩
  · exact hsame
  · rw [guarded_of_evalToText_error hfault] at hexhausted
    exact absurd (hexhausted ▸ hfault) h

/-- The faults that a session answers with have passed the stack guard. -/
theorem guarded_of_mem_answerAll {sources : List Text} {reply : Reply} {fault : Fault}
    (h : reply ∈ (i.answerAll sources).1) (hfault : reply.outcome = .error fault) :
    fault.guarded = fault := by
  induction sources generalizing i with
  | nil => exact absurd h List.not_mem_nil
  | cons source rest ih =>
    rcases List.mem_cons.1 h with rfl | hlater
    · exact guarded_of_evalToText_error hfault
    · exact ih hlater

/-- **The limit decides between an answer and exhaustion, and nothing else.** A source text that some limit
    is enough for has the same outcome with every greater one, and leaves the same frames with the same
    contents and the same printed lines; this in any state of a session. And the answers to source texts
    one after the other are the same with more room, up to the first that is exhausted; what is printed
    up to that point is the start of what is printed with more room. -/
theorem answers_roomier (i : Interpreter) {limit : Nat} (hlimit : i.limit ≤ limit) :
    (∀ source, (i.evalToText source).1 ≠ .error .exhausted →
      ({ i with limit }.evalToText source).1 = (i.evalToText source).1 ∧
      (i.evalToText source).2.machine.Same ({ i with limit }.evalToText source).2.machine) ∧
    ∀ sources k reply, (i.answerAll sources).1[k]? = some reply →
      (∀ earlier ∈ (i.answerAll sources).1.take k, earlier.outcome ≠ .error .exhausted) →
      ∃ reply', ({ i with limit }.answerAll sources).1[k]? = some reply' ∧
        (reply.outcome ≠ .error .exhausted → reply.Same reply') ∧
        ∃ more, reply'.printed = reply.printed ++ more := by
  refine ⟨fun source => evalToText_roomier hlimit, ?_⟩
  intro sources k reply hreply hearlier
  have hescaped : ∀ reply ∈ (i.answerAll sources).1,
      Simulation.roomier.Escaped reply → reply.outcome = .error .exhausted := by
    rintro reply hmem ⟨fault, hfault, he⟩
    rw [hfault, ← guarded_of_mem_answerAll hmem hfault]
    exact congrArg Except.error he
  -- both sessions give as many answers as there are source texts
  have hk : k < sources.length := by
    rw [← length_answerAll i]
    exact (List.getElem?_eq_some_iff.1 hreply).1
  obtain ⟨reply', hreply'⟩ : ∃ reply', ({ i with limit }.answerAll sources).1[k]? = some reply' := by
    rw [← length_answerAll { i with limit }] at hk
    exact ⟨_, List.getElem?_eq_getElem hk⟩
  refine ⟨reply', hreply', ?_⟩
  have hgoing : ∀ earlier ∈ (i.answerAll sources).1.take k, ¬ Simulation.roomier.Escaped earlier :=
    fun earlier he h => hearlier earlier he (hescaped earlier (List.mem_of_mem_take he) h)
  rcases Simulation.roomier_lawful.answerAll_same_or_escapes (j := { i with limit })
    Simulation.roomier_exact.toLiteral rfl (Simulation.roomier_depths.2 hlimit)
    (Simulation.roomier_reads hlimit) (Simulation.roomier_machines i.machine) sources k hreply hreply'
    hgoing with hsame | ⟨hends, hmore⟩
  · refine ⟨fun _ => hsame, "", ?_⟩
    rw [Text.append_empty]
    exact hsame.1.symm
  · exact ⟨fun h => absurd (hescaped reply (List.mem_of_getElem? hreply) hends) h, hmore⟩

/-- With room for three the first text is answered; the second one prints a line and then is exhausted,
    where more room lets it go on. -/
theorem answers_roomier_exhausted :
    let i : Interpreter := { fresh true .texts with limit := 3 }
    let sources : List Text := ["(defvar x (list t))", "(list (print t) (list (list t)))"]
    i.limit ≤ nestingLimit ∧
    (i.evalToText "(defvar x (list t))").1 = .ok "(t)" ∧
    ({ i with limit := nestingLimit }.evalToText "(defvar x (list t))").1 = .ok "(t)" ∧
    ∃ reply reply' : Reply, (i.answerAll sources).1[1]? = some reply ∧
      reply.outcome = .error .exhausted ∧ reply.printed = "t\n" ∧
      (∀ earlier ∈ (i.answerAll sources).1.take 1, earlier.outcome ≠ .error .exhausted) ∧
      ({ i with limit := nestingLimit }.answerAll sources).1[1]? = some reply' ∧
      ∃ more, reply'.printed = reply.printed ++ more := by
  intro i sources
  have hlimit : i.limit ≤ nestingLimit := by decide
  obtain ⟨hone, hall⟩ := answers_roomier i hlimit
  have hfirst : (i.evalToText "(defvar x (list t))").1 = .ok "(t)" := by decide +kernel
  have hearlier : ((i.answerAll sources).1.take 1).map (·.outcome) = [.ok "(t)"] := by decide +kernel
  have hsecond : (i.answerAll sources).1[1]?.map (fun reply => (reply.outcome, reply.printed)) =
      some (.error .exhausted, ("t\n" : Text)) := by decide +kernel
  obtain ⟨reply, hreply, hends⟩ := Option.map_eq_some_iff.1 hsecond
  obtain ⟨houtcome, hprinted⟩ := Prod.mk.inj hends
  have hanswered : ∀ earlier ∈ (i.answerAll sources).1.take 1,
      earlier.outcome ≠ .error .exhausted := by
    intro earlier hmem herror
    have hok := List.mem_map_of_mem (f := (·.outcome)) hmem
    rw [hearlier, herror] at hok
    simp at hok
  obtain ⟨reply', hreply', _, hmore⟩ := hall sources 1 reply hreply hanswered
  refine ⟨hlimit, hfirst, ?_, reply, reply', hreply, houtcome, hprinted, hanswered, hreply', hmore⟩
  rw [(hone "(defvar x (list t))" (by rw [hfirst]; nofun)).1, hfirst]

end Interpreter

end SmallLisp
