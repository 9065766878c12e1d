import SmallLisp.Interpreter
import SmallLisp.Proofs.Evaluation.Exact

/-!
# `Proofs.Session.Parallel` — two sessions side by side

A simulation that relates two sessions relates what they answer to source texts that are read alike
(`Lawful.agree_evalToText`), and a new session under one arity policy to a new one under another
(`Machines.fresh`). Where names and texts stand for themselves alone, the answers are the same to a program
that reads them (`Reply.Same`): the same lines, and the same text or a fault of the same kind and message.
Where closures may have other names, their faults can be told apart (`Reply.Alike`, `Legible.same_or_arity`).
-/

namespace SmallLisp

/-- **The same answer**: the same printed lines, with the same text or with faults of one kind that are
    put into the same words. -/
def Interpreter.Reply.Same (reply reply' : Interpreter.Reply) : Prop :=
  reply.printed = reply'.printed ∧
    match reply.outcome, reply'.outcome with
    | .ok text, .ok text' => text = text'
    | .error fault, .error fault' => fault.kind = fault'.kind ∧ fault.message = fault'.message
    | _, _ => False

namespace Interpreter.Reply

/-- **Answers that are the same but for their faults**: the same printed lines, with the same text or with
    faults that are related. -/
def Alike (faults : Fault → Fault → Prop) (reply reply' : Reply) : Prop :=
  reply.printed = reply'.printed ∧
    match reply.outcome, reply'.outcome with
    | .ok text, .ok text' => text = text'
    | .error fault, .error fault' => faults fault fault'
    | _, _ => False

variable {p q : Fault → Fault → Prop} {reply reply' : Reply}

theorem Alike.imp (h : reply.Alike p reply') (hpq : ∀ fault fault', p fault fault' → q fault fault') :
    reply.Alike q reply' := by
  obtain ⟨printed, outcome⟩ := reply
  obtain ⟨printed', outcome'⟩ := reply'
  obtain ⟨hprinted, houtcome⟩ := h
  refine ⟨hprinted, ?_⟩
  cases outcome with
  | ok text =>
    cases outcome' with
    | ok text' => exact houtcome
    | error fault' => exact houtcome
  | error fault =>
    cases outcome' with
    | ok text' => exact houtcome
    | error fault' => exact hpq fault fault' houtcome

theorem Alike.refl (hp : ∀ fault, p fault fault) (reply : Reply) : reply.Alike p reply := by
  obtain ⟨printed, outcome⟩ := reply
  refine ⟨rfl, ?_⟩
  cases outcome with
  | ok text => exact rfl
  | error fault => exact hp fault

/-- Answers that are alike with equal faults are equal. -/
theorem Alike.eq (h : reply.Alike Eq reply') : reply = reply' := by
  obtain ⟨printed, outcome⟩ := reply
  obtain ⟨printed', outcome'⟩ := reply'
  obtain ⟨rfl, houtcome⟩ := h
  cases outcome with
  | ok text =>
    cases outcome' with
    | ok text' => exact congrArg (Reply.mk printed) (congrArg Except.ok houtcome)
    | error fault' => exact houtcome.elim
  | error fault =>
    cases outcome' with
    | ok text' => exact houtcome.elim
    | error fault' => exact congrArg (Reply.mk printed) (congrArg Except.error houtcome)

theorem same_iff : reply.Same reply' ↔
    reply.Alike (fun fault fault' => fault.kind = fault'.kind ∧ fault.message = fault'.message) reply' :=
  Iff.rfl

end Interpreter.Reply

/-- Every source text is answered. -/
theorem Interpreter.length_answerAll (i : Interpreter) (sources : List Text) :
    (i.answerAll sources).1.length = sources.length := by
  induction sources generalizing i with
  | nil => rfl
  | cons source rest ih => exact congrArg (· + 1) (ih _)

/-- A session keeps its limit. -/
theorem Interpreter.limit_answerAll (i : Interpreter) (sources : List Text) :
    (i.answerAll sources).2.limit = i.limit := by
  induction sources generalizing i with
  | nil => rfl
  | cons source rest ih => exact ih (i.answer source).2

/-- Source texts are answered by the session that the ones before them lead to. -/
theorem Interpreter.answerAll_append (i : Interpreter) (sources more : List Text) :
    (i.answerAll (sources ++ more)).1 =
      (i.answerAll sources).1 ++ ((i.answerAll sources).2.answerAll more).1 := by
  induction sources generalizing i with
  | nil => rfl
  | cons source rest ih => exact congrArg ((i.answer source).1 :: ·) (ih (i.answer source).2)

/-- Two sessions that are given the same source texts but for one compare as they do after that one: before
    it they are the same. -/
theorem Interpreter.answerAll_replaced (i : Interpreter) {before after : List Text}
    {source source' : Text} {related : Reply → Reply → Prop} (hrefl : ∀ reply, related reply reply)
    (hafter : ∀ (l : Nat) (reply reply' : Reply),
      (((i.answerAll before).2.answer source).2.answerAll after).1[l]? = some reply →
      (((i.answerAll before).2.answer source').2.answerAll after).1[l]? = some reply' →
      related reply reply')
    {k : Nat} (hk : k ≠ before.length) {reply reply' : Reply}
    (hreply : (i.answerAll (before ++ source :: after)).1[k]? = some reply)
    (hreply' : (i.answerAll (before ++ source' :: after)).1[k]? = some reply') :
    related reply reply' := by
  have hbefore : (i.answerAll before).1.length = before.length := i.length_answerAll before
  rw [answerAll_append] at hreply hreply'
  rcases Nat.lt_or_gt_of_ne hk with hlt | hgt
  · rw [← hbefore] at hlt
    rw [List.getElem?_append_left hlt] at hreply hreply'
    rw [hreply] at hreply'
    cases hreply'
    exact hrefl reply
  · obtain ⟨l, rfl⟩ := Nat.exists_eq_add_of_lt hgt
    have hindex : before.length + l + 1 - (i.answerAll before).1.length = l + 1 := by omega
    rw [List.getElem?_append_right (by omega), hindex] at hreply hreply'
    exact hafter l reply reply' hreply hreply'

/-- Reads the first expression of a source text and evaluates it in a frame, under the stack guard. -/
def Interpreter.evalIn (limit : Nat) (f : FrameId) (source : Text) : Action Value := Action.guarded do
  let expression ← Action.ofExcept ((Source.read limit source).mapError Source.ReadFault.fault)
  eval limit f expression

namespace Simulation

variable {S : Simulation} {i j : Interpreter} {source source' : Text}

/-! ## New sessions -/

theorem Lawful.bound_of_forall₂ (h : S.Lawful) {bindings bindings' : Bindings}
    (hb : List.Forall₂ (fun b b' => S.name b.1 b'.1 ∧ S.Values b.2 b'.2) bindings bindings') :
    S.Bound bindings bindings' := by
  intro s t hst
  induction hb with
  | nil => exact .none
  | @cons b b' rest rest' hbb _ ih =>
    rw [List.lookup_cons, List.lookup_cons, h.name_beq hst hbb.1]
    cases t == b'.1 with
    | true => exact .some hbb.2
    | false => exact ih

/-- A machine without frames stands for any in which no frame is one that stands for another, if their streams
    agree. -/
theorem machines_empty {output : Stream} {n : Machine} (hlater : ∀ k, S.frame k = n.frames.size + k)
    (hapart : ∀ g, (∀ f, S.frame f ≠ g) → n.frames[g]? = S.apart g)
    (hprinted : n.printed = #[])
    (hstreams : S.Streams output n.output) : S.Machines (.empty output) n := by
  have hsize (g : FrameId) : n.frames.size ≤ S.frame g := by
    rw [hlater]
    exact Nat.le_add_right _ _
  refine ⟨?_, ?_, ?_, hapart, ?_, hstreams⟩
  · intro k
    show S.frame (0 + k) = _
    rw [Nat.zero_add, hlater]
  · intro g
    rw [Array.getElem?_eq_none (hsize g)]
    rfl
  · intro g
    rw [Machine.bindings_of_size_le (Nat.zero_le g), Machine.bindings_of_size_le (hsize g)]
    exact fun _ _ _ => .none
  · rw [hprinted]
    exact .nil

/-- Two new sessions bind the same names, to values that differ at most in the policy. -/
theorem values_initial {strict strict' : Bool} (hp : S.policy strict strict') :
    List.Forall₂ (fun b b' => b.1 = b'.1 ∧ S.Values b.2 b'.2) (Value.initial strict)
      (Value.initial strict') := by
  have hforms : List.Forall₂ S.Forms (SpecialForm.all strict) (SpecialForm.all strict') :=
    .cons .conjunction <| .cons .disjunction <| .cons .defvar <| .cons .setq <|
      .cons (.defun hp) <| .cons (.lambda hp) <| .cons .choice <| .cons .cond .nil
  unfold Value.initial
  refine List.rel_append (List.rel_append ?_ ?_) ?_
  · rw [List.forall₂_map_left_iff, List.forall₂_map_right_iff]
    exact List.forall₂_same.2 fun p _ => ⟨rfl, .primitive p⟩
  · exact .cons ⟨rfl, .truth false⟩ <| .cons ⟨rfl, .truth true⟩ .nil
  · rw [List.forall₂_map_left_iff, List.forall₂_map_right_iff]
    exact hforms.imp fun _ _ h => ⟨h.name_eq, .special h⟩

/-- A new session stands for one in another store if their policies do, and every initial name for
    itself. -/
theorem Machines.initial (h : S.Lawful) {output : Stream} {n : Machine} (hn : S.Machines (.empty output) n)
    {strict strict' : Bool} (hp : S.policy strict strict')
    (hname : ∀ b ∈ Value.initial strict, S.name b.1 b.1) :
    S.Machines (.fresh strict output) (n.allocate (Value.initial strict') none).2 := by
  refine hn.allocate h (h.bound_of_forall₂ ?_) none
  have hinitial := (List.forall₂_and_left _ _).2 ⟨hname, values_initial hp⟩
  exact hinitial.imp fun _ _ ⟨hb, hname, hv⟩ => ⟨hname ▸ hb, hv⟩

/-- New sessions stand for one another, where every frame stands for itself. -/
theorem Machines.fresh (h : S.Lawful) (hframe : ∀ f, S.frame f = f) {strict strict' : Bool}
    (hp : S.policy strict strict') (hname : ∀ b ∈ Value.initial strict, S.name b.1 b.1) {output : Stream}
    (hstreams : S.Streams output output) : S.Machines (.fresh strict output) (.fresh strict' output) := by
  refine .initial h (machines_empty ?_ ?_ rfl hstreams) hp hname
  · intro k
    show S.frame k = 0 + k
    rw [hframe, Nat.zero_add]
  · intro g hg
    exact absurd (hframe g) (hg g)

/-- To take what was printed leaves machines that stand for one another. -/
theorem Machines.takePrinted {m n : Machine} (h : S.Machines m n) :
    S.Machines { m with printed := #[] } { n with printed := #[] } :=
  ⟨h.later, h.outer, h.bound, h.apart, .nil, h.streams⟩

/-! ## One source text -/

/-- The stack guard makes related faults of related ones. -/
theorem Faults.guarded {fault fault' : Fault} (h : S.Faults fault fault') :
    S.Faults fault.guarded fault'.guarded := by
  cases h with
  | host why =>
    cases why with
    | tooDeep => exact .exhausted
    | _ => exact .host _
  | _ => constructor <;> assumption

theorem Ends.guarded {α : Type} {good : α → α → Prop} {outcome outcome' : Except Fault α}
    (he : S.Ends good outcome outcome') (h : S.Lawful) :
    S.Ends good (outcome.mapError Fault.guarded) (outcome'.mapError Fault.guarded) := by
  cases he with
  | ok hab => exact .ok hab
  | error hf => exact .error hf.guarded
  | escape he => exact .escape (h.guarded he) _

theorem Parallel.guarded {α : Type} {good : α → α → Prop} {action action' : Action α}
    (hp : S.Parallel good action action') (h : S.Lawful) :
    S.Parallel good action.guarded action'.guarded := by
  constructor
  · intro m n hm
    have hagree := hp.agree hm
    rw [Action.on_guarded, Action.on_guarded]
    generalize action.on m = left, action'.on n = right at hagree ⊢
    cases hagree with
    | ok hab hm => exact .ok hab hm
    | error hf hm => exact .error hf.guarded hm
    | escape he hb => exact .escape (h.guarded he) hb _
  · intro fault he n
    exact hp.prints he n

/-- **Source texts that are read alike**, each under its limit: as expressions that stand for one another,
    or both not. -/
def Reads (S : Simulation) (d d' : Nat) (source source' : Text) : Prop :=
  S.Ends S.Values ((Source.read d source).mapError Source.ReadFault.fault)
    ((Source.read d' source').mapError Source.ReadFault.fault)

/-- Faults of the reader stand for themselves. -/
theorem reads_self {d : Nat} (h : ∀ e, Source.read d source = .ok e → S.Values e e) :
    S.Reads d d source source := by
  unfold Reads
  cases hread : Source.read d source with
  | ok e => exact .ok (h e hread)
  | error why =>
    cases why with
    | malformed why => exact .error (.unreadable why)
    | tooDeep => exact .error (.host .tooDeep)

/-- Where everything stands for itself, a source text is read as itself. -/
theorem Reflexive.reads (hr : S.Reflexive) {d d' : Nat} (hd : d = d') (source : Text) :
    S.Reads d d' source source := by
  subst hd
  exact reads_self fun e _ => hr.values e

/-- **Source texts that are read alike are evaluated side by side**, in frames that stand for one
    another. -/
theorem Lawful.parallel_evalIn (h : S.Lawful) {d d' : Nat} (hd : S.Depths d d')
    (hread : S.Reads d d' source source') (f : FrameId) :
    S.Parallel S.Values (Interpreter.evalIn d f source) (Interpreter.evalIn d' (S.frame f) source') :=
  (h.parallel_ofExcept_bind hread (·.values) fun _ _ he => h.parallel_eval hd f he).guarded h

/-- **Source texts that are read alike are answered alike**, with sessions that stand for one another
    after them. -/
theorem Lawful.agree_evalToText (h : S.Lawful) (hroot : S.frame Machine.globalFrame = Machine.globalFrame)
    (hm : S.Machines i.machine j.machine) (hd : S.Depths i.limit j.limit)
    (hread : S.Reads i.limit j.limit source source') :
    S.Agree S.text ((i.evalToText source).1, (i.evalToText source).2.machine)
      ((j.evalToText source').1, (j.evalToText source').2.machine) := by
  have hparallel : S.Parallel S.Values (Interpreter.evalAction i.limit source)
      (Interpreter.evalAction j.limit source') := by
    have hglobal := h.parallel_evalIn hd hread Machine.globalFrame
    rwa [hroot] at hglobal
  have hagree := hparallel.agree hm
  unfold Interpreter.evalToText Interpreter.evalSource Interpreter.run
  generalize (Interpreter.evalAction i.limit source).on i.machine = left,
    (Interpreter.evalAction j.limit source').on j.machine = right at hagree ⊢
  cases hagree with
  | ok hv hm => exact ((h.written hv hd).guarded h).agree hm
  | error hf hm => exact .error hf hm
  | escape he hb => exact .escape he hb _

/-- The answers to a source text are alike, or the first one has ended the comparison and the second one
    prints no less. -/
theorem Lawful.answer_or_escapes (h : S.Lawful) (hl : S.Legible)
    (hroot : S.frame Machine.globalFrame = Machine.globalFrame)
    (hm : S.Machines i.machine j.machine) (hd : S.Depths i.limit j.limit)
    (hread : S.Reads i.limit j.limit source source') :
    ((i.answer source).1.Alike S.Faults (j.answer source').1 ∧
      S.Machines (i.answer source).2.machine (j.answer source').2.machine) ∨
    ((∃ fault, (i.answer source).1.outcome = .error fault ∧ S.escapes fault) ∧
      ∃ more, (j.answer source').1.printed = (i.answer source).1.printed ++ more) := by
  have hagree := h.agree_evalToText hroot hm hd hread
  unfold Interpreter.answer
  generalize i.evalToText source = left, j.evalToText source' = right at hagree ⊢
  obtain ⟨outcome, limit, m⟩ := left
  obtain ⟨outcome', limit', n⟩ := right
  -- lines that stand for one another are the same lines
  have hlines {lines lines' : List Text} (ht : List.Forall₂ S.text lines lines') :
      lines = lines' := List.forall₂_eq_eq_eq ▸ ht.imp fun _ _ => hl.text
  cases hagree with
  | ok ht hm =>
    have hprinted : m.printed.toList = n.printed.toList := hlines hm.printed
    refine .inl ⟨⟨?_, hl.text ht⟩, hm.takePrinted⟩
    simp only [Interpreter.takePrinted, hprinted]
  | error hf hm =>
    have hprinted : m.printed.toList = n.printed.toList := hlines hm.printed
    refine .inl ⟨⟨?_, hf⟩, hm.takePrinted⟩
    simp only [Interpreter.takePrinted, hprinted]
  | escape he hb =>
    obtain ⟨lines, ⟨more, hmore⟩, ht⟩ := hb
    have hprinted : m.printed.toList = lines := hlines ht
    have hright : n.printed.toList = lines ++ more := hmore.symm
    refine .inr ⟨⟨_, rfl, he⟩, Text.join (more.map (· ++ "\n")), ?_⟩
    simp only [Interpreter.takePrinted, hright, hprinted, List.map_append, Text.join_append]

/-! ## Whole sessions -/

/-- The answer is a fault at which the comparison ends. -/
def Escaped (S : Simulation) (reply : Interpreter.Reply) : Prop :=
  ∃ fault, reply.outcome = .error fault ∧ S.escapes fault

/-- **The answers of sessions that stand for one another are alike**, source text by source text, up to
    the first answer that ends the comparison; the second session has printed no less by then. -/
theorem Lawful.answerAll_or_escapes (h : S.Lawful) (hl : S.Legible)
    (hroot : S.frame Machine.globalFrame = Machine.globalFrame) (hd : S.Depths i.limit j.limit)
    (hread : ∀ source, S.Reads i.limit j.limit source source)
    (hm : S.Machines i.machine j.machine) (sources : List Text) (k : Nat)
    {reply reply' : Interpreter.Reply} (hreply : (i.answerAll sources).1[k]? = some reply)
    (hreply' : (j.answerAll sources).1[k]? = some reply')
    (hearlier : ∀ earlier ∈ (i.answerAll sources).1.take k, ¬ S.Escaped earlier) :
    reply.Alike S.Faults reply' ∨ S.Escaped reply ∧ ∃ more, reply'.printed = reply.printed ++ more := by
  induction sources generalizing i j k with
  | nil => cases hreply
  | cons source rest ih =>
    have hanswer := h.answer_or_escapes hl hroot hm hd (hread source)
    cases k with
    | zero =>
      cases hreply
      cases hreply'
      rcases hanswer with ⟨hanswers, _⟩ | hescaped
      · exact .inl hanswers
      · exact .inr hescaped
    | succ k =>
      have hfirst : ¬ S.Escaped (i.answer source).1 := hearlier _ List.mem_cons_self
      rcases hanswer with ⟨_, hm⟩ | ⟨hescaped, _⟩
      · -- the sessions still stand for one another, under the same limits
        apply ih (i := (i.answer source).2) (j := (j.answer source).2) hd hread hm k hreply hreply'
        intro earlier he
        exact hearlier earlier (List.mem_cons_of_mem _ he)
      · exact absurd hescaped hfirst

/-- **Sessions that stand for one another answer the same**, if closure names stand for themselves alone
    too, up to the first answer that ends the comparison. -/
theorem Lawful.answerAll_same_or_escapes (h : S.Lawful) (hl : S.Literal)
    (hroot : S.frame Machine.globalFrame = Machine.globalFrame) (hd : S.Depths i.limit j.limit)
    (hread : ∀ source, S.Reads i.limit j.limit source source)
    (hm : S.Machines i.machine j.machine) (sources : List Text) (k : Nat)
    {reply reply' : Interpreter.Reply} (hreply : (i.answerAll sources).1[k]? = some reply)
    (hreply' : (j.answerAll sources).1[k]? = some reply')
    (hearlier : ∀ earlier ∈ (i.answerAll sources).1.take k, ¬ S.Escaped earlier) :
    reply.Same reply' ∨ S.Escaped reply ∧ ∃ more, reply'.printed = reply.printed ++ more := by
  rcases h.answerAll_or_escapes hl.toLegible hroot hd hread hm sources k hreply hreply' hearlier with
    hanswers | hescaped
  · exact .inl (Interpreter.Reply.same_iff.2 (hanswers.imp fun _ _ => hl.same_fault))
  · exact .inr hescaped

/-- **Sessions that are told apart in nothing answer the same**, as long as they can be compared: to source
    texts that are read alike the answers are equal, and the sessions after them stand for one another
    again. -/
theorem Exact.answerAll_eq (hl : S.Exact) (h : S.Lawful) (hnever : ∀ fault, ¬ S.escapes fault)
    (hroot : S.frame Machine.globalFrame = Machine.globalFrame) (hlimit : i.limit = j.limit)
    (hm : S.Machines i.machine j.machine) {sources : List Text}
    (hread : ∀ source ∈ sources, S.Reads i.limit j.limit source source) :
    (i.answerAll sources).1 = (j.answerAll sources).1 ∧
      S.Machines (i.answerAll sources).2.machine (j.answerAll sources).2.machine := by
  induction sources generalizing i j with
  | nil => exact ⟨rfl, hm⟩
  | cons source rest ih =>
    obtain ⟨hsource, hrest⟩ := List.forall_mem_cons.1 hread
    rcases h.answer_or_escapes hl.toLegible hroot hm (.inl hlimit) hsource with
      ⟨hanswer, hm⟩ | ⟨⟨fault, _, he⟩, _⟩
    · have hreply : (i.answer source).1 = (j.answer source).1 :=
        (hanswer.imp fun _ _ => hl.faults_eq).eq
      obtain ⟨hreplies, hm⟩ := ih (i := (i.answer source).2) (j := (j.answer source).2) hlimit hm hrest
      exact ⟨congrArg₂ List.cons hreply hreplies, hm⟩
    · exact absurd he (hnever fault)

end Simulation

end SmallLisp
