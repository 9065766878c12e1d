import SmallLisp.Proofs.Session.Seats
import SmallLisp.Workspace

/-!
# `Proofs.Session.Host` — sessions of one host do not interfere

A `Host` keeps the frames of all its sessions in one store, and evaluates for one session after the other, in
any order. As long as every session is seated in the store and no two have a frame at the same place
(`Hosted`), a call on one of them comes to what it comes to alone and the others keep their seats
(`Hosted.perform`). So a run of calls comes to what it comes to when every session has a store to itself
(`Hosted.performAll`), and there nothing counts for a session but its own calls (`ownOf_performEach`).
-/

namespace SmallLisp

/-! ## What belongs to one session -/

section

variable {κ α β : Type} [DecidableEq κ]

/-- What is under one key, in order. -/
def ownOf (key : κ) : List (κ × α) → List α
  | [] => []
  | (other, x) :: rest => if other = key then x :: ownOf key rest else ownOf key rest

@[simp] theorem ownOf_nil (key : κ) : ownOf key ([] : List (κ × α)) = [] := rfl

@[simp] theorem ownOf_cons_self (key : κ) (x : α) (rest : List (κ × α)) :
    ownOf key ((key, x) :: rest) = x :: ownOf key rest := if_pos rfl

theorem ownOf_cons_of_ne {key other : κ} (h : other ≠ key) (x : α) (rest : List (κ × α)) :
    ownOf key ((other, x) :: rest) = ownOf key rest := if_neg h

/-- What goes together under all keys does so under each. -/
theorem forall₂_ownOf {R : κ → α → β → Prop} {xs : List (κ × α)} {ys : List (κ × β)}
    (h : List.Forall₂ (fun x y => x.1 = y.1 ∧ R x.1 x.2 y.2) xs ys) (key : κ) :
    List.Forall₂ (R key) (ownOf key xs) (ownOf key ys) := by
  induction h with
  | nil => exact .nil
  | @cons x y _ _ hxy _ ih =>
    obtain ⟨key', x⟩ := x
    obtain ⟨_, y⟩ := y
    obtain ⟨rfl, hR⟩ := hxy
    by_cases hkey : key' = key
    · subst hkey
      rw [ownOf_cons_self, ownOf_cons_self]
      exact .cons hR ih
    · rw [ownOf_cons_of_ne hkey, ownOf_cons_of_ne hkey]
      exact ih

end

/-! ## Hosts -/

/-- **A host**: the frames of all its sessions in one store, and a seat for each session. -/
structure Host where
  frames : Array Frame
  seats : List Seat

namespace Host

/-- A host without sessions. -/
def empty : Host := ⟨#[], []⟩

/-- Starts a session under an arity policy, with a global frame of its own and a stream to print on. -/
def start (host : Host) (strict : Bool) (output : Stream) : Host :=
  let (root, machine) := (Machine.mk host.frames #[] output).allocate (Value.initial strict) none
  ⟨machine.frames, host.seats ++ [⟨root, #[], output⟩]⟩

/-- Starts sessions one after the other, each under its own policy and with its own stream. -/
def startAll (openings : List (Bool × Stream)) : Host :=
  openings.foldl (fun host opening => host.start opening.1 opening.2) empty

/-- A call on session `k`, which has the seat. -/
def perform (host : Host) (k : Nat) (seat : Seat) (call : Call) : Outcome × Host :=
  let (outcome, machine) := (call.action seat.root).on ⟨host.frames, seat.printed, seat.output⟩
  (outcome, ⟨machine.frames, host.seats.set k { seat with printed := machine.printed }⟩)

/-- Calls on the sessions, in any order. A call on none of them is passed over. -/
def performAll (host : Host) : List (Nat × Call) → List (Nat × Outcome) × Host
  | [] => ([], host)
  | (k, call) :: rest =>
    match host.seats[k]? with
    | none => host.performAll rest
    | some seat =>
      let (outcome, host) := host.perform k seat call
      let (outcomes, host) := host.performAll rest
      ((k, outcome) :: outcomes, host)

end Host

/-! ## Sessions that each have a store -/

namespace Interpreter

/-- Calls on interpreters that each have a store of their own. A call on none of them is passed over. -/
def performEach (is : List Interpreter) : List (Nat × Call) → List (Nat × Outcome) × List Interpreter
  | [] => ([], is)
  | (k, call) :: rest =>
    match is[k]? with
    | none => performEach is rest
    | some i =>
      let (outcome, i) := i.perform call
      let (outcomes, is) := performEach (is.set k i) rest
      ((k, outcome) :: outcomes, is)

/-- **Where each session has a store to itself, nothing counts for it but its own calls.** -/
theorem ownOf_performEach {is : List Interpreter} {k : Nat} {i : Interpreter} (hi : is[k]? = some i)
    (calls : List (Nat × Call)) :
    let alone := i.performAll (ownOf k calls)
    ownOf k (performEach is calls).1 = alone.1 ∧ (performEach is calls).2[k]? = some alone.2 := by
  induction calls generalizing is i with
  | nil => exact ⟨rfl, hi⟩
  | cons first rest ih =>
    obtain ⟨j, call⟩ := first
    by_cases hj : j = k
    · subst hj
      have hset : (is.set j (i.perform call).2)[j]? = some (i.perform call).2 :=
        List.getElem?_set_self (List.getElem?_eq_some_iff.1 hi).1
      obtain ⟨houtcomes, hlast⟩ := ih hset
      simp only [performEach, hi, ownOf_cons_self, performAll]
      exact ⟨congrArg _ houtcomes, hlast⟩
    · rw [ownOf_cons_of_ne hj]
      unfold performEach
      cases hother : is[j]? with
      | none => exact ih hi
      | some other =>
        obtain ⟨houtcomes, hlast⟩ := ih ((List.getElem?_set_ne hj).trans hi)
        exact ⟨(ownOf_cons_of_ne hj _ _).trans houtcomes, hlast⟩

end Interpreter

/-! ## All sessions of a host -/

/-- Session `k` is placed anew, and the frames that the others have not made yet come after the store. -/
def resettle (place : Nat → FrameId → FrameId) (is : List Interpreter) (k : Nat)
    (new : FrameId → FrameId) (size : Nat) (j : Nat) : FrameId → FrameId :=
  if j = k then new else rebase (place j) ((is[j]?.map (·.machine.frames.size)).getD 0) size

section

variable {place : Nat → FrameId → FrameId} {is : List Interpreter} {j k : Nat} {new : FrameId → FrameId}
  {size : Nat}

theorem resettle_self : resettle place is k new size k = new := if_pos rfl

theorem resettle_of_ne (hj : j ≠ k) {i : Interpreter} (hi : is[j]? = some i) :
    resettle place is k new size j = rebase (place j) i.machine.frames.size size := by
  rw [resettle, if_neg hj, hi]
  rfl

end

/-- **Sessions of one host**: each is seated in the store, and no two of them have a frame at the same
    place. -/
structure Hosted (host : Host) (is : List Interpreter) (place : Nat → FrameId → FrameId) : Prop where
  length : host.seats.length = is.length
  reachable : ∀ i ∈ is, ∃ strict output, i.Reachable strict output
  seated : ∀ k seat i, host.seats[k]? = some seat → is[k]? = some i →
    Seated host.frames seat i (place k)
  apart : ∀ j k i i', j ≠ k → is[j]? = some i → is[k]? = some i' →
    ∀ f < i.machine.frames.size, ∀ g < i'.machine.frames.size, place j f ≠ place k g

/-- A member at the end is at no other place. -/
theorem getElem?_concat_of_ne {α : Type} {xs : List α} {x : α} {j : Nat} (hj : j ≠ xs.length) :
    (xs ++ [x])[j]? = xs[j]? := by
  rcases Nat.lt_or_gt_of_ne hj with hlt | hgt
  · exact List.getElem?_append_left hlt
  · have hlen : (xs ++ [x]).length ≤ j := by
      rw [List.length_append]
      exact hgt
    rw [List.getElem?_eq_none hlen, List.getElem?_eq_none (Nat.le_of_lt hgt)]

namespace Hosted

variable {host : Host} {is : List Interpreter} {place : Nat → FrameId → FrameId} {k : Nat} {seat : Seat}
  {i : Interpreter}

/-- Every session has a seat. -/
theorem exists_seat (h : Hosted host is place) (hi : is[k]? = some i) :
    ∃ seat, host.seats[k]? = some seat ∧ Seated host.frames seat i (place k) := by
  obtain ⟨hlt, _⟩ := List.getElem?_eq_some_iff.1 hi
  have hseat := List.getElem?_eq_getElem (h.length ▸ hlt)
  exact ⟨_, hseat, h.seated k _ i hseat hi⟩

/-- The places that a session has, or is going to have, are none of another session. -/
theorem place_ne (h : Hosted host is place) {j : Nat} {i' : Interpreter} (hj : j ≠ k)
    (hi : is[k]? = some i) (hi' : is[j]? = some i') {g : FrameId} (hg : g < i'.machine.frames.size)
    (f : FrameId) : place k f ≠ place j g := by
  obtain ⟨_, _, hseated⟩ := h.exists_seat hi
  obtain ⟨_, _, hseated'⟩ := h.exists_seat hi'
  by_cases hf : f < i.machine.frames.size
  · exact h.apart k j i i' hj.symm hi hi' f hf g hg
  · -- a frame that is not made yet comes after all that are there
    have hlt := Nat.lt_of_lt_of_le (hseated'.place_lt hg) (hseated.size_le_place (Nat.le_of_not_lt hf))
    exact (Nat.ne_of_lt hlt).symm

/-- **One session moves, or comes in**, to places that no other has, and the others make room for it. -/
theorem settle (h : Hosted host is place) {after : Host} {is' : List Interpreter}
    (new : FrameId → FrameId) (hlength : after.seats.length = is'.length)
    (hreachable : ∀ i ∈ is', ∃ strict output, i.Reachable strict output)
    (hseats : ∀ j, j ≠ k → after.seats[j]? = host.seats[j]?) (his : ∀ j, j ≠ k → is'[j]? = is[j]?)
    (hgrows : host.frames.size ≤ after.frames.size)
    (hkept : ∀ j i', j ≠ k → is[j]? = some i' → ∀ g < i'.machine.frames.size,
      after.frames[place j g]? = host.frames[place j g]? ∧ ∀ f, new f ≠ place j g)
    (hnew : ∀ seat i, after.seats[k]? = some seat → is'[k]? = some i →
      Seated after.frames seat i new) :
    Hosted after is' (resettle place is k new after.frames.size) := by
  refine ⟨hlength, hreachable, ?_, ?_⟩
  · intro j seat i' hseat hi'
    by_cases hj : j = k
    · subst hj
      rw [resettle_self]
      exact hnew seat i' hseat hi'
    · rw [hseats j hj] at hseat
      rw [his j hj] at hi'
      obtain ⟨_, _, hreached⟩ := h.reachable i' (List.mem_of_getElem? hi')
      rw [resettle_of_ne hj hi']
      exact (h.seated j seat i' hseat hi').stay hreached hgrows
        fun g hg => (hkept j i' hj hi' g hg).1
  · intro j l i₁ i₂ hne hi₁ hi₂ f hf g hg
    by_cases hj : j = k
    · subst hj
      rw [his l hne.symm] at hi₂
      rw [resettle_self, resettle_of_ne hne.symm hi₂, rebase_of_lt hg]
      exact (hkept l i₂ hne.symm hi₂ g hg).2 f
    · rw [his j hj] at hi₁
      rw [resettle_of_ne hj hi₁, rebase_of_lt hf]
      by_cases hl : l = k
      · subst hl
        rw [resettle_self]
        exact ((hkept j i₁ hj hi₁ f hf).2 g).symm
      · rw [his l hl] at hi₂
        rw [resettle_of_ne hl hi₂, rebase_of_lt hg]
        exact h.apart j l i₁ i₂ hne hi₁ hi₂ f hf g hg

/-- **A call on one session.** It comes to what it comes to alone, and the other sessions keep their
    seats. -/
theorem perform (h : Hosted host is place) (hseat : host.seats[k]? = some seat) (hi : is[k]? = some i)
    (call : Call) :
    let after := (host.perform k seat call).2
    (Simulation.placement (place k) after.frames).Outcomes (i.perform call).1
        (host.perform k seat call).1 ∧
      Hosted after (is.set k (i.perform call).2) (resettle place is k (place k) after.frames.size) := by
  intro after
  obtain ⟨strict, output, hreachable⟩ := h.reachable i (List.mem_of_getElem? hi)
  obtain ⟨hnext, hsize, _⟩ := Interpreter.perform_reachable hreachable call
  have hseated := h.seated k seat i hseat hi
  obtain ⟨houtcomes, hafter, hothers⟩ := hseated.perform hreachable call
  refine ⟨houtcomes, h.settle (place k) ?_ ?_ ?_ ?_ ?_ ?_ ?_⟩
  · simp [after, Host.perform, h.length]
  · intro i' hmem
    rcases List.mem_or_eq_of_mem_set hmem with hold | rfl
    · exact h.reachable i' hold
    · exact ⟨strict, output, hnext⟩
  · intro j hj
    exact List.getElem?_set_ne hj.symm
  · intro j hj
    exact List.getElem?_set_ne hj.symm
  · -- what the session has made alone it has made in the store
    have hbefore : place k i.machine.frames.size = host.frames.size := hseated.machines.frame_size
    have hthen : place k (i.perform call).2.machine.frames.size = after.frames.size :=
      hafter.machines.frame_size
    rw [← hbefore, ← hthen]
    exact hseated.mono.monotone hsize
  · intro j i' hj hi' g hg
    have hne := h.place_ne hj hi hi' hg
    exact ⟨hothers (place j g) hne, hne⟩
  · intro seat' i' hseat' hi'
    rw [List.getElem?_set_self (List.getElem?_eq_some_iff.1 hi).1] at hi'
    rw [show after.seats[k]? = _ from
      List.getElem?_set_self (List.getElem?_eq_some_iff.1 hseat).1] at hseat'
    cases hi'
    cases hseat'
    exact hafter

/-- A session that is started is one more, and the others keep their seats. -/
theorem start (h : Hosted host is place) (strict : Bool) (output : Stream) :
    ∃ place', Hosted (host.start strict output) (is ++ [.fresh strict output]) place' := by
  have hlength : host.seats.length = is.length := h.length
  refine ⟨_, h.settle (k := is.length) (fun g => host.frames.size + g) ?_ ?_ ?_ ?_ ?_ ?_ ?_⟩
  · simp [Host.start, hlength]
  · intro i hmem
    rcases List.mem_append.1 hmem with hold | hnew
    · exact h.reachable i hold
    · exact ⟨strict, output, List.mem_singleton.1 hnew ▸ .fresh⟩
  · intro j hj
    exact getElem?_concat_of_ne (hlength ▸ hj)
  · intro j hj
    exact getElem?_concat_of_ne hj
  · simp [Host.start, Machine.allocate]
  · intro j i' hj hi' g hg
    obtain ⟨_, _, hseated⟩ := h.exists_seat hi'
    have hlt := hseated.place_lt hg
    constructor
    · exact Array.getElem?_push_lt hlt ▸ (Array.getElem?_eq_getElem hlt).symm
    · intro f
      exact (Nat.ne_of_lt (Nat.lt_of_lt_of_le hlt (Nat.le_add_right _ f))).symm
  · intro seat' i' hseat' hi'
    have hlast : (host.start strict output).seats[is.length]? = some ⟨host.frames.size, #[], output⟩ := by
      rw [← hlength]
      exact List.getElem?_concat_length
    rw [List.getElem?_concat_length] at hi'
    rw [hlast] at hseat'
    cases hi'
    cases hseat'
    exact Seated.start host.frames strict output

end Hosted

/-- Sessions that are started one after the other are hosted. -/
theorem exists_hosted_startAll (openings : List (Bool × Stream)) :
    ∃ place, Hosted (Host.startAll openings)
      (openings.map fun opening => .fresh opening.1 opening.2) place := by
  have hfold (host : Host) (is : List Interpreter) (place : Nat → FrameId → FrameId)
      (h : Hosted host is place) :
      ∃ place', Hosted (openings.foldl (fun host opening => host.start opening.1 opening.2) host)
        (is ++ openings.map fun opening => .fresh opening.1 opening.2) place' := by
    induction openings generalizing host is place with
    | nil => exact ⟨place, by simpa using h⟩
    | cons opening rest ih =>
      obtain ⟨place', hstart⟩ := h.start opening.1 opening.2
      obtain ⟨place'', hrest⟩ := ih _ _ place' hstart
      exact ⟨place'', by simpa using hrest⟩
  have hempty : Hosted Host.empty [] fun _ => id := ⟨rfl, nofun, nofun, nofun⟩
  exact hfold Host.empty [] _ hempty

/-! ## Calls one after the other -/

/-- **Calls on hosted sessions come to what they come to alone.** -/
theorem Hosted.performAll {host : Host} {is : List Interpreter} {place : Nat → FrameId → FrameId}
    (h : Hosted host is place) (calls : List (Nat × Call)) :
    let done := host.performAll calls
    let alone := Interpreter.performEach is calls
    ∃ place', (∀ k i, is[k]? = some i → ∀ g < i.machine.frames.size, place' k g = place k g) ∧
      Hosted done.2 alone.2 place' ∧
      List.Forall₂ (fun outcome outcome' => outcome.1 = outcome'.1 ∧
        (Simulation.placement (place' outcome.1) done.2.frames).Outcomes outcome.2 outcome'.2)
        alone.1 done.1 := by
  induction calls generalizing host is place with
  | nil => exact ⟨place, fun _ _ _ _ _ => rfl, h, .nil⟩
  | cons first rest ih =>
    obtain ⟨k, call⟩ := first
    cases hi : is[k]? with
    | none =>
      have hseat : host.seats[k]? = none := by
        rw [List.getElem?_eq_none_iff] at hi ⊢
        rwa [h.length]
      simp only [Host.performAll, Interpreter.performEach, hi, hseat]
      exact ih h
    | some i =>
      obtain ⟨seat, hseat, _⟩ := h.exists_seat hi
      obtain ⟨_, _, hreachable⟩ := h.reachable i (List.mem_of_getElem? hi)
      obtain ⟨_, hsize, hbelow⟩ := Interpreter.perform_reachable hreachable call
      obtain ⟨houtcomes, hhosted⟩ := h.perform hseat hi call
      obtain ⟨place', hplace, hdone, hall⟩ := ih hhosted
      have hself : ∀ g < (i.perform call).2.machine.frames.size, place' k g = place k g := by
        intro g hg
        have hset : (is.set k (i.perform call).2)[k]? = some (i.perform call).2 :=
          List.getElem?_set_self (List.getElem?_eq_some_iff.1 hi).1
        rw [hplace k _ hset g hg, resettle_self]
      simp only [Host.performAll, Interpreter.performEach, hi, hseat]
      refine ⟨place', ?_, hdone, .cons ⟨rfl, houtcomes.move hself hbelow⟩ hall⟩
      intro j i' hi' g hg
      by_cases hj : j = k
      · subst hj
        cases hi.symm.trans hi'
        exact hself g (Nat.lt_of_lt_of_le hg hsize)
      · have hset : (is.set k (i.perform call).2)[j]? = some i' :=
          (List.getElem?_set_ne (Ne.symm hj)).trans hi'
        rw [hplace j i' hset g hg, resettle_of_ne hj hi', rebase_of_lt hg]

/-! ## Named sessions -/

namespace Workspace

/-- Source texts for named sessions, one after the other. -/
def answerAll (w : Workspace) (strict : Bool) :
    List (Text × Text) → List (Text × Interpreter.Reply) × Workspace
  | [] => ([], w)
  | (name, source) :: rest =>
    let (reply, w) := w.answer strict name source
    let (replies, w) := w.answerAll strict rest
    ((name, reply) :: replies, w)

theorem get_answer (w : Workspace) (strict : Bool) (name other source : Text) :
    (w.answer strict name source).2.get strict other =
      if other = name then ((w.get strict name).answer source).2 else w.get strict other := by
  unfold answer get
  rw [Table.lookup_put]
  by_cases h : other = name <;> simp [h]

/-- **A named session replies to its own source texts**, whatever the others are sent. -/
theorem ownOf_answerAll (w : Workspace) (strict : Bool) (sent : List (Text × Text)) (name : Text) :
    let alone := (w.get strict name).answerAll (ownOf name sent)
    ownOf name (w.answerAll strict sent).1 = alone.1 ∧
      (w.answerAll strict sent).2.get strict name = alone.2 := by
  induction sent generalizing w with
  | nil => exact ⟨rfl, rfl⟩
  | cons first rest ih =>
    obtain ⟨other, source⟩ := first
    obtain ⟨hreplies, hlast⟩ := ih (w.answer strict other source).2
    rw [get_answer] at hreplies hlast
    by_cases hother : other = name
    · subst hother
      rw [if_pos rfl] at hreplies hlast
      simp only [answerAll, ownOf_cons_self, Interpreter.answerAll]
      exact ⟨congrArg _ hreplies, hlast⟩
    · rw [if_neg (Ne.symm hother)] at hreplies hlast
      rw [ownOf_cons_of_ne hother]
      exact ⟨(ownOf_cons_of_ne hother _ _).trans hreplies, hlast⟩

end Workspace

/-! ## Sessions do not interfere -/

namespace Host

/-- **Sessions of one host never interfere.** Any number of sessions are started, each under its own arity
    policy and with its own stream, and calls with any source texts are made on them in any order. Then each
    session has come to what its own calls, in their order, come to in a store to itself: every call to the
    same fault, the same text, or a value that is the same but for where its frames are and is written the
    same; what it has printed is the same; and its frames hold the same in the store as they do alone.
    Likewise, a session in a workspace replies as it does alone. -/
theorem performAll_alone (openings : List (Bool × Stream)) (calls : List (Nat × Call)) :
    let done := (startAll openings).performAll calls
    (∃ place : Nat → FrameId → FrameId, ∀ k strict output, openings[k]? = some (strict, output) →
      let alone := (Interpreter.fresh strict output).performAll (ownOf k calls)
      ∃ seat, done.2.seats[k]? = some seat ∧
        List.Forall₂ (Simulation.placement (place k) done.2.frames).Outcomes alone.1 (ownOf k done.1) ∧
        (∀ limit, (ownOf k done.1).map (Outcome.shown limit) = alone.1.map (Outcome.shown limit)) ∧
        seat.printed = alone.2.machine.printed ∧
        Seated done.2.frames seat alone.2 (place k)) ∧
      ∀ strict (sent : List (Text × Text)) (name : Text),
        ownOf name (Workspace.answerAll [] strict sent).1 =
          ((Interpreter.fresh strict .texts).answerAll (ownOf name sent)).1 := by
  intro done
  obtain ⟨_, hstart⟩ := exists_hosted_startAll openings
  obtain ⟨place, _, hdone, houtcomes⟩ := hstart.performAll calls
  refine ⟨⟨place, ?_⟩, fun strict sent name => (Workspace.ownOf_answerAll [] strict sent name).1⟩
  intro k strict output hopening alone
  have hsession : (openings.map fun opening => Interpreter.fresh opening.1 opening.2)[k]? =
      some (.fresh strict output) := by
    rw [List.getElem?_map, hopening]
    rfl
  obtain ⟨hown, hlast⟩ := Interpreter.ownOf_performEach hsession calls
  obtain ⟨seat, hseat, hseated⟩ := hdone.exists_seat hlast
  have hplaced : List.Forall₂ (Simulation.placement (place k) done.2.frames).Outcomes alone.1
      (ownOf k done.1) := by
    rw [← hown]
    exact forall₂_ownOf (R := fun k => (Simulation.placement (place k) done.2.frames).Outcomes) houtcomes k
  refine ⟨seat, hseat, hplaced, ?_, hseated.printed_eq, hseated⟩
  intro limit
  have hshown := hplaced.imp fun _ _ h => h.shown_eq limit
  have hsame := List.forall₂_map_right_iff.2 (List.forall₂_map_left_iff.2 hshown)
  exact (List.forall₂_eq_eq_eq ▸ hsame).symm

/-- The first session makes a `car` of its own and runs out of room with it; the second one, called in
    between, has the `car` that it started with, and prints with it on a stream of another kind. -/
theorem performAll_alone_redefined :
    let openings := [(true, Stream.texts), (false, Stream.utf8)]
    let calls := [(0, Call.mk 100 "(defun car (x) (car x))" true), (1, Call.mk 100 "(car (list nil t))" false),
      (0, Call.mk 20 "(car t)" true), (1, Call.mk 100 "(print (car (list t)))" true)]
    let done := (startAll openings).performAll calls
    openings[0]? = some (true, .texts) ∧ openings[1]? = some (false, .utf8) ∧
      (ownOf 0 done.1).map (Outcome.shown 100) = [.ok "car", .error .exhausted] ∧
      (ownOf 1 done.1).map (Outcome.shown 100) = [.ok "nil", .ok "t"] ∧
      ∃ seat, done.2.seats[1]? = some seat ∧ seat.printed = #[("t" : Text)] := by
  intro openings calls done
  have hfirst : ((Interpreter.fresh true .texts).performAll (ownOf 0 calls)).1.map (Outcome.shown 100) =
      [.ok "car", .error .exhausted] := by decide +kernel
  have hsecond : ((Interpreter.fresh false .utf8).performAll (ownOf 1 calls)).1.map (Outcome.shown 100) =
      [.ok "nil", .ok "t"] := by decide +kernel
  have hlines :
      ((Interpreter.fresh false .utf8).performAll (ownOf 1 calls)).2.machine.printed = #[("t" : Text)] := by
    decide +kernel
  obtain ⟨⟨_, halone⟩, _⟩ := performAll_alone openings calls
  -- what is done stays closed: nothing is to be computed on the host
  have hdone : (startAll openings).performAll calls = done := rfl
  rw [hdone] at halone
  clear_value done
  obtain ⟨_, _, _, hshown, _, _⟩ := halone 0 true .texts rfl
  obtain ⟨seat, hseat, _, hshown', hprinted, _⟩ := halone 1 false .utf8 rfl
  exact ⟨rfl, rfl, (hshown 100).trans hfirst, (hshown' 100).trans hsecond, seat, hseat,
    hprinted.trans hlines⟩

end Host

end SmallLisp
