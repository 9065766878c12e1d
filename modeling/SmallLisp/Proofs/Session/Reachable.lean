import SmallLisp.Interpreter
import SmallLisp.Proofs.Source.Contents
import SmallLisp.Proofs.Value.Written

/-!
# `Proofs.Session.Reachable` — the sessions that source texts lead to

`Reachable strict output` is every session that is reached from a new one by giving it source texts, whether
they succeed or fail, and by taking what was printed. The nesting limit stands for the room that the host
has left, so it may be another one before each text.

What a source text does to a session is one evaluation in the global frame (`evalSource_eq`), or nothing
if the text cannot be read. `holds_of_reachable` carries along whatever lets pass all that a program can
write (`Permissive`), and `printed_of_reachable` says of the printed lines what is so of the texts of such
values.
-/

namespace SmallLisp

namespace Interpreter

/-- **The sessions that source texts lead to.** -/
inductive Reachable (strict : Bool) (output : Stream) : Interpreter → Prop
  | fresh : Reachable strict output (.fresh strict output)
  | evalSource {i : Interpreter} (h : Reachable strict output i) (source : Text) :
      Reachable strict output (i.evalSource source).2
  | evalToText {i : Interpreter} (h : Reachable strict output i) (source : Text) :
      Reachable strict output (i.evalToText source).2
  | takePrinted {i : Interpreter} (h : Reachable strict output i) : Reachable strict output i.takePrinted.2
  | limited {i : Interpreter} (h : Reachable strict output i) (limit : Nat) :
      Reachable strict output { i with limit }

/-! ## One source text -/

/-- A source text is read, and what was read is evaluated in the global frame. -/
theorem evalSource_eq (i : Interpreter) (source : Text) :
    i.evalSource source =
      match Source.read i.limit source with
      | .ok e => (((eval i.limit Machine.globalFrame e).on i.machine).1.mapError Fault.guarded,
          { i with machine := ((eval i.limit Machine.globalFrame e).on i.machine).2 })
      | .error why => (.error why.fault.guarded, i) := by
  unfold evalSource run evalAction
  rw [Action.on_guarded, Action.on_bind, Action.on_ofExcept]
  cases Source.read i.limit source <;> rfl

theorem evalToText_fst (i : Interpreter) (source : Text) :
    (i.evalToText source).1 = (i.evalSource source).1.bind (textOf i.limit) := by
  have hlimit : (i.evalSource source).2.limit = i.limit := rfl
  unfold evalToText
  rw [← hlimit]

/-- What a source text fails with has passed the stack guard. -/
theorem guarded_of_evalSource_error {i : Interpreter} {source : Text} {fault : Fault}
    (h : (i.evalSource source).1 = .error fault) : fault.guarded = fault := by
  have hguarded : ((evalAction i.limit source).on i.machine).1 = .error fault := h
  rw [evalAction, Action.on_guarded] at hguarded
  obtain ⟨why, _, rfl⟩ := exists_of_mapError_eq_error hguarded
  exact why.guarded_guarded

theorem guarded_of_evalToText_error {i : Interpreter} {source : Text} {fault : Fault}
    (h : (i.evalToText source).1 = .error fault) : fault.guarded = fault := by
  rw [evalToText_fst] at h
  cases hsource : (i.evalSource source).1 with
  | error why =>
    rw [hsource] at h
    cases h
    exact guarded_of_evalSource_error hsource
  | ok v =>
    rw [hsource] at h
    obtain ⟨why, _, rfl⟩ := exists_of_mapError_eq_error h
    exact why.guarded_guarded

/-- What a source text does to a session grows in the global frame. -/
theorem growsIn_evalSource (i : Interpreter) (source : Text) :
    i.machine.GrowsIn Machine.globalFrame (i.evalSource source).2.machine := by
  rw [evalSource_eq]
  cases Source.read i.limit source with
  | ok e =>
    exact (Discipline.growth_lawful.keeps_eval i.limit (f := Machine.globalFrame) (e := e)
      (m := i.machine) trivial trivial trivial).change
  | error why => exact .refl _ _

/-! ## Sessions -/

/-- What a program can keep to, whatever it writes: all that an atom can stand for and all functions that
    a new session binds pass. -/
structure Permissive (p : Nat → Value → Prop) : Prop extends Permissible p where
  atom (n : Nat) {token : Text} (h : Source.IsAtom token) : (Source.ofAtom token).Everywhere (p n)
  primitive (n : Nat) (r : Primitive) : p n (.primitive r)
  special (n : Nat) (form : SpecialForm) : p n (.special form)

variable {p : Nat → Value → Prop} {i : Interpreter} {strict : Bool} {output : Stream}

theorem Permissive.everywhere_read (hp : Permissive p) (n : Nat) {limit : Nat} {source : Text}
    {e : Value} (h : Source.read limit source = .ok e) : e.Everywhere (p n) :=
  Source.everywhere_read (hp.list n) (fun _ => hp.atom n) h

/-- A source text keeps what holds of a session, if what is read from it passes. It ends with a syntax fault,
    or with a value or a fault of what is at hand. -/
theorem holds_evalSource_of_read (hp : Permissible p) (h : i.machine.Holds p) {source : Text}
    (hread : ∀ e, Source.read i.limit source = .ok e → e.Everywhere (p i.machine.frames.size)) :
    (i.evalSource source).2.machine.Holds p ∧
      i.machine.frames.size ≤ (i.evalSource source).2.machine.frames.size ∧
      ((∃ why, (i.evalSource source).1 = .error (.unreadable why)) ∨
        Settles (Value.Everywhere (p (i.evalSource source).2.machine.frames.size)) i.machine.output
          (Value.Everywhere (p (i.evalSource source).2.machine.frames.size))
          (i.evalSource source).1) := by
  rw [← (growsIn_evalSource i source).output_eq, evalSource_eq]
  cases hr : Source.read i.limit source with
  | ok e =>
    -- what was read is made of literals and lists, so it is at hand in the global frame
    obtain ⟨hmachine, hchange, hsettles⟩ :=
      (Discipline.contents_lawful hp).keeps_eval i.limit h h.size_pos (hread e hr)
    exact ⟨hmachine, hchange, .inr hsettles.guarded⟩
  | error why =>
    -- what cannot be read is not evaluated
    refine ⟨h, Nat.le_refl _, ?_⟩
    cases why with
    | malformed why => exact .inl ⟨why, rfl⟩
    | tooDeep => exact .inr .exhausted

theorem holds_evalSource (hp : Permissive p) (h : i.machine.Holds p) (source : Text) :
    (i.evalSource source).2.machine.Holds p ∧
      i.machine.frames.size ≤ (i.evalSource source).2.machine.frames.size ∧
      ((∃ why, (i.evalSource source).1 = .error (.unreadable why)) ∨
        Settles (Value.Everywhere (p (i.evalSource source).2.machine.frames.size)) i.machine.output
          (Value.Everywhere (p (i.evalSource source).2.machine.frames.size))
          (i.evalSource source).1) :=
  holds_evalSource_of_read hp.toPermissible h fun _ => hp.everywhere_read _

/-- **What lets pass all that a program can write holds in every session.** -/
theorem holds_of_reachable (hp : Permissive p) (h : i.Reachable strict output) : i.machine.Holds p := by
  -- the two ways to give a text leave the same session, and only the frames matter
  induction h with
  | fresh =>
    exact Machine.holds_fresh
      (Value.everywhere_initial (hp.primitive 1) (hp.special 1) (hp.truth 1) strict)
  | evalSource _ source ih => exact (holds_evalSource hp ih source).1
  | evalToText _ source ih => exact (holds_evalSource hp ih source).1
  | takePrinted _ ih => exact ⟨ih.size_pos, ih.outer_lt, ih.root, ih.values⟩
  | limited _ _ ih => exact ih

/-- The lines of a session are printed on the stream that it was opened with. -/
theorem output_of_reachable (h : i.Reachable strict output) : i.machine.output = output := by
  induction h with
  | fresh => rfl
  | evalSource _ source ih => exact (growsIn_evalSource _ source).output_eq.trans ih
  | evalToText _ source ih => exact (growsIn_evalSource _ source).output_eq.trans ih
  | takePrinted _ ih => exact ih
  | limited _ _ ih => exact ih

section

variable {q : Text → Prop} (hp : Permissive p)
  (hq : ∀ {n : Nat} {args : List Value} {depth : Nat} {texts : List Text},
    (∀ v ∈ args, v.Everywhere (p n)) → args.mapM (Value.written depth) = .ok texts →
    q (Text.intercalate " " texts))

include hp hq

/-- What a source text prints are lines `q`, if the texts of what is at hand make no others. -/
theorem printed_evalSource (h : i.machine.Holds p) (hprinted : ∀ line ∈ i.machine.printed, q line)
    (source : Text) : ∀ line ∈ (i.evalSource source).2.machine.printed, q line := by
  rw [evalSource_eq]
  cases hread : Source.read i.limit source with
  | ok e =>
    have hlawful := (Discipline.contents_lawful hp.toPermissible).printing fun _ => hq
    have hkeeps := hlawful.keeps_eval i.limit ⟨h, hprinted⟩ h.size_pos
      (hp.everywhere_read i.machine.frames.size hread)
    exact hkeeps.machine.2
  | error why => exact hprinted

/-- **What a session prints** are lines `q`, if the texts of what programs make are no others. -/
theorem printed_of_reachable (h : i.Reachable strict output) : ∀ line ∈ i.machine.printed, q line := by
  induction h with
  | fresh => exact fun line hline => absurd hline (Array.not_mem_empty line)
  | evalSource h source ih => exact printed_evalSource hp hq (holds_of_reachable hp h) ih source
  | evalToText h source ih => exact printed_evalSource hp hq (holds_of_reachable hp h) ih source
  | takePrinted _ _ => exact fun line hline => absurd hline (Array.not_mem_empty line)
  | limited _ _ ih => exact ih

end

/-- The global frame of a session binds the names that it bound at first. -/
theorem initial_names_of_reachable (h : i.Reachable strict output) :
    (Value.initial strict).map (·.1) ⊆ i.machine.names Machine.globalFrame := by
  induction h with
  | fresh => exact List.Subset.refl _
  | evalSource _ source ih => exact List.Subset.trans ih ((growsIn_evalSource _ source).names_subset _)
  | evalToText _ source ih => exact List.Subset.trans ih ((growsIn_evalSource _ source).names_subset _)
  | takePrinted _ ih => exact ih
  | limited _ _ ih => exact ih

end Interpreter

end SmallLisp
