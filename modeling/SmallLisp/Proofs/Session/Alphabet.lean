import SmallLisp.Proofs.Session.Values
import SmallLisp.Proofs.Source.RoundTrip
import SmallLisp.Proofs.Text.Alphabet

/-!
# `Proofs.Session.Alphabet` — a session keeps to the alphabet of its source texts

What a session writes are the words of its source texts, and between them spaces and characters of the
language. So values whose words are over an alphabet (`Value.IsOver`) are written over it
(`over_of_render`, `over_of_inspect`), and so is the message of a fault that comes out of them
(`Fault.Arises.over_message`). No step of an evaluation makes a word: a session that holds such values
holds no others after a source text whose tokens are over the alphabet (`IsOver.evalToText`).
-/

namespace SmallLisp

open Text (Over IsAlphabet over_literal over_intercalate over_quoted over_toString)

variable {q : CodePoint → Prop}

/-- The tokens of a source text are over an alphabet. -/
def Source.IsOver (q : CodePoint → Prop) (source : Text) : Prop :=
  ∀ token ∈ Source.tokenize source, token.Over q

/-- A value without words that are not over an alphabet. Nothing was handed in by an embedding program. -/
def Value.IsOver (q : CodePoint → Prop) : Value → Prop
  | .text s => s.Over q
  | .symbol name => name.Over q
  | .closure _ _ _ _ name => ∀ s, name = some s → s.Over q
  | .embedded _ => False
  | _ => True

/-! ## Values in writing -/

section

variable (hq : IsAlphabet q)

include hq

theorem Primitive.over_name (p : Primitive) : p.name.Over q := by
  cases p <;> exact over_literal hq rfl

theorem SpecialForm.over_name (form : SpecialForm) : form.name.Over q := by
  cases form <;> exact over_literal hq rfl

theorem over_truth (b : Bool) : Over q (if b then "t" else "nil") := by
  cases b <;> exact over_literal hq rfl

/-- What is written of a number is over every alphabet. -/
theorem over_of_isMark {text : String} (h : ∀ c ∈ text.toList, isMark c) : Over q text := by
  intro c hc
  obtain ⟨d, hd, rfl⟩ := List.mem_map.1 hc
  have hatomic := isAtomic_of_isMark (h d hd)
  exact hq d (.inr (Source.isBlank_of_isAtomic hatomic))

end

/-- Outcomes over the alphabet make one over it, with a separator that is over it between them. -/
theorem over_of_mapM {α ε : Type} {write : α → Except ε Text} {xs : List α} {texts : List Text}
    {separator : Text} (hs : Over q separator) (h : xs.mapM write = .ok texts)
    (hwrite : ∀ x ∈ xs, ∀ text, write x = .ok text → Over q text) :
    Over q (separator.intercalate texts) := by
  apply over_intercalate hs
  intro text htext
  obtain ⟨x, hx, hok⟩ := (exists_of_mem_mapM h).2 text htext
  exact hwrite x hx text hok

namespace Value

/-- **Values over the alphabet are written over it.** -/
theorem over_of_render (hq : IsAlphabet q) {depth : Nat} {v : Value} {text : Text}
    (hv : v.Everywhere (IsOver q)) (h : v.render depth = .ok text) : Over q text := by
  -- on the limit: a closure is written as the two lists that it is made of
  induction depth generalizing v text with
  | zero => cases h
  | succ depth ih =>
    cases v with
    | number x =>
      cases h
      exact over_of_isMark hq (isMark_of_mem_programText x)
    | text s =>
      cases h
      exact Over.enclosed hq hv.self rfl rfl
    | truth b =>
      cases h
      exact over_truth hq b
    | symbol name =>
      cases h
      exact hv.self
    | list items =>
      obtain ⟨parts, hparts, rfl⟩ := exists_of_render_list h
      have hinside : Over q (Text.intercalate " " parts) := by
        apply over_of_mapM (over_literal hq rfl) hparts
        intro item hitem part hpart
        exact ih ((everywhere_list.1 hv).2 item hitem) hpart
      exact Over.enclosed hq hinside rfl rfl
    | primitive p =>
      cases h
      exact Over.enclosed hq (p.over_name hq) rfl rfl
    | special form =>
      cases h
      exact Over.enclosed hq (form.over_name hq) rfl rfl
    | closure formals body scope strict name =>
      obtain ⟨_, hformals, hbody⟩ := everywhere_closure.1 hv
      obtain ⟨first, second, hf, hb, rfl⟩ := exists_of_render_closure h
      have hfirst : Over q first := ih (everywhere_list.2 ⟨trivial, hformals⟩) hf
      have hsecond : Over q second := ih (everywhere_list.2 ⟨trivial, hbody⟩) hb
      exact ((Over.enclosed hq hfirst rfl rfl).append hsecond).append (over_literal hq rfl)
    | embedded e => exact hv.self.elim

/-- A line of values over the alphabet is over it. -/
theorem over_of_mapM_written (hq : IsAlphabet q) {args : List Value} {depth : Nat} {texts : List Text}
    (hargs : ∀ arg ∈ args, arg.Everywhere (IsOver q)) (h : args.mapM (written depth) = .ok texts) :
    Over q (Text.intercalate " " texts) := by
  apply over_of_mapM (over_literal hq rfl) h
  intro arg harg text hwritten
  exact over_of_render hq (hargs arg harg) (mapError_eq_ok.1 hwritten)

/-- Values over the alphabet are shown over it. -/
theorem over_of_inspect (hq : IsAlphabet q) {depth : Nat} {v : Value} {text : Text}
    (hv : v.Everywhere (IsOver q)) (h : v.inspect depth = .ok text) : Over q text := by
  induction depth generalizing v text with
  | zero => cases h
  | succ depth ih =>
    cases v with
    | number x =>
      cases h
      exact over_of_isMark hq (isMark_of_mem_diagnosticText x)
    | text s =>
      cases h
      exact over_quoted hq hv.self
    | symbol name =>
      cases h
      exact Over.enclosed hq (over_quoted hq hv.self) rfl rfl
    | list items =>
      obtain ⟨parts, hparts, rfl⟩ := exists_of_inspect_list h
      have hinside : Over q (Text.intercalate ", " parts) := by
        apply over_of_mapM (over_literal hq rfl) hparts
        intro item hitem part hpart
        exact ih ((everywhere_list.1 hv).2 item hitem) hpart
      exact Over.enclosed hq hinside rfl rfl
    | embedded e => exact hv.self.elim
    | truth | primitive | special | closure =>
      -- these are shown as they are written
      rw [inspect] at h
      exact over_of_render hq hv h

end Value

/-! ## Messages -/

section

variable (hq : IsAlphabet q)

include hq

theorem Source.SyntaxFault.over_message (why : Source.SyntaxFault) : Over q why.message := by
  cases why <;> exact over_literal hq rfl

theorem over_argumentCount (n : Nat) : Over q (argumentCount n) := by
  unfold argumentCount
  split
  · exact over_literal hq rfl
  · rw [Text.ofString_append]
    exact (over_toString hq n).append (over_literal hq rfl)

theorem SpecialForm.over_operands (form : SpecialForm) : Over q form.operands := by
  cases form <;> exact over_literal hq rfl

theorem SpecialForm.over_targetRole (form : SpecialForm) : Over q form.targetRole := by
  cases form <;> exact over_literal hq rfl

theorem over_closureName {name : Option Text} (h : ∀ s, name = some s → Over q s) :
    Over q (closureName name) := by
  unfold closureName
  split
  · exact over_literal hq rfl
  · split
    · exact over_literal hq rfl
    · exact h _ rfl

/-- A refusal that shows a text over the alphabet is over it. -/
theorem ArgumentFault.Shows.over_message {why : Text → ArgumentFault} (hw : ArgumentFault.Shows why)
    {text : Text} (h : Over q text) : Over q (why text).message := by
  cases hw with
  | notNumeric p => exact ((p.over_name hq).append (over_literal hq rfl)).append h
  | notList p => exact ((p.over_name hq).append (over_literal hq rfl)).append h
  | target form =>
    exact ((((form.over_name hq).append (over_literal hq rfl)).append (form.over_targetRole hq)).append
      (over_literal hq rfl)).append h
  | parameterList form => exact ((form.over_name hq).append (over_literal hq rfl)).append h
  | clauseNotList => exact (over_literal hq rfl).append h
  | parameter => exact (over_literal hq rfl).append h

/-- **The faults of the language that come out of values over the alphabet have messages over it.** -/
theorem Fault.Arises.over_message {output : Stream} {fault : Fault}
    (h : fault.Arises (Value.Everywhere (Value.IsOver q)) output) (hown : fault.IsOwn) :
    Over q fault.message := by
  have hname {name : Text} (h : (Value.symbol name).Everywhere (Value.IsOver q)) : Over q name := h.self
  cases h with
  | tooDeep | integer | unwritable => exact hown.elim
  | exhausted | divisionByZero | head | consTail | clauseEmpty => exact over_literal hq rfl
  | tooFew p least =>
    exact ((p.over_name hq).append (over_literal hq rfl)).append (over_argumentCount hq least)
  | exactly p count =>
    exact ((p.over_name hq).append (over_literal hq rfl)).append (over_argumentCount hq count)
  | operandCount form =>
    exact ((form.over_name hq).append (over_literal hq rfl)).append (form.over_operands hq)
  | arity expected given hn =>
    have hclosure := over_closureName hq fun s hs => hname (hn s hs)
    show Over q (_ ++ Text.ofString _)
    simp only [Text.ofString_append]
    exact hclosure.append <| (((over_literal hq rfl).append (over_toString hq expected)).append
      (over_literal hq rfl)).append (over_toString hq given)
  | unbound hv => exact (over_literal hq rfl).append (hname hv)
  | unassignable hv => exact (over_literal hq rfl).append (hname hv)
  | boundTo hv => exact Over.enclosed hq (hname hv) rfl rfl
  | uncallable hv hs =>
    exact (over_literal hq rfl).append (Value.over_of_inspect hq hv (mapError_eq_ok.1 hs))
  | refused hw hv hs =>
    apply hw.over_message hq
    rcases hs with hs | hs
    · exact Value.over_of_render hq hv (mapError_eq_ok.1 hs)
    · exact Value.over_of_inspect hq hv (mapError_eq_ok.1 hs)
  | unwritten hv hs =>
    -- writing a value fails with a fault of the host
    rcases hs with hs | hs
    · obtain ⟨why, _, rfl⟩ := exists_of_mapError_eq_error hs
      exact hown.elim
    · obtain ⟨why, _, rfl⟩ := exists_of_mapError_eq_error hs
      exact hown.elim

end

/-! ## Sessions -/

namespace Interpreter

/-- Everything that a session holds is over an alphabet. -/
def IsOver (q : CodePoint → Prop) (i : Interpreter) : Prop :=
  ∀ f, ∀ b ∈ i.machine.bindings f, b.2.Everywhere (Value.IsOver q)

/-- No step of an evaluation makes a word. -/
theorem permissible_isOver : Permissible fun n v => v.IsOver q ∧ v.IsOwn ∧ v.CapturesBelow n where
  mono hnk _ h := ⟨h.1, permissive_isOwn.mono hnk h.2⟩
  number n x := ⟨trivial, permissive_isOwn.number n x⟩
  truth n b := ⟨trivial, permissive_isOwn.truth n b⟩
  list n items := ⟨trivial, permissive_isOwn.list n items⟩
  closure hf hn := ⟨fun s hs => (hn s hs).1, permissive_isOwn.closure hf fun s hs => (hn s hs).2⟩
  scope h := permissive_isOwn.scope h.2
  body h := permissive_isOwn.body h.2
  name h s hs := ⟨h.1 s hs, permissive_isOwn.name h.2 s hs⟩

variable {strict : Bool} {output : Stream} {i : Interpreter} {source : Text}

theorem isOver_fresh : (fresh strict output).IsOver q := by
  have hinitial : (Machine.fresh strict output).Holds fun _ v => v.IsOver q :=
    Machine.holds_fresh
      (Value.everywhere_initial (fun _ => trivial) (fun _ => trivial) (fun _ => trivial) strict)
  exact hinitial.values

/-- What is read from a source text over the alphabet is over it. -/
theorem everywhere_isOver_of_read {limit n : Nat} {e : Value} (hs : Source.IsOver q source)
    (h : Source.read limit source = .ok e) :
    e.Everywhere fun v => v.IsOver q ∧ v.IsOwn ∧ v.CapturesBelow n := by
  refine Source.everywhere_read_tokens (fun _ => ⟨trivial, trivial, trivial⟩) ?_ h
  intro token htoken _ _
  have hover := hs token htoken
  refine Source.everywhere_ofAtom (fun _ => ⟨trivial, trivial, trivial⟩) ?_
    (fun _ => ⟨trivial, trivial, trivial⟩) fun _ => ⟨hover, trivial, trivial⟩
  intro s hunquoted
  exact ⟨fun c hc => hover c (Source.mem_of_unquote? hunquoted c hc), trivial, trivial⟩

/-- **A source text over the alphabet keeps a session over it**, and ends with a value over it or a fault that
    comes out of such values, unless it cannot be read. -/
theorem IsOver.evalSource (hi : i.IsOver q) (h : i.Reachable strict output) (hs : Source.IsOver q source) :
    (i.evalSource source).2.IsOver q ∧
      ((∃ why, (i.evalSource source).1 = .error (.unreadable why)) ∨
        Settles (Value.Everywhere fun v => v.IsOver q ∧ v.IsOwn) output (Value.Everywhere (Value.IsOver q))
          (i.evalSource source).1) := by
  have howned := holds_of_reachable permissive_isOwn h
  have hholds : i.machine.Holds fun n v => v.IsOver q ∧ v.IsOwn ∧ v.CapturesBelow n :=
    ⟨howned.size_pos, howned.outer_lt, howned.root, fun f b hb => (hi f b hb).and (howned.values f b hb)⟩
  have hover {n : Nat} {v : Value} (hv : v.Everywhere fun v => v.IsOver q ∧ v.IsOwn ∧ v.CapturesBelow n) :
      v.Everywhere (Value.IsOver q) := hv.mono fun _ h => h.1
  obtain ⟨hmachine, _, houtcome⟩ :=
    holds_evalSource_of_read permissible_isOver hholds fun e => everywhere_isOver_of_read hs
  refine ⟨fun f b hb => hover (hmachine.values f b hb), ?_⟩
  rcases houtcome with hwhy | hsettles
  · exact .inl hwhy
  · right
    rw [output_of_reachable h] at hsettles
    exact (hsettles.widen fun _ hv => hv.mono fun _ h => ⟨h.1, h.2.1⟩).mono fun _ => hover

/-- **What a session over the alphabet answers is over it**: the text of a value, and the message of a fault
    of the language. Apart from such a fault, only the refusal of a line over the alphabet ends an
    evaluation. -/
theorem IsOver.evalToText (hq : IsAlphabet q) (hi : i.IsOver q) (h : i.Reachable strict output)
    (hs : Source.IsOver q source) :
    (i.evalToText source).2.IsOver q ∧ (∀ text, (i.evalToText source).1 = .ok text → Over q text) ∧
      ∀ fault, (i.evalToText source).1 = .error fault →
        fault.Expected (Value.Everywhere (Value.IsOver q)) output ∧ (fault.IsOwn → Over q fault.message) := by
  obtain ⟨hafter, houtcome⟩ := hi.evalSource h hs
  rcases evalToText_cases h source with
    ⟨v, text, hsource, hrender, htext⟩ | ⟨v, _, _, hexhausted⟩ | ⟨fault, hsource, hfault⟩
  · -- the value is over the alphabet, and so it is written over it
    rw [hsource] at houtcome
    rcases houtcome with ⟨why, hwhy⟩ | hv
    · cases hwhy
    · rw [htext]
      refine ⟨hafter, fun text' heq => ?_, nofun⟩
      cases heq
      exact Value.over_of_render hq hv hrender
  · rw [hexhausted]
    refine ⟨hafter, nofun, fun fault heq => ?_⟩
    cases heq
    exact ⟨.own trivial, fun _ => over_literal hq rfl⟩
  · have hguarded := guarded_of_evalSource_error hsource
    rw [hsource] at houtcome
    rw [hfault]
    refine ⟨hafter, nofun, fun fault' heq => ?_⟩
    cases heq
    rcases houtcome with ⟨why, hwhy⟩ | harises
    · cases hwhy
      exact ⟨.own trivial, fun _ => why.over_message hq⟩
    · have hexpected := Fault.Arises.expected (fun _ h => h.2) harises
      rw [hguarded] at hexpected
      have hover := Fault.Arises.mono (fun v hv => hv.mono fun _ h => h.1) harises
      exact ⟨hexpected.mono fun v hv => hv.mono fun _ h => h.1, hover.over_message hq⟩

end Interpreter

end SmallLisp
