import Mathlib.Algebra.Ring.Int.Defs
import SmallLisp.Proofs.Evaluation.Parameters
import SmallLisp.Proofs.Value.Written

/-!
# `Proofs.Evaluation.Binding` — what the binding of parameters ends with

A call of a closure binds its parameters in a new frame (`enterClosure`), and then runs the body there. Only
as many parameters are looked at as there are arguments, and only as many arguments as there are parameters.
If these parameters are symbols, and a strict closure has as many arguments as parameters, the new frame binds
exactly them, a repeated one to its last argument (`on_enterClosure_of_symbols`). Otherwise the call is
refused, and no frame is made (`on_enterClosure_of_not_counts`, `on_enterClosure_of_not_symbol`).
-/

namespace SmallLisp

variable {depth : Nat} {bound : Bindings} {formals args : List Value} {names : List Text}
  {strict : Bool} {label : Option Text} {scope : FrameId} {m : Machine}

/-! ## Entering a closure -/

/-- Binds the parameters of a closure in a new frame inside its scope. -/
def enterClosure (depth : Nat) (formals : List Value) (scope : FrameId) (strict : Bool)
    (label : Option Text) (args : List Value) : Action FrameId := do
  let bindings ← Action.ofExcept (bindArguments depth strict label formals args)
  Action.allocate bindings (some scope)

/-- **The frame of a call.** It is the newest one, inside the scope of the closure. It binds exactly the
    names, each to the argument at the last place of the name. All other frames are as they were. -/
structure Machine.Enters (m after : Machine) (scope : FrameId) (names : List Text)
    (args : List Value) : Prop where
  size_eq : after.frames.size = m.frames.size + 1
  outer_eq : after.outer? m.frames.size = some scope
  mem_names_iff : ∀ name, name ∈ after.names m.frames.size ↔ name ∈ names
  local_eq : ∀ first name rest, names = first ++ name :: rest → name ∉ rest →
    after.local? name m.frames.size = args[first.length]?
  frames_eq : ∀ g < m.frames.size, after.frames[g]? = m.frames[g]?
  printed_eq : after.printed = m.printed

/-- The number of arguments is one that the closure takes. -/
def Counts (strict : Bool) (formals args : List Value) : Prop :=
  strict = true → args.length = formals.length

/-- A call enters the closure and runs its body there. -/
theorem callClosure_eq (depth : Nat) (ev : Evaluator) (formals body : List Value) (scope : FrameId)
    (strict : Bool) (label : Option Text) (args : List Value) :
    callClosure depth ev formals body scope strict label args =
      (enterClosure depth formals scope strict label args >>= fun frame =>
        evalBody ev frame (.embedded .nothing) body) := by
  unfold callClosure enterClosure
  rw [bind_assoc]

theorem on_enterClosure (m : Machine) :
    (enterClosure depth formals scope strict label args).on m =
      match bindArguments depth strict label formals args with
      | .ok bindings => (.ok m.frames.size, (m.allocate bindings (some scope)).2)
      | .error fault => (.error fault, m) := by
  unfold enterClosure
  rw [Action.on_bind, Action.on_ofExcept]
  cases bindArguments depth strict label formals args <;> rfl

theorem bindArguments_of_counts (h : Counts strict formals args) :
    bindArguments depth strict label formals args = bindFormals depth [] formals args := by
  unfold bindArguments
  rw [if_neg]
  rintro ⟨hstrict, hne⟩
  exact hne (h hstrict)

/-! ## Only what both lists reach is looked at -/

/-- Arguments for which there is no parameter are dropped. -/
theorem bindFormals_take_args (depth : Nat) (bound : Bindings) (formals args : List Value) :
    bindFormals depth bound formals (args.take formals.length) =
      bindFormals depth bound formals args := by
  induction formals generalizing bound args with
  | nil => cases args <;> rfl
  | cons formal formals ih =>
    cases args with
    | nil => rfl
    | cons arg args =>
      cases formal with
      | symbol name => exact ih _ args
      | _ => rfl

/-- Parameters for which there is no argument are not looked at. -/
theorem bindFormals_take_formals (depth : Nat) (bound : Bindings) (formals args : List Value) :
    bindFormals depth bound (formals.take args.length) args = bindFormals depth bound formals args := by
  induction formals generalizing bound args with
  | nil => cases args <;> rfl
  | cons formal formals ih =>
    cases args with
    | nil => cases formal <;> rfl
    | cons arg args =>
      cases formal with
      | symbol name => exact ih _ args
      | _ => rfl

/-- **The first parameter that is no symbol is refused**, if there is an argument for it. -/
theorem bindFormals_of_not_symbol {formal : Value} (hformal : ∀ s, formal ≠ .symbol s)
    (hlength : names.length < args.length) (rest : List Value) :
    bindFormals depth bound (names.map .symbol ++ formal :: rest) args =
      ArgumentFault.refuse .parameter (formal.inspected depth) := by
  induction names generalizing bound args with
  | nil =>
    cases args with
    | nil => cases hlength
    | cons arg args =>
      cases formal with
      | symbol s => exact absurd rfl (hformal s)
      | _ => rfl
  | cons name names ih =>
    cases args with
    | nil => cases hlength
    | cons arg args => exact ih (Nat.lt_of_succ_lt_succ hlength)

/-! ## What the new frame binds -/

theorem isSome_lookup_zip (hlength : names.length ≤ args.length) (name : Text) :
    ((names.zip args).reverse.lookup name).isSome ↔ name ∈ names := by
  have hfst : ((names.zip args).reverse.map (·.1)) = names.reverse := by
    rw [List.map_reverse, List.map_fst_zip hlength]
  rw [List.lookup_isSome_iff]
  constructor
  · rintro ⟨b, hb, hname⟩
    rw [eq_of_beq hname, ← List.mem_reverse, ← hfst]
    exact List.mem_map_of_mem hb
  · intro hname
    rw [← List.mem_reverse, ← hfst, List.mem_map] at hname
    obtain ⟨b, hb, rfl⟩ := hname
    exact ⟨b, hb, beq_self_eq_true b.1⟩

/-- Of a repeated name the last argument counts. -/
theorem lookup_zip_last {first rest : List Text} {name : Text} (hrest : name ∉ rest)
    (hlength : first.length < args.length) :
    ((first ++ name :: rest).zip args).reverse.lookup name = args[first.length]? := by
  have hsplit : args = args.take first.length ++ args[first.length] :: args.drop (first.length + 1) := by
    rw [List.getElem_cons_drop, List.take_append_drop]
  have hsame : first.length = (args.take first.length).length := by
    rw [List.length_take, Nat.min_eq_left (Nat.le_of_lt hlength)]
  -- no later name is this one
  have hnone : (rest.zip (args.drop (first.length + 1))).reverse.lookup name = none := by
    rw [List.lookup_eq_none_iff]
    rintro ⟨other, arg⟩ hmem
    apply bne_iff_ne.2
    rintro rfl
    exact hrest (List.of_mem_zip (List.mem_reverse.1 hmem)).1
  calc ((first ++ name :: rest).zip args).reverse.lookup name
      = (first.zip (args.take first.length) ++
          (name, args[first.length]) :: rest.zip (args.drop (first.length + 1))).reverse.lookup name := by
        rw [← List.zip_cons_cons, ← List.zip_append hsame, ← hsplit]
    _ = args[first.length]? := by
        rw [List.reverse_append, List.reverse_cons, List.append_assoc, List.lookup_append, hnone,
          List.singleton_append, List.lookup_cons, beq_self_eq_true, List.getElem?_eq_getElem hlength]
        rfl

/-- **The new frame binds exactly the parameters**, each to its last argument. -/
theorem enters_allocate {bindings : Bindings} (hlength : names.length ≤ args.length)
    (hbind : bindFormals depth [] (names.map .symbol) args = .ok bindings) :
    m.Enters (m.allocate bindings (some scope)).2 scope names args := by
  obtain ⟨bound, hbound, hlookup⟩ := exists_bindFormals depth [] names args
  obtain rfl : bound = bindings := Except.ok.inj (hbound.symm.trans hbind)
  have hlocal (name : Text) : (m.allocate bound (some scope)).2.local? name m.frames.size =
      (names.zip args).reverse.lookup name := by
    rw [Machine.local?_eq_lookup, Machine.bindings_allocate_self, hlookup, List.lookup_nil, Option.or_none]
  refine ⟨Machine.size_allocate _, Machine.outer?_allocate_self _, ?names, ?value, ?frames, rfl⟩
  case names =>
    intro name
    rw [← Machine.isSome_local?_iff, hlocal, isSome_lookup_zip hlength]
  case value =>
    rintro first name rest rfl hrest
    have hfirst : first.length < args.length := by
      rw [List.length_append, List.length_cons] at hlength
      omega
    rw [hlocal, lookup_zip_last hrest hfirst]
  case frames =>
    intro g hg
    show (m.frames.push ⟨bound, some scope⟩)[g]? = m.frames[g]?
    rw [Array.getElem?_push_lt hg, Array.getElem?_eq_getElem hg]

/-! ## How the call of a closure begins -/

section

variable (depth formals args strict label scope m)

/-- A strict closure refuses a wrong number of arguments, whatever its parameters are. -/
theorem on_enterClosure_of_not_counts (h : ¬ Counts strict formals args) :
    (enterClosure depth formals scope strict label args).on m =
      (.error (.argument (.arity label formals.length args.length)), m) := by
  have hbind : bindArguments depth strict label formals args =
      .error (.argument (.arity label formals.length args.length)) := by
    unfold bindArguments
    rw [if_pos]
    exact Classical.not_imp.1 h
  rw [on_enterClosure, hbind]

/-- Symbols are bound in a new frame. -/
theorem on_enterClosure_of_symbols (h : Counts strict formals args)
    (hsymbols : formals.take args.length = names.map .symbol) :
    ∃ after, (enterClosure depth formals scope strict label args).on m = (.ok m.frames.size, after) ∧
      m.Enters after scope names args := by
  obtain ⟨bindings, hbind, _⟩ := exists_bindFormals depth [] names args
  have hlength : names.length ≤ args.length := by
    rw [← List.length_map Value.symbol, ← hsymbols]
    exact List.length_take_le _ _
  refine ⟨(m.allocate bindings (some scope)).2, ?_, enters_allocate hlength hbind⟩
  rw [on_enterClosure, bindArguments_of_counts h, ← bindFormals_take_formals, hsymbols, hbind]

/-- The first parameter that is no symbol is refused, and nothing was made before. -/
theorem on_enterClosure_of_not_symbol {formal : Value} {rest : List Value}
    (h : Counts strict formals args)
    (hformals : formals.take args.length = names.map .symbol ++ formal :: rest)
    (hformal : ∀ s, formal ≠ .symbol s) :
    ∃ fault, (enterClosure depth formals scope strict label args).on m = (.error fault, m) ∧
      ((∃ shown, formal.inspected depth = .ok shown ∧ fault = .argument (.parameter shown)) ∨
        formal.inspected depth = .error fault) := by
  have hlength : names.length < args.length := by
    have hle := List.length_take_le args.length formals
    rw [hformals, List.length_append, List.length_map, List.length_cons] at hle
    omega
  obtain ⟨fault, hfault, hcases⟩ := refuse_cases (α := Bindings) .parameter (formal.inspected depth)
  refine ⟨fault, ?_, hcases⟩
  rw [on_enterClosure, bindArguments_of_counts h, ← bindFormals_take_formals, hformals,
    bindFormals_of_not_symbol hformal hlength, hfault]

/-- Nothing but symbols is ever bound, and only if the number of arguments is right. -/
theorem enters_of_on_enterClosure_eq_ok {frame : FrameId}
    (h : ((enterClosure depth formals scope strict label args).on m).1 = .ok frame) :
    Counts strict formals args ∧ frame = m.frames.size ∧
      ∃ names : List Text, formals.take args.length = names.map .symbol ∧
        m.Enters ((enterClosure depth formals scope strict label args).on m).2 scope names args := by
  by_cases hcounts : Counts strict formals args
  · rcases eq_map_or_exists_first Value.symbol (formals.take args.length) with
      ⟨names, hnames⟩ | ⟨names, formal, rest, hformals, hformal⟩
    · obtain ⟨after, hafter, henters⟩ :=
        on_enterClosure_of_symbols depth formals args strict label scope m hcounts hnames
      rw [hafter] at h ⊢
      cases h
      exact ⟨hcounts, rfl, names, hnames, henters⟩
    · obtain ⟨fault, hfault, _⟩ :=
        on_enterClosure_of_not_symbol depth formals args strict label scope m hcounts hformals hformal
      rw [hfault] at h
      cases h
  · rw [on_enterClosure_of_not_counts depth formals args strict label scope m hcounts] at h
    cases h

/-- A lenient closure takes no notice of arguments for which it has no parameter. -/
theorem callClosure_take (ev : Evaluator) (body : List Value) :
    callClosure depth ev formals body scope false label args =
      callClosure depth ev formals body scope false label (args.take formals.length) := by
  have hbind : bindArguments depth false label formals (args.take formals.length) =
      bindArguments depth false label formals args := by
    have hcounts (args : List Value) : Counts false formals args := nofun
    rw [bindArguments_of_counts (hcounts _), bindArguments_of_counts (hcounts _), bindFormals_take_args]
  unfold callClosure
  rw [hbind]

end

/-- **The exact outcome of binding parameters.** A call of a closure binds its parameters first, and goes on
    with the body if that succeeds. Only the parameters for which there is an argument count. The binding
    succeeds exactly if a strict closure has as many arguments as parameters, and these parameters are all
    symbols; the frame of the call is then as `Machine.Enters` says. A wrong number of arguments is what is
    refused first. Otherwise the first parameter that is no symbol is refused, if it can be shown; if it
    cannot, the host fails instead: the parameter is nested too deep, or in it is an integer of an embedding
    program that no double is near, or one with more digits than the host writes out. No failure changes
    anything. So a lenient closure drops the arguments that are too many. -/
theorem enterClosure_outcome (depth : Nat) (formals args : List Value) (strict : Bool)
    (label : Option Text) (scope : FrameId) (m : Machine) :
    let outcome := (enterClosure depth formals scope strict label args).on m
    let reached := formals.take (min formals.length args.length)
    (∀ ev body, callClosure depth ev formals body scope strict label args =
      (enterClosure depth formals scope strict label args >>= fun frame =>
        evalBody ev frame (.embedded .nothing) body)) ∧
    ((∃ frame, outcome.1 = .ok frame) ↔
      Counts strict formals args ∧ ∀ formal ∈ reached, ∃ name, formal = .symbol name) ∧
    (∀ frame, outcome.1 = .ok frame → frame = m.frames.size ∧
      ∃ names : List Text, reached = names.map .symbol ∧ m.Enters outcome.2 scope names args) ∧
    (¬ Counts strict formals args →
      outcome = (.error (.argument (.arity label formals.length args.length)), m)) ∧
    (Counts strict formals args → (¬ ∀ formal ∈ reached, ∃ name, formal = .symbol name) →
      ∃ (names : List Text) (formal : Value) (rest : List Value),
        reached = names.map .symbol ++ formal :: rest ∧ (∀ name, formal ≠ .symbol name) ∧
        ∃ fault, outcome = (.error fault, m) ∧
          ((∃ shown, formal.inspected depth = .ok shown ∧ fault = .argument (.parameter shown)) ∨
            formal.inspected depth = .error fault ∧
              (fault = .host .tooDeep ∨
                fault = .host .integerTooLarge ∧ ¬ formal.Everywhere Value.HasDouble ∨
                fault = .host .integerTooLong ∧ ¬ formal.Everywhere Value.HasDigits))) ∧
    ∀ n f body, apply n f (.closure formals body scope false label) args =
      apply n f (.closure formals body scope false label) (args.take formals.length) := by
  intro outcome reached
  have hreached : reached = formals.take args.length := by
    show formals.take (min formals.length args.length) = formals.take args.length
    rw [Nat.min_comm, ← List.take_eq_take_min]
  refine ⟨?body, ?succeeds, ?frame, ?mismatch, ?notSymbol, ?truncated⟩
  case body =>
    intro ev body
    exact callClosure_eq depth ev formals body scope strict label args
  case succeeds =>
    rw [hreached]
    constructor
    · rintro ⟨frame, hframe⟩
      obtain ⟨hcounts, _, names, hnames, _⟩ :=
        enters_of_on_enterClosure_eq_ok depth formals args strict label scope m hframe
      rw [hnames, List.forall_mem_map]
      exact ⟨hcounts, fun name _ => ⟨name, rfl⟩⟩
    · rintro ⟨hcounts, hsymbols⟩
      rcases eq_map_or_exists_first Value.symbol (formals.take args.length) with
        ⟨names, hnames⟩ | ⟨names, formal, rest, hformals, hformal⟩
      · obtain ⟨after, hafter, _⟩ :=
          on_enterClosure_of_symbols depth formals args strict label scope m hcounts hnames
        exact ⟨m.frames.size, congrArg Prod.fst hafter⟩
      · obtain ⟨name, hname⟩ := hsymbols formal (hformals ▸ List.mem_append_right _ List.mem_cons_self)
        exact absurd hname (hformal name)
  case frame =>
    intro frame hframe
    rw [hreached]
    exact (enters_of_on_enterClosure_eq_ok depth formals args strict label scope m hframe).2
  case mismatch =>
    exact on_enterClosure_of_not_counts depth formals args strict label scope m
  case notSymbol =>
    intro hcounts hsymbols
    rw [hreached] at hsymbols ⊢
    rcases eq_map_or_exists_first Value.symbol (formals.take args.length) with
      ⟨names, hnames⟩ | ⟨names, formal, rest, hformals, hformal⟩
    · rw [hnames, List.forall_mem_map] at hsymbols
      exact absurd (fun name _ => ⟨name, rfl⟩) hsymbols
    · obtain ⟨fault, hfault, hcases⟩ :=
        on_enterClosure_of_not_symbol depth formals args strict label scope m hcounts hformals hformal
      refine ⟨names, formal, rest, hformals, hformal, fault, hfault, ?_⟩
      rcases hcases with hshown | hwhy
      · exact .inl hshown
      · refine .inr ⟨hwhy, ?_⟩
        obtain ⟨why, hinspect, rfl⟩ := exists_of_mapError_eq_error hwhy
        simpa using Value.inspect_error_cases hinspect
  case truncated =>
    intro n f body
    exact callClosure_take n formals args label scope (eval n) body

/-- Of four parameters the first three are reached, and two of these have one name. -/
theorem enterClosure_outcome_repeated :
    let names : List Text := ["x", "y", "x"]
    let args : List Value := [.text "first", .text "second", .text "third"]
    let m := Machine.fresh false .texts
    let outcome := (enterClosure 9 (names.map .symbol ++ [.text "unreached"]) Machine.globalFrame false
      none args).on m
    outcome.1 = .ok 1 ∧ m.Enters outcome.2 Machine.globalFrame names args ∧
      outcome.2.local? "x" 1 = some (.text "third") := by
  intro names args m outcome
  obtain ⟨_, hsucceeds, hframe, _⟩ :=
    enterClosure_outcome 9 (names.map .symbol ++ [.text "unreached"]) args false none
      Machine.globalFrame m
  have hsymbols : ∀ formal ∈ names.map Value.symbol, ∃ name, formal = .symbol name :=
    List.forall_mem_map.2 fun name _ => ⟨name, rfl⟩
  obtain ⟨frame, hok⟩ := hsucceeds.2 ⟨nofun, hsymbols⟩
  obtain ⟨rfl, found, hfound, henters⟩ := hframe frame hok
  have hnames : names.map Value.symbol = found.map Value.symbol := hfound
  obtain rfl : names = found := List.map_injective_iff.2 (fun _ _ => Value.symbol.inj) hnames
  exact ⟨hok, henters, henters.local_eq ["x", "y"] "x" [] rfl List.not_mem_nil⟩

/-- A closure with an integer in it cannot be shown if no double is near the integer, and an integer alone if
    it has too many digits: as parameters they make the host fail. -/
example :
    let enter (formal : Value) :=
      ((enterClosure 9 [formal] Machine.globalFrame false none [.nil]).on (Machine.fresh false .texts)).1
    enter (.closure [.embedded (.int (10 ^ 309))] [.nil] Machine.globalFrame false none) =
        .error (.host .integerTooLarge) ∧
      enter (.embedded (.int (10 ^ 4300))) = .error (.host .integerTooLong) := by
  decide +kernel

end SmallLisp
