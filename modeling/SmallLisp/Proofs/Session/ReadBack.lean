import SmallLisp.Proofs.Session.Lexical
import SmallLisp.Proofs.Session.Room
import SmallLisp.Proofs.Source.RoundTrip

/-!
# `Proofs.Session.ReadBack` — reading what a session has written

Arithmetic can give what is no number: the difference of two infinities, say. It is written `nan`, which the
reader takes for a symbol. So the text of a value without functions is read as that value with this symbol in
the places that hold no number (`Value.asRead`). Since it is written like the value (`render_asRead`) and can
be read again (`isData_asRead`), the round trip of `Proofs.Source.RoundTrip` is that of all values of a
session.

The two are equal values just if the value has no such place (`everywhere_isProper_of_equal`).
-/

namespace SmallLisp

open Source

/-! ## What is no number -/

/-- The value is not the double that is no number. -/
def Value.IsProper : Value → Prop
  | .number x => x.isNaN = false
  | _ => True

theorem Decimal.programText_nan {x : Float} (h : x.isNaN = true) : Decimal.programText x = "nan" := by
  rw [Float.isNaN_eq_decide_eq_nan] at h
  obtain rfl := of_decide_eq_true h
  apply Decimal.programText_undefined
  decide

namespace Value

mutual

/-- **What is read where the value was written.** -/
def asRead : Value → Value
  | .number x => if x.isNaN then .symbol "nan" else .number x
  | .list items => .list (asReadEach items)
  | v => v

/-- What is read where the values were written. -/
def asReadEach : List Value → List Value
  | [] => []
  | v :: vs => v.asRead :: asReadEach vs

end

theorem asReadEach_eq_map (vs : List Value) : asReadEach vs = vs.map asRead := by
  induction vs with
  | nil => rfl
  | cons v vs ih => rw [asReadEach, ih, List.map_cons]

/-- What is read is written as the value was. -/
theorem render_asRead (depth : Nat) (v : Value) : v.asRead.render depth = v.render depth := by
  induction depth generalizing v with
  | zero => rfl
  | succ depth ih =>
    cases v with
    | number x =>
      rw [asRead]
      split
      · rename_i hnan
        rw [render, render, Decimal.programText_nan hnan]
      · rfl
    | list items =>
      rw [asRead, asReadEach_eq_map, render, render, List.mapM_map]
      have hsame : render depth ∘ asRead = render depth := funext ih
      rw [hsame]
    | _ => rfl

mutual

/-- **What is read can be read again**, for the values of a session that are no functions. -/
theorem isData_asRead : (v : Value) → v.Everywhere IsLexical →
    v.Everywhere (fun w => w.isFunction = false) → v.asRead.IsData
  | .number x, _, _ => by
    rw [asRead]
    split
    · exact .symbol (by decide) (List.all_eq_true.1 rfl) rfl
    · rename_i hnan
      exact .number (Bool.eq_false_iff.2 hnan)
  | .text _, hv, _ => .text hv.self
  | .truth b, _, _ => .truth b
  | .symbol _, hv, _ => .symbol hv.self.1.1 hv.self.1.2 hv.self.2
  | .list items, hv, hf =>
    .list (isData_asReadEach items (everywhere_list.1 hv).2 (everywhere_list.1 hf).2)
  | .primitive _, _, hf => nomatch hf.self
  | .special _, _, hf => nomatch hf.self
  | .closure .., _, hf => nomatch hf.self
  | .embedded _, hv, _ => hv.self.elim

theorem isData_asReadEach : (vs : List Value) → (∀ v ∈ vs, v.Everywhere IsLexical) →
    (∀ v ∈ vs, v.Everywhere fun w => w.isFunction = false) → ∀ v ∈ asReadEach vs, v.IsData
  | [], _, _ => nofun
  | v :: vs, hv, hf =>
    List.forall_mem_cons.2 ⟨isData_asRead v (hv v List.mem_cons_self) (hf v List.mem_cons_self),
      isData_asReadEach vs (fun w hw => hv w (List.mem_cons_of_mem v hw))
        fun w hw => hf w (List.mem_cons_of_mem v hw)⟩

end

mutual

/-- A value without such a place is read as it is. -/
theorem asRead_eq_self : (v : Value) → v.Everywhere IsProper → v.asRead = v
  | .number x, h => by
    have hx : x.isNaN = false := h.self
    rw [asRead, hx]
    rfl
  | .list items, h => by rw [asRead, asReadEach_eq_self items (everywhere_list.1 h).2]
  | .text _, _ | .truth _, _ | .symbol _, _ | .primitive _, _ | .special _, _ | .closure .., _
  | .embedded _, _ => rfl

theorem asReadEach_eq_self : (vs : List Value) → (∀ v ∈ vs, v.Everywhere IsProper) →
    asReadEach vs = vs
  | [], _ => rfl
  | v :: vs, h => by
    rw [asReadEach, asRead_eq_self v (h v List.mem_cons_self),
      asReadEach_eq_self vs fun w hw => h w (List.mem_cons_of_mem v hw)]

end

/-! ## Equal values -/

mutual

/-- What is no number equals no value of a source text, so what equals one has no such place. -/
theorem everywhere_isProper_of_equal : (v w : Value) → w.Everywhere IsLexical → v.equal w = true →
    v.Everywhere IsProper
  | .number x, w, hw, h => by
    cases w with
    | number y =>
      apply everywhere_number
      show x.isNaN = false
      rw [equal] at h
      rw [Float.isNaN_eq_decide_eq_nan]
      exact decide_eq_false (Float.beq_iff_ne_nan_and_eq.1 h).1
    | embedded e => exact hw.self.elim
    | _ => cases h
  | .list items, w, hw, h => by
    cases w with
    | list others =>
      rw [equal] at h
      exact everywhere_list.2
        ⟨trivial, everywhere_isProper_of_equalEach items others (everywhere_list.1 hw).2 h⟩
    | _ => cases h
  | .text _, _, _, _ => everywhere_text trivial
  | .truth _, _, _, _ => everywhere_truth trivial
  | .symbol _, _, _, _ => everywhere_symbol trivial
  | .primitive _, _, _, _ => everywhere_primitive trivial
  | .special _, _, _, _ => everywhere_special trivial
  | .closure .., w, _, h => by cases w <;> cases h
  | .embedded e, w, _, _ => by
    intro u hu
    cases hu
    trivial

theorem everywhere_isProper_of_equalEach : (vs ws : List Value) →
    (∀ w ∈ ws, w.Everywhere IsLexical) → equalEach vs ws = true →
    ∀ v ∈ vs, v.Everywhere IsProper
  | [], _, _, _ => nofun
  | v :: vs, ws, hws, h => by
    cases ws with
    | nil => cases h
    | cons w ws =>
      rw [equalEach, Bool.and_eq_true] at h
      obtain ⟨hw, hws⟩ := List.forall_mem_cons.1 hws
      exact List.forall_mem_cons.2
        ⟨everywhere_isProper_of_equal v w hw h.1, everywhere_isProper_of_equalEach vs ws hws h.2⟩

end

theorem mapM_eq_of_equalEach {α ε : Type} {write : Value → Except ε α} {vs ws : List Value}
    (h : equalEach vs ws = true) (hwrite : ∀ v ∈ vs, ∀ w ∈ ws, v.equal w = true → write v = write w) :
    vs.mapM write = ws.mapM write := by
  induction vs generalizing ws with
  | nil =>
    cases ws with
    | nil => rfl
    | cons w ws => cases h
  | cons v vs ih =>
    cases ws with
    | nil => cases h
    | cons w ws =>
      rw [equalEach, Bool.and_eq_true] at h
      have hrest : vs.mapM write = ws.mapM write := by
        apply ih h.2
        intro v' hv' w' hw'
        exact hwrite v' (List.mem_cons_of_mem v hv') w' (List.mem_cons_of_mem w hw')
      rw [List.mapM_cons, List.mapM_cons, hrest,
        hwrite v List.mem_cons_self w List.mem_cons_self h.1]

/-- Equal numbers are written the same, and so are the two zeros. -/
theorem programText_eq_of_beq {x y : Float} (h : (x == y) = true) :
    Decimal.programText x = Decimal.programText y := by
  have hzeros : Decimal.programText 0 = Decimal.programText (-0) := rfl
  obtain ⟨_, _, rfl | ⟨rfl, rfl⟩ | ⟨rfl, rfl⟩⟩ := Float.beq_iff_ne_nan_and_eq.1 h
  · rfl
  · exact hzeros
  · exact hzeros.symm

/-- **Equal data are written the same.** -/
theorem render_eq_of_equal {v w : Value} (hv : v.IsData) (hw : w.Everywhere IsLexical)
    (h : v.equal w = true) (depth : Nat) : v.render depth = w.render depth := by
  induction hv generalizing w depth with
  | @number x hx =>
    cases depth with
    | zero => rfl
    | succ depth =>
      cases w with
      | number y =>
        rw [equal] at h
        rw [render, render, programText_eq_of_beq h]
      | embedded e => exact hw.self.elim
      | _ => cases h
  | @text s hs =>
    cases w with
    | text t =>
      rw [equal] at h
      rw [beq_iff_eq.1 h]
    | _ => cases h
  | truth b =>
    cases w with
    | truth c =>
      rw [equal] at h
      rw [beq_iff_eq.1 h]
    | _ => cases h
  | @symbol name hne hatomic hread =>
    cases w with
    | symbol other =>
      rw [equal] at h
      rw [beq_iff_eq.1 h]
    | _ => cases h
  | @list items hitems ih =>
    cases depth with
    | zero => rfl
    | succ depth =>
      cases w with
      | list others =>
        rw [equal] at h
        have hparts : items.mapM (render depth) = others.mapM (render depth) := by
          apply mapM_eq_of_equalEach h
          intro item hitem other hother hequal
          exact ih item hitem ((everywhere_list.1 hw).2 other hother) hequal depth
        rw [render, render, hparts]
      | _ => cases h

/-! ## Lists of numbers -/

/-- The number that the value is. -/
def number? : Value → Option Float
  | .number x => some x
  | _ => none

/-- The numbers of a list of numbers. -/
def numbers? : Value → Option (List Float)
  | .list items => items.mapM number?
  | _ => none

theorem eq_number_of_number? {v : Value} {x : Float} (h : v.number? = some x) : v = .number x := by
  cases v with
  | number y => exact congrArg Value.number (Option.some.inj h)
  | _ => cases h

/-- A list of numbers is the list of its numbers. -/
theorem eq_list_of_numbers? {v : Value} {xs : List Float} (h : v.numbers? = some xs) :
    v = .list (xs.map .number) := by
  cases v with
  | list items =>
    rw [numbers?] at h
    congr 1
    induction items generalizing xs with
    | nil =>
      cases h
      rfl
    | cons v vs ih =>
      rw [List.mapM_cons] at h
      obtain ⟨x, hx, hrest⟩ := Option.bind_eq_some_iff.1 h
      obtain ⟨xs, hxs, hcons⟩ := Option.bind_eq_some_iff.1 hrest
      cases hcons
      rw [eq_number_of_number? hx, ih hxs, List.map_cons]
  | _ => cases h

/-! ## The round trip -/

/-- What was written within a limit is nested no deeper than the limit. -/
theorem nesting_le_of_render {depth : Nat} {v : Value} {text : Text}
    (h : v.render depth = .ok text) : v.nesting ≤ depth := by
  induction depth generalizing v text with
  | zero => cases h
  | succ depth ih =>
    cases v with
    | list items =>
      obtain ⟨parts, hparts, _⟩ := exists_of_render_list h
      rw [nesting]
      apply Nat.succ_le_succ
      apply nestingEach_le
      intro item hitem
      obtain ⟨part, _, hpart⟩ := (exists_of_mem_mapM hparts).1 item hitem
      exact ih hpart
    | _ => exact Nat.zero_le _

/-- **What was written is read**, as a value that is written the same. -/
theorem exists_read_of_render {limit : Nat} {v : Value} {text : Text}
    (hlexical : v.Everywhere IsLexical) (hdata : v.Everywhere fun w => w.isFunction = false)
    (h : v.render limit = .ok text) :
    ∃ w, Source.read limit text = .ok w ∧ w.render limit = .ok text ∧ v.asRead.equal w = true ∧
      (v.equal w = true ↔ v.Everywhere IsProper) := by
  have hread := isData_asRead v hlexical hdata
  rw [← render_asRead] at h
  have hnesting := nesting_le_of_render h
  -- an empty list can lie as deep as the limit; with one level more the text is the same
  have hmore : v.asRead.render (limit + 1) = .ok text := by
    rcases render_roomier (Nat.le_succ limit) v.asRead with hdeep | hmore
    · rw [h] at hdeep
      cases hdeep
    · rw [hmore, h]
  obtain ⟨text', htext', tokens, w, hscans, hspells, hsame, hequal⟩ :=
    render_readsBack hread (Nat.lt_succ_of_le hnesting)
  rw [hmore] at htext'
  obtain rfl := Except.ok.inj htext'
  have hparsed : Source.read limit text = .ok w := by
    have hfirst := readFirst_spells hspells (hsame ▸ hnesting) []
    rw [List.append_nil] at hfirst
    rw [Source.read, hscans.tokenize, hfirst]
  have hw := Interpreter.lexical_of_read hparsed
  refine ⟨w, hparsed, ?_, hequal, ?_, ?_⟩
  · rw [← render_eq_of_equal hread hw hequal]
    exact h
  · exact everywhere_isProper_of_equal v w hw
  · intro hproper
    rw [asRead_eq_self v hproper] at hequal
    exact hequal

end Value

namespace Interpreter

variable {strict : Bool} {output : Stream} {i : Interpreter}

/-- **The values of a session can be read back, but for what is no number.** In every session, the text of the
    value of a source text, if there is no function in the value, is read as a value that is written the same.
    That value equals the one that was written with the symbol `nan` in place of all that is no number, so
    everything else has the same kind, and numbers are the same. It equals the very value that was written
    just if there was nothing to replace. -/
theorem evalToText_reads_back (h : i.Reachable strict output) {source : Text} {v : Value}
    (hv : (i.evalSource source).1 = .ok v) (hdata : v.Everywhere fun w => w.isFunction = false)
    {text : Text} (htext : (i.evalToText source).1 = .ok text) :
    ∃ w, Source.read i.limit text = .ok w ∧ w.render i.limit = .ok text ∧ v.asRead.equal w = true ∧
      (v.equal w = true ↔ v.Everywhere Value.IsProper) := by
  rw [evalToText_fst, hv] at htext
  exact Value.exists_read_of_render (lexical_of_evalSource h hv) hdata
    (mapError_eq_ok.1 (mapError_eq_ok.1 htext))

/-- The difference of two infinities, in a list, is read as a symbol. -/
theorem evalToText_reads_back_nan :
    ∃ x y w, ((fresh true .texts).evalSource "(list (- Infinity Infinity) 1)").1 =
        .ok (.list [.number x, .number y]) ∧ x.isNaN = true ∧
      Source.read nestingLimit "(nan 1)" = .ok w ∧
      (Value.list [.symbol "nan", .number y]).equal w = true ∧
      (Value.list [.number x, .number y]).equal w = false := by
  have hnumbers : ((fresh true .texts).evalSource "(list (- Infinity Infinity) 1)").1.toOption.bind
      Value.numbers? = some [0 / 0, 1] := by
    decide +kernel
  have htext : ((fresh true .texts).evalToText "(list (- Infinity Infinity) 1)").1 = .ok "(nan 1)" := by
    decide +kernel
  have hx : (0 / 0 : Float).isNaN = true := by decide +kernel
  have hy : (1 : Float).isNaN = false := by decide +kernel
  generalize (0 / 0 : Float) = x, (1 : Float) = y at hx hy hnumbers
  have hvalue : ((fresh true .texts).evalSource "(list (- Infinity Infinity) 1)").1 =
      .ok (.list [.number x, .number y]) := by
    generalize ((fresh true .texts).evalSource "(list (- Infinity Infinity) 1)").1 = outcome at hnumbers ⊢
    cases outcome with
    | ok v => exact congrArg Except.ok (Value.eq_list_of_numbers? hnumbers)
    | error fault => cases hnumbers
  have hdata : (Value.list [.number x, .number y]).Everywhere fun w => w.isFunction = false := by
    refine Value.everywhere_list.2 ⟨rfl, List.forall_mem_cons.2 ⟨Value.everywhere_number rfl, ?_⟩⟩
    exact List.forall_mem_singleton.2 (Value.everywhere_number rfl)
  obtain ⟨w, hread, _, hequal, hproper⟩ := evalToText_reads_back .fresh hvalue hdata htext
  refine ⟨x, y, w, hvalue, hx, hread, ?_, ?_⟩
  · have hasRead : (Value.list [.number x, .number y]).asRead =
        .list [.symbol "nan", .number y] := by
      simp only [Value.asRead, Value.asReadEach, hx, hy, if_true, Bool.false_eq_true, if_false]
    rw [← hasRead]
    exact hequal
  · apply Bool.eq_false_iff.2
    intro h
    -- the first member is no number
    have hfirst := (Value.everywhere_list.1 (hproper.1 h)).2 (.number x) List.mem_cons_self
    have hnumber : x.isNaN = false := hfirst.self
    rw [hx] at hnumber
    cases hnumber

end Interpreter

end SmallLisp
