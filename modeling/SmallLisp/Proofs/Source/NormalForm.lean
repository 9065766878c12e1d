import SmallLisp.Proofs.Session.ReadBack

/-!
# `Proofs.Source.NormalForm` — what is read, and how it is written

The values that are read are those built of numbers, truth values, texts of one word, symbols and lists
(`Value.IsReadable`): nothing else is read (`isReadable_of_read`), and every one of them is read from its
program text (`Value.IsReadable.exists_read`). So the program text of what was read is a normal form: it is
read as an equal value, which is written the same (`read_normal_form`).

A symbol is a token that is no atom of another kind (`ofAtom_eq_symbol_iff`).
-/

namespace SmallLisp

open Source

namespace Source

/-- **A token that names a symbol**: it is no numeral, no infinity, not between double quotes, and neither
    `nil` nor `t`. -/
structure NamesSymbol (token : Text) : Prop where
  atom : IsAtom token
  numeral : numeral? token = none
  infinity : token ∉ [("Infinity" : Text), "+Infinity", "-Infinity"]
  quoted : ∀ s : Text, token ≠ "\"" ++ s ++ "\""
  truth : token ∉ [("nil" : Text), "t"]

/-- What is unquoted stood between two double quotes. -/
theorem eq_quoted_of_unquote? {token characters : Text} (h : unquote? token = some characters) :
    token = "\"" ++ characters ++ "\"" := by
  rw [← Text.toList_inj, toList_quoted]
  unfold unquote? at h
  split at h
  · rename_i rest hopen
    split at h
    · rename_i hclose
      cases h
      rw [hopen, Text.toList_ofList, List.dropLast_append_getLast? (CodePoint.char '"') hclose]
    · cases h
  · cases h

/-- **An atom is a symbol unless it is of another kind.** -/
theorem ofAtom_eq_symbol_iff {token : Text} (hatom : IsAtom token) :
    ofAtom token = .symbol token ↔ NamesSymbol token := by
  rw [ofAtom_symbol_iff]
  constructor
  · rintro ⟨-, hnone⟩
    refine ⟨hatom, ?_, hnone .infinity, ?_, ?_⟩
    · rw [← Option.not_isSome_iff_eq_none, isSome_numeral?_iff]
      exact hnone .numeral
    · rintro s rfl
      exact hnone .text (ofAtom_eq_text_iff.1 (ofAtom_quoted s)).1
    · intro hmem
      rcases List.mem_pair.1 hmem with hnil | htrue
      · exact hnone .nil hnil
      · exact hnone .truth htrue
  · intro h
    refine ⟨rfl, ?_⟩
    intro kind hkind
    cases kind with
    | numeral =>
      have hread := isSome_numeral?_iff.2 hkind
      rw [h.numeral] at hread
      cases hread
    | infinity => exact h.infinity hkind
    | text =>
      obtain ⟨inner, hinner⟩ := Option.isSome_iff_exists.1 (Kind.isSome_value?_iff.2 hkind)
      obtain ⟨characters, hunquote, -⟩ := Option.map_eq_some_iff.1 hinner
      exact h.quoted _ (eq_quoted_of_unquote? hunquote)
    | nil => exact h.truth (List.mem_pair.2 (.inl hkind))
    | truth => exact h.truth (List.mem_pair.2 (.inr hkind))

/-- Numerals and the names of the infinities stand for numbers. -/
theorem everywhere_isProper_ofAtom (token : Text) : (ofAtom token).Everywhere Value.IsProper := by
  rcases ofAtom_cases token with ⟨x, h⟩ | ⟨s, -, h⟩ | ⟨b, h⟩ | h
  · rw [h]
    exact Value.everywhere_number (isNaN_of_ofAtom_eq_number h)
  · rw [h]
    exact Value.everywhere_text trivial
  · rw [h]
    exact Value.everywhere_truth trivial
  · rw [h]
    exact Value.everywhere_symbol trivial

end Source

/-- **The values that are read**: numbers, truth values, texts without blanks and parentheses, symbols, and
    lists of these. -/
inductive Value.IsReadable : Value → Prop
  | number {x : Float} (h : x.isNaN = false) : IsReadable (.number x)
  | truth (b : Bool) : IsReadable (.truth b)
  | text {s : Text} (h : ∀ c ∈ s.toList, Text.isBlank c = false ∧ c ≠ '(' ∧ c ≠ ')') :
      IsReadable (.text s)
  | symbol {name : Text} (h : NamesSymbol name) : IsReadable (.symbol name)
  | list {items : List Value} (h : ∀ v ∈ items, IsReadable v) : IsReadable (.list items)

namespace Value

/-- A character of an atom is no blank and no parenthesis. -/
theorem isAtomic_iff {c : CodePoint} :
    isAtomic c = true ↔ Text.isBlank c = false ∧ c ≠ '(' ∧ c ≠ ')' := by
  simp [isAtomic, isParenthesis, and_comm]

/-- These are the values that can be read again. -/
theorem isReadable_iff_isData {v : Value} : v.IsReadable ↔ v.IsData := by
  constructor
  · intro h
    induction h with
    | number h => exact .number h
    | truth b => exact .truth b
    | text h => exact .text fun c hc => isAtomic_iff.2 (h c hc)
    | symbol h => exact .symbol h.atom.1 h.atom.2 ((ofAtom_eq_symbol_iff h.atom).2 h)
    | list _ ih => exact .list ih
  · intro h
    induction h with
    | number h => exact .number h
    | truth b => exact .truth b
    | text h => exact .text fun c hc => isAtomic_iff.1 (h c hc)
    | symbol hne hatomic h => exact .symbol ((ofAtom_eq_symbol_iff ⟨hne, hatomic⟩).1 h)
    | list _ ih => exact .list ih

/-- **Nothing else is read.** -/
theorem isReadable_of_read {limit : Nat} {source : Text} {v : Value}
    (h : Source.read limit source = .ok v) : v.IsReadable := by
  have hlexical := Interpreter.lexical_of_read h
  have hdata : v.Everywhere fun w => w.isFunction = false := by
    refine everywhere_read (q := fun w => w.isFunction = false) (fun _ => rfl) ?_ h
    intro token _
    exact everywhere_ofAtom (fun _ => rfl) (fun _ _ => rfl) (fun _ => rfl) fun _ => rfl
  have hproper : v.Everywhere IsProper :=
    everywhere_read (fun _ => trivial) (fun token _ => everywhere_isProper_ofAtom token) h
  rw [isReadable_iff_isData, ← asRead_eq_self v hproper]
  exact isData_asRead v hlexical hdata

/-- **A readable value is read from its program text**, and nothing of the text is left. The text is written
    within a limit above the nesting of the value, and can be read with one level less. -/
theorem IsReadable.exists_read {v : Value} (h : v.IsReadable) {depth limit : Nat} (hdepth : v.nesting < depth)
    (hlimit : v.nesting ≤ limit) :
    ∃ text w, v.render depth = .ok text ∧ readFirst limit (tokenize text) = (.ok w, []) ∧
      v.equal w = true := by
  obtain ⟨text, htext, tokens, w, hscans, hspells, hnesting, hequal⟩ :=
    render_readsBack (isReadable_iff_isData.1 h) hdepth
  have hfirst := readFirst_spells hspells (hnesting ▸ hlimit) []
  rw [List.append_nil, ← hscans.tokenize] at hfirst
  exact ⟨text, w, htext, hfirst, hequal⟩

end Value

namespace Source

/-- **Program text is a normal form of what is read.** Everything that is read is built of numbers, truth
    values, texts without blanks and parentheses, symbols, and lists, which are nested no deeper than the
    limit; and up to equality all such values are read. If what was read is nested less deep than the limit,
    it has a program text; the reader takes all tokens of this text for an equal value, and that has the same
    program text. -/
theorem read_normal_form (limit : Nat) :
    (∀ source v, read limit source = .ok v → v.IsReadable ∧ v.nesting ≤ limit ∧
      (v.nesting < limit → ∃ text w, v.render limit = .ok text ∧
        readFirst limit (tokenize text) = (.ok w, []) ∧ v.equal w = true ∧
        w.render limit = .ok text)) ∧
    ∀ v : Value, v.IsReadable → v.nesting ≤ limit →
      ∃ source w, read limit source = .ok w ∧ v.equal w = true := by
  constructor
  · intro source v hread
    have hv := Value.isReadable_of_read hread
    refine ⟨hv, nesting_le_of_read hread, ?_⟩
    intro hlimit
    obtain ⟨text, w, htext, hfirst, hequal⟩ := hv.exists_read hlimit (Nat.le_of_lt hlimit)
    have hagain : read limit text = .ok w := by rw [read, hfirst]
    refine ⟨text, w, htext, hfirst, hequal, ?_⟩
    have hw := Interpreter.lexical_of_read hagain
    rw [← Value.render_eq_of_equal (Value.isReadable_iff_isData.1 hv) hw hequal]
    exact htext
  · intro v hv hlimit
    obtain ⟨text, w, _, hfirst, hequal⟩ := hv.exists_read (Nat.lt_succ_of_le hlimit) hlimit
    refine ⟨text, w, ?_, hequal⟩
    rw [read, hfirst]

/-- A negative zero, a numeral that overflows, another script's digit, a lone quote, a text of nothing, a list
    in a list, and both truth values, with something after them. -/
theorem read_normal_form_odd :
    let source : Text := "(-0 1e999 \u0663. \" \"\" (+) nil t) x)"
    let normal : Text := "(0 Infinity 3 \" \"\" (+) nil t)"
    ∃ v w, read 3 source = .ok v ∧ v.IsReadable ∧ v.nesting < 3 ∧ v.render 3 = .ok normal ∧
      readFirst 3 (tokenize normal) = (.ok w, []) ∧ v.equal w = true ∧ w.render 3 = .ok normal := by
  intro source normal
  have hnormal : (read 3 source).toOption.map (fun v => (v.nesting, (v.render 3).toOption)) =
      some (2, some normal) := by
    decide +kernel
  cases hread : read 3 source with
  | error why =>
    rw [hread] at hnormal
    cases hnormal
  | ok v =>
    rw [hread] at hnormal
    obtain ⟨hnesting, hrender⟩ := Prod.mk.inj (Option.some.inj hnormal)
    have hlimit : v.nesting < 3 := by omega
    obtain ⟨hv, _, hwritten⟩ := (read_normal_form 3).1 source v hread
    obtain ⟨text, w, htext, hfirst, hequal, hagain⟩ := hwritten hlimit
    rw [htext] at hrender
    obtain rfl : text = normal := Option.some.inj hrender
    exact ⟨v, w, rfl, hv, hlimit, htext, hfirst, hequal, hagain⟩

end Source

end SmallLisp
