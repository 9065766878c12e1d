import SmallLisp.Proofs.Number.Double
import SmallLisp.Proofs.Number.Writing
import SmallLisp.Proofs.Source.Grammar
import SmallLisp.Proofs.Source.Kinds
import SmallLisp.Proofs.Source.Tokens
import SmallLisp.Value.Equal
import SmallLisp.Value.Printed

/-!
# `Proofs.Source.RoundTrip` — what is written as program text is read as the same value

`Value.render` writes numbers, texts, truth values, symbols and lists of these so that they can be read
again. The values for which this holds are the `Value.IsData` ones: a text or a symbol with a blank or a
parenthesis in it would fall apart into more tokens, and what is no number equals nothing, not even
itself. `readEach_render` is about any number of such values, written with spaces between them.

The proof has two halves that meet in `ReadsBack`. The text of a value splits into tokens in the same way
wherever it stands (`Scans`), and these tokens spell the value in the grammar (`Spells`).
-/

namespace SmallLisp

open Source
open CodePoint (char)

/-- **Values that can be read again.** -/
inductive Value.IsData : Value → Prop
  | number {x : Float} (h : x.isNaN = false) : IsData (.number x)
  | text {s : Text} (h : ∀ c ∈ s.toList, isAtomic c) : IsData (.text s)
  | truth (b : Bool) : IsData (.truth b)
  | symbol {name : Text} (hne : name ≠ "") (hatomic : ∀ c ∈ name.toList, isAtomic c)
      (h : ofAtom name = .symbol name) : IsData (.symbol name)
  | list {items : List Value} (h : ∀ v ∈ items, IsData v) : IsData (.list items)

/-! ## Atoms -/

/-- Does the character lie between the plus sign and the letter `z`, as all those of numbers in writing do? -/
def isMark (c : Char) : Bool := 0x2B ≤ c.toNat && c.toNat ≤ 0x7A

theorem isMark_iff {c : Char} : isMark c ↔ 0x2B ≤ c.toNat ∧ c.toNat ≤ 0x7A := by
  rw [isMark, Bool.and_eq_true, decide_eq_true_eq, decide_eq_true_eq]

/-- No parenthesis and no blank is among them. -/
theorem isAtomic_of_isMark {c : Char} (h : isMark c) : isAtomic c := by
  have hparenthesis : isParenthesis c = false := by
    have hopen : c ≠ '(' := by rintro rfl; cases h
    have hclose : c ≠ ')' := by rintro rfl; cases h
    simp [isParenthesis, hopen, hclose]
  have hblank : Text.isBlank c = false := by
    have hrange := isMark_iff.1 h
    have hcode : (char c).toNat = c.toNat := rfl
    simp only [Text.isBlank, hcode, Bool.or_eq_false_iff, Bool.and_eq_false_iff,
      decide_eq_false_iff_not, beq_eq_false_iff_ne]
    omega
  rw [isAtomic, hparenthesis, hblank]
  rfl

/-- A numeral with its sign is made of such characters. -/
theorem isMark_of_mem_spelling (s : Decimal.Spelling) (negative : Bool) :
    ∀ c ∈ Decimal.signText negative ++ s.text, isMark c := by
  have hmarks : ['-', '+', '.', 'e'].all isMark = true := rfl
  intro c hc
  rcases s.mem_text negative c hc with hdigit | hmark
  · have hrange := Decimal.toNat_of_isDigit hdigit
    exact isMark_iff.2 ⟨by omega, by omega⟩
  · exact List.all_eq_true.1 hmarks c hmark

theorem isMark_of_mem_programText (x : Float) : ∀ c ∈ (Decimal.programText x).toList, isMark c := by
  rcases Nat.lt_trichotomy (Decimal.Binary.ofFloat x).magnitude Decimal.infinity with hlt | heq | hgt
  · obtain ⟨s, negative, htext, _⟩ := Decimal.exists_spelling_programText hlt
    rw [htext]
    exact isMark_of_mem_spelling s negative
  · rw [Decimal.programText_infinite heq]
    cases (Decimal.Binary.ofFloat x).negative with
    | true => exact List.all_eq_true.1 rfl
    | false => exact List.all_eq_true.1 rfl
  · rw [Decimal.programText_undefined hgt]
    exact List.all_eq_true.1 rfl

/-- What a diagnostic shows of a double is made of such characters too. -/
theorem isMark_of_mem_diagnosticText (x : Float) :
    ∀ c ∈ (Decimal.diagnosticText x).toList, isMark c := by
  have hsign (negative : Bool) : ∀ c ∈ Decimal.signText negative, isMark c := by
    cases negative with
    | true => exact List.all_eq_true.1 rfl
    | false => exact fun c hc => absurd hc List.not_mem_nil
  unfold Decimal.diagnosticText
  generalize Decimal.Binary.ofFloat x = b
  show ∀ c ∈ (if Decimal.infinity < b.magnitude then "nan" else _).toList, isMark c
  split
  · exact List.all_eq_true.1 rfl
  · rename_i hle
    rw [String.toList_ofList]
    refine List.forall_mem_append.2 ⟨hsign b.negative, ?_⟩
    split
    · exact List.all_eq_true.1 rfl
    · rename_i hne
      split
      · exact List.all_eq_true.1 rfl
      · rename_i hzero
        have hlt := Nat.lt_of_le_of_ne (Nat.le_of_not_lt hle) hne
        obtain ⟨s, htext, _⟩ := Decimal.spells_shortest Decimal.diagnosticLayout hlt hzero
        rw [← htext]
        exact isMark_of_mem_spelling s false

/-- A string of such characters is made of characters of atoms. -/
theorem isAtomic_of_forall_isMark {s : String} (h : ∀ c ∈ s.toList, isMark c) :
    ∀ c ∈ (s : Text).toList, isAtomic c := by
  rw [Text.toList_ofString]
  exact List.forall_mem_map.2 fun c hc => isAtomic_of_isMark (h c hc)

/-- **The program text of a double is one atom**, also if the double is no number. -/
theorem isAtom_programText (x : Float) : IsAtom (Decimal.programText x) := by
  refine ⟨?_, isAtomic_of_forall_isMark (isMark_of_mem_programText x)⟩
  intro hempty
  have hnil : (Decimal.programText x).toList = [] :=
    List.map_eq_nil_iff.1 (congrArg Text.toList hempty)
  rcases Nat.lt_trichotomy (Decimal.Binary.ofFloat x).magnitude Decimal.infinity with hlt | heq | hgt
  · obtain ⟨s, negative, htext, _⟩ := Decimal.exists_spelling_programText hlt
    rw [hnil] at htext
    exact s.whole_ne (List.append_eq_nil_iff.1 (List.append_eq_nil_iff.1 htext.symm).2).1
  · rw [Decimal.programText_infinite heq] at hnil
    cases hnegative : (Decimal.Binary.ofFloat x).negative <;> rw [hnegative] at hnil <;> cases hnil
  · rw [Decimal.programText_undefined hgt] at hnil
    cases hnil

/-- **The program text of a number is read as that number.** -/
theorem ofAtom_programText {x : Float} (h : x.isNaN = false) :
    ∃ y, ofAtom (Decimal.programText x) = .number y ∧ (x == y) = true := by
  rcases Nat.lt_or_eq_of_le (Decimal.Binary.magnitude_le_infinity h) with hfinite | hinfinite
  · -- what is read has the magnitude of the double, and its sign unless it is a zero
    obtain ⟨s, negative, htext, hnearest, hnegative⟩ := Decimal.exists_spelling_programText hfinite
    refine ⟨(s.numeral negative).toFloat, ?_, ?_⟩
    · have hchars : Text.chars? (Decimal.programText x) = some (Decimal.programText x).toList :=
        Text.chars?_eq_some_iff.2 rfl
      unfold ofAtom numeral?
      rw [hchars, htext, Option.bind_some, s.read?_text]
    · unfold Decimal.Numeral.toFloat
      rw [s.magnitude_numeral, hnearest]
      exact Decimal.Binary.beq_toFloat h hnegative
  · refine ⟨Decimal.infinite (Decimal.Binary.ofFloat x).negative, ?_, ?_⟩
    · rw [Decimal.programText_infinite hinfinite]
      cases (Decimal.Binary.ofFloat x).negative <;> rfl
    · unfold Decimal.infinite
      rw [← hinfinite]
      exact Decimal.Binary.beq_toFloat h fun _ => rfl

theorem toList_quoted (s : Text) :
    ("\"" ++ s ++ "\"").toList = char '"' :: (s.toList ++ [char '"']) := by
  rw [Text.toList_append, Text.toList_append]
  rfl

/-- Characters between double quotes are read as a text. -/
theorem ofAtom_quoted (s : Text) : ofAtom ("\"" ++ s ++ "\"") = .text s := by
  rw [ofAtom_eq_text_iff, Kind.Has, toList_quoted]
  refine ⟨⟨?_, rfl, ?_⟩, ?_⟩
  · rw [List.length_cons, List.length_append]
    exact Nat.succ_le_succ (Nat.le_add_left _ _)
  · rw [← List.cons_append, List.getLast?_concat]
  · rw [List.tail_cons, List.dropLast_concat, Text.ofList_toList]

/-! ## Texts that are read back -/

/-- **The text of a value is read as an equal one**, in the midst of any text. -/
def ReadsBack (v : Value) (text : Text) : Prop :=
  ∃ tokens w, Scans text.toList tokens ∧ Spells tokens w ∧ w.nesting = v.nesting ∧ v.equal w = true

/-- The texts of values, with spaces between them, are read as equal ones. -/
def ReadsBackEach (vs : List Value) (texts : List Text) : Prop :=
  ∃ tokens ws, Scans (Text.intercalate " " texts).toList tokens ∧ SpellsEach tokens ws ∧
    Value.nestingEach ws = Value.nestingEach vs ∧ Value.equalEach vs ws = true

/-- An atom is read back if the atom stands for an equal value. -/
theorem readsBack_atom {v : Value} {text : Text} (hne : text ≠ "")
    (hatomic : ∀ c ∈ text.toList, isAtomic c) (hnesting : (ofAtom text).nesting = v.nesting)
    (hequal : v.equal (ofAtom text) = true) : ReadsBack v text := by
  have hlist : text.toList ≠ [] := fun h => hne (Text.toList_inj.1 h)
  have hparenthesis {c : CodePoint} (hc : isAtomic c = false) : text ≠ Text.ofList [c] := by
    rintro rfl
    have hmem : c ∈ (Text.ofList [c]).toList := by simp
    rw [hatomic c hmem] at hc
    cases hc
  refine ⟨[text], ofAtom text, ?_, .atom (hparenthesis rfl) (hparenthesis rfl), hnesting, hequal⟩
  have hscans := scans_atom hlist hatomic
  rwa [Text.ofList_toList] at hscans

/-- A list between parentheses is read back if its members are. -/
theorem ReadsBackEach.parenthesized {vs : List Value} {texts : List Text}
    (h : ReadsBackEach vs texts) : ReadsBack (.list vs) ("(" ++ Text.intercalate " " texts ++ ")") := by
  obtain ⟨tokens, ws, hscans, hspells, hnesting, hequal⟩ := h
  have htext : ("(" ++ Text.intercalate " " texts ++ ")").toList =
      char '(' :: ((Text.intercalate " " texts).toList ++ [char ')']) := by
    rw [Text.toList_append, Text.toList_append]
    rfl
  refine ⟨"(" :: (tokens ++ [(")" : Text)]), .list ws, ?_, .list hspells, ?_, ?_⟩
  · rw [htext]
    exact hscans.parenthesized
  · rw [Value.nesting, Value.nesting, hnesting]
  · rw [Value.equal]
    exact hequal

/-- Values are read back one after the other if each of them is. -/
theorem readsBackEach_of_forall {write : Value → Except HostFault Text} {vs : List Value}
    (h : ∀ v ∈ vs, ∃ text, write v = .ok text ∧ ReadsBack v text) :
    ∃ texts, vs.mapM write = .ok texts ∧ ReadsBackEach vs texts := by
  induction vs with
  | nil => exact ⟨[], rfl, [], [], fun _ _ => rfl, .nil, rfl, rfl⟩
  | cons v vs ih =>
    obtain ⟨⟨text, hwrite, first, w, hscans, hspells, hnesting, hequal⟩, hvs⟩ :=
      List.forall_mem_cons.1 h
    obtain ⟨texts, hwrites, tokens, ws, hscans', hspells', hnesting', hequal'⟩ := ih hvs
    refine ⟨text :: texts, ?_, first ++ tokens, w :: ws, ?_, .cons hspells hspells', ?_, ?_⟩
    · rw [List.mapM_cons, hwrite, hwrites]
      rfl
    · -- a space stands between two texts only
      cases texts with
      | nil =>
        rw [Text.intercalate_singleton, hscans'.eq_nil, List.append_nil]
        exact hscans
      | cons next texts =>
        rw [toList_intercalate_cons]
        exact hscans.space hscans'
    · rw [Value.nestingEach, Value.nestingEach, hnesting, hnesting']
    · rw [Value.equalEach, hequal, hequal']
      rfl

theorem length_eq_of_equalEach {vs ws : List Value} (h : Value.equalEach vs ws = true) :
    vs.length = ws.length := by
  induction vs generalizing ws with
  | nil =>
    cases ws with
    | nil => rfl
    | cons w ws => cases h
  | cons v vs ih =>
    cases ws with
    | nil => cases h
    | cons w ws =>
      rw [Value.equalEach, Bool.and_eq_true] at h
      rw [List.length_cons, List.length_cons, ih h.2]

/-- **Data are written so that they are read back**, with any limit above their nesting. -/
theorem render_readsBack {v : Value} (h : v.IsData) {depth : Nat} (hdepth : v.nesting < depth) :
    ∃ text, v.render depth = .ok text ∧ ReadsBack v text := by
  obtain ⟨depth, rfl⟩ : ∃ d, depth = d + 1 :=
    Nat.exists_eq_add_one_of_ne_zero (Nat.ne_of_gt (Nat.lt_of_le_of_lt (Nat.zero_le _) hdepth))
  -- on the data: the members of a list are written with one level less
  induction h generalizing depth with
  | @number x h =>
    obtain ⟨y, hy, hequal⟩ := ofAtom_programText h
    obtain ⟨hne, hatomic⟩ := isAtom_programText x
    refine ⟨Decimal.programText x, rfl, readsBack_atom hne hatomic ?_ ?_⟩
    · rw [hy]
      rfl
    · rw [hy]
      exact hequal
  | @text s h =>
    have hread := ofAtom_quoted s
    refine ⟨"\"" ++ s ++ "\"", rfl, readsBack_atom ?_ ?_ ?_ ?_⟩
    · intro hempty
      rw [hempty] at hread
      cases hread
    · rw [Text.toList_append, Text.toList_append]
      have hquote : ∀ c ∈ ("\"" : Text).toList, isAtomic c := List.all_eq_true.1 rfl
      exact List.forall_mem_append.2 ⟨List.forall_mem_append.2 ⟨hquote, h⟩, hquote⟩
    · rw [hread]
    · rw [hread]
      exact beq_self_eq_true s
  | truth b =>
    refine ⟨if b then "t" else "nil", rfl, ?_⟩
    cases b
    · exact readsBack_atom (by decide) (List.all_eq_true.1 rfl) rfl rfl
    · exact readsBack_atom (by decide) (List.all_eq_true.1 rfl) rfl rfl
  | @symbol name hne hatomic h =>
    refine ⟨name, rfl, readsBack_atom hne hatomic ?_ ?_⟩
    · rw [h]
    · rw [h]
      exact beq_self_eq_true name
  | @list items _ ih =>
    have hitems : ∀ v ∈ items, ∃ text, v.render depth = .ok text ∧ ReadsBack v text := by
      intro v hv
      rw [Value.nesting] at hdepth
      have hlt : v.nesting < depth :=
        Nat.lt_of_le_of_lt (nesting_le_of_mem hv) (Nat.lt_of_succ_lt_succ hdepth)
      obtain ⟨depth, rfl⟩ : ∃ d, depth = d + 1 :=
        Nat.exists_eq_add_one_of_ne_zero (Nat.ne_of_gt (Nat.lt_of_le_of_lt (Nat.zero_le _) hlt))
      exact ih v hv depth hlt
    obtain ⟨texts, hwrites, hread⟩ := readsBackEach_of_forall hitems
    refine ⟨"(" ++ Text.intercalate " " texts ++ ")", ?_, hread.parenthesized⟩
    rw [Value.render, hwrites]
    rfl

/-! ## The round trip -/

/-- **Print, then read.** The program texts of any values that are data, with spaces between them, are
    read as equal values, one after the other, and nothing is left. The values may be nested less deep
    than the limit of writing and reading. -/
theorem readEach_render {limit : Nat} {vs : List Value} (hdata : ∀ v ∈ vs, v.IsData)
    (hlimit : ∀ v ∈ vs, v.nesting < limit) :
    ∃ texts ws, vs.mapM (Value.render limit) = .ok texts ∧
      readEach limit vs.length (tokenize (Text.intercalate " " texts)) = (.ok ws, []) ∧
      Value.equalEach vs ws = true := by
  obtain ⟨texts, hwrites, tokens, ws, hscans, hspells, hnesting, hequal⟩ :=
    readsBackEach_of_forall fun v hv => render_readsBack (hdata v hv) (hlimit v hv)
  -- equal values are nested alike, so what can be written can be read with the same limit
  have hlimit' : Value.nestingEach ws ≤ limit :=
    hnesting ▸ nestingEach_le fun v hv => Nat.le_of_lt (hlimit v hv)
  have hall := readEach_spellsEach hspells hlimit' []
  rw [List.append_nil, ← length_eq_of_equalEach hequal] at hall
  exact ⟨texts, ws, hwrites, hscans.tokenize ▸ hall, hequal⟩

/-- A negative zero, a list of a text with a quote in it, a small fraction and the empty list, and a
    symbol. -/
theorem readEach_render_nested :
    let vs : List Value := [.number (Decimal.Binary.toFloat ⟨true, 0⟩),
      .list [.text "1\"2", .number (Float.ofBits 0x3E7AD7F29ABCAF48), .list []], .symbol "+"]
    (∀ v ∈ vs, v.IsData) ∧ (∀ v ∈ vs, v.nesting < 3) ∧
      ∃ texts ws, vs.mapM (Value.render 3) = .ok texts ∧
        readEach 3 3 (tokenize (Text.intercalate " " texts)) = (.ok ws, []) ∧
        Value.equalEach vs ws = true := by
  intro vs
  have hlist : ∀ v ∈ [.text "1\"2", .number (Float.ofBits 0x3E7AD7F29ABCAF48), .list []],
      Value.IsData v := by
    refine List.forall_mem_cons.2 ⟨.text (List.all_eq_true.1 rfl),
      List.forall_mem_cons.2 ⟨.number (by decide), ?_⟩⟩
    exact List.forall_mem_singleton.2 (.list nofun)
  have hdata : ∀ v ∈ vs, v.IsData := by
    refine List.forall_mem_cons.2 ⟨.number (by decide), List.forall_mem_cons.2 ⟨.list hlist, ?_⟩⟩
    exact List.forall_mem_singleton.2 (.symbol (by decide) (List.all_eq_true.1 rfl) rfl)
  have hnesting : ∀ v ∈ vs, v.nesting < 3 :=
    List.forall_mem_cons.2 ⟨by decide, List.forall_mem_cons.2 ⟨by decide,
      List.forall_mem_singleton.2 (by decide)⟩⟩
  exact ⟨hdata, hnesting, readEach_render hdata hnesting⟩

end SmallLisp
