import SmallLisp.Proofs.Number.Double
import SmallLisp.Proofs.Number.Language
import SmallLisp.Source.Atom

/-!
# `Proofs.Source.Kinds` — the kinds of atoms

An atom is a numeral, the name of an infinity, a text between double quotes, `nil` or `t`, and otherwise a
symbol. A kind is both the test that the reader makes (`Kind.value?`) and the tokens that pass it, described
without the test (`Kind.Has`, `Kind.isSome_value?_iff`).

No token is of two kinds (`Kind.Has.unique`). So whatever test a token passes gives its value, and the order
of the tests does not matter (`ofAtomBy_eq_ofAtom`).
-/

namespace SmallLisp.Source

open Decimal (Numeral)
open Decimal.Grammar (numerals isSome_read?_iff)

/-- **The kinds of atoms**, apart from symbols. -/
inductive Kind
  | numeral
  | infinity
  | text
  | nil
  | truth
  deriving DecidableEq

namespace Kind

/-- The kinds in the order in which the reader tests for them. -/
def all : List Kind := [numeral, infinity, text, nil, truth]

/-- The names of the infinities. -/
def infinities : List Text := ["Infinity", "+Infinity", "-Infinity"]

/-- The test for a kind: what an atom stands for if it is of that kind. -/
def value? (atom : Text) : Kind → Option Value
  | numeral => (numeral? atom).map fun n => .number n.toFloat
  | infinity => (infinity? atom).map .number
  | text => (unquote? atom).map .text
  | nil => if atom = "nil" then some .nil else none
  | truth => if atom = "t" then some (.truth true) else none

/-- **The atoms of a kind**, without the test. -/
def Has (atom : Text) : Kind → Prop
  | numeral => ∃ s ∈ numerals, atom = Text.ofList (s.map .char)
  | infinity => atom ∈ infinities
  | text => 2 ≤ atom.toList.length ∧ atom.toList.head? = some (.char '"') ∧
      atom.toList.getLast? = some (.char '"')
  | nil => atom = "nil"
  | truth => atom = "t"

end Kind

/-- An atom is tested for some kinds, one after the other, and is a symbol if it is of none. -/
def ofAtomBy (order : List Kind) (atom : Text) : Value :=
  (order.findSome? fun kind => kind.value? atom).getD (.symbol atom)

variable {atom : Text} {kind other : Kind}

/-! ## Tests and kinds -/

/-- Two quotes stand at the ends of what is unquoted, and the rest is between them. -/
theorem unquote?_eq_some_iff {inner : Text} :
    unquote? atom = some inner ↔ Kind.text.Has atom ∧ inner = .ofList atom.toList.tail.dropLast := by
  unfold unquote? Kind.Has
  split
  · rename_i rest hatom
    rw [hatom]
    cases rest with
    | nil => simp
    | cons c rest => simp [List.getLast?_cons_cons, eq_comm]
  · rename_i hopen
    constructor
    · nofun
    · rintro ⟨⟨_, hhead, _⟩, _⟩
      obtain ⟨rest, hrest⟩ := List.head?_eq_some_iff.1 hhead
      exact absurd hrest (hopen rest)

/-- Numerals have no surrogates. -/
theorem isSome_numeral?_iff : (numeral? atom).isSome ↔ Kind.numeral.Has atom := by
  rw [numeral?, Option.isSome_bind]
  simp only [Kind.Has, Option.any_eq_true, Text.chars?_eq_some_iff, isSome_read?_iff]
  exact exists_congr fun s => and_comm

namespace Kind

theorem mem_all (kind : Kind) : kind ∈ all := by
  cases kind <;> decide

theorem exists_iff {p : Kind → Prop} :
    (∃ kind, p kind) ↔ p numeral ∨ p infinity ∨ p text ∨ p nil ∨ p truth := by
  constructor
  · rintro ⟨kind, h⟩
    cases kind <;> simp [h]
  · rintro (h | h | h | h | h) <;> exact ⟨_, h⟩

/-- **The tests are exact.** -/
theorem isSome_value?_iff : (kind.value? atom).isSome ↔ kind.Has atom := by
  cases kind with
  | numeral => rw [value?, Option.isSome_map, isSome_numeral?_iff]
  | infinity =>
    rw [value?, Option.isSome_map, infinity?, Has]
    simp only [infinities, List.mem_cons, List.not_mem_nil, or_false]
    split
    · rename_i hplus
      exact ⟨fun _ => hplus.imp_right .inl, fun _ => rfl⟩
    · rename_i hplus
      split
      · rename_i hminus
        exact ⟨fun _ => .inr (.inr hminus), fun _ => rfl⟩
      · rename_i hminus
        refine ⟨nofun, ?_⟩
        rintro (h | h | h)
        · exact absurd (.inl h) hplus
        · exact absurd (.inr h) hplus
        · exact absurd h hminus
  | text =>
    rw [value?, Option.isSome_map, Option.isSome_iff_exists]
    simp only [unquote?_eq_some_iff, exists_and_left, exists_eq, and_true]
  | nil => simp [value?, Has]
  | truth => simp [value?, Has]

/-- An atom between quotes is of no other kind: it begins with a quote. -/
theorem Has.eq_text (h : text.Has atom) (hother : other.Has atom) : other = text := by
  obtain ⟨_, hquote, _⟩ := h
  have hhead {name : Text} (hname : name.toList.head? ≠ some (.char '"')) : atom ≠ name := by
    rintro rfl
    exact hname hquote
  cases other with
  | numeral =>
    obtain ⟨s, hs, rfl⟩ := hother
    obtain ⟨rest, rfl⟩ : ∃ rest, s = '"' :: rest := by
      cases s <;> simp_all
    have hread : (Numeral.read? ('"' :: rest)).isSome := (isSome_read?_iff _).2 hs
    cases hread
  | infinity =>
    have hnames : ∀ name ∈ infinities, name.toList.head? ≠ some (.char '"') := by
      decide
    exact absurd rfl (hhead (hnames atom hother))
  | text => rfl
  | nil => exact absurd hother (hhead (by decide))
  | truth => exact absurd hother (hhead (by decide))

/-- No test gives a symbol. -/
theorem value?_ne_symbol {name : Text} : kind.value? atom ≠ some (.symbol name) := by
  cases kind <;> simp [value?]

/-- An atom passes a test, or is of no kind. -/
theorem exists_value?_or (atom : Text) :
    (∃ (kind : Kind) (v : Value), kind.value? atom = some v) ∨ ∀ kind : Kind, ¬ kind.Has atom := by
  by_cases h : ∃ kind : Kind, kind.Has atom
  · obtain ⟨kind, hkind⟩ := h
    exact .inl ⟨kind, Option.isSome_iff_exists.1 (isSome_value?_iff.2 hkind)⟩
  · exact .inr (not_exists.1 h)

/-- Infinities and truth values have names, and each name is of one kind. -/
theorem eq_of_named (hatom : atom ∈ infinities ++ [("nil" : Text), "t"]) (h : kind.Has atom)
    (hother : other.Has atom) : kind = other := by
  have htests : ∀ name ∈ infinities ++ [("nil" : Text), "t"], ∀ kind ∈ all, ∀ other ∈ all,
      (kind.value? name).isSome → (other.value? name).isSome → kind = other := by
    decide
  exact htests atom hatom kind kind.mem_all other other.mem_all (isSome_value?_iff.2 h)
    (isSome_value?_iff.2 hother)

/-- **No atom is of two kinds.** -/
theorem Has.unique (h : kind.Has atom) (hother : other.Has atom) : kind = other := by
  have hnamed (kind : Kind) (h : kind.Has atom) :
      kind = numeral ∨ kind = text ∨ atom ∈ infinities ++ [("nil" : Text), "t"] := by
    cases kind with
    | numeral => exact .inl rfl
    | infinity => exact .inr (.inr (List.mem_append_left _ h))
    | text => exact .inr (.inl rfl)
    | nil => exact .inr (.inr (List.mem_append_right _ (List.mem_pair.2 (.inl h))))
    | truth => exact .inr (.inr (List.mem_append_right _ (List.mem_pair.2 (.inr h))))
  rcases hnamed kind h with rfl | rfl | hatom
  · rcases hnamed other hother with rfl | rfl | hatom
    · rfl
    · exact hother.eq_text h
    · exact eq_of_named hatom h hother
  · exact (h.eq_text hother).symm
  · exact eq_of_named hatom h hother

end Kind

/-! ## Tests in any order -/

/-- A test that an atom passes gives its value, if it is made at all. -/
theorem ofAtomBy_of_value? {order : List Kind} {v : Value} (hkind : kind ∈ order)
    (h : kind.value? atom = some v) : ofAtomBy order atom = v := by
  have hfound : (order.findSome? fun kind => kind.value? atom).isSome :=
    List.findSome?_isSome_iff.2 ⟨kind, hkind, by rw [h]; rfl⟩
  obtain ⟨w, hw⟩ := Option.isSome_iff_exists.1 hfound
  obtain ⟨other, -, hother⟩ := List.exists_of_findSome?_eq_some hw
  -- the test that was passed first is no other one
  have hsame : other = kind := by
    apply Kind.Has.unique
    · exact Kind.isSome_value?_iff.1 (Option.isSome_of_eq_some hother)
    · exact Kind.isSome_value?_iff.1 (Option.isSome_of_eq_some h)
  rw [ofAtomBy, hw, Option.getD_some]
  rw [hsame, h] at hother
  exact (Option.some.inj hother).symm

theorem ofAtomBy_of_not_has {order : List Kind} (h : ∀ kind : Kind, ¬ kind.Has atom) :
    ofAtomBy order atom = .symbol atom := by
  have hnone : (order.findSome? fun kind => kind.value? atom) = none := by
    apply List.findSome?_eq_none_iff.2
    intro kind _
    rw [← Option.not_isSome_iff_eq_none, Kind.isSome_value?_iff]
    exact h kind
  rw [ofAtomBy, hnone]
  rfl

/-- The reader makes the tests in one order. -/
theorem ofAtom_eq_ofAtomBy (atom : Text) : ofAtom atom = ofAtomBy Kind.all atom := by
  unfold ofAtom ofAtomBy Kind.all
  simp only [List.findSome?_cons, List.findSome?_nil, Kind.value?]
  cases numeral? atom with
  | some n => rfl
  | none =>
    cases infinity? atom with
    | some x => rfl
    | none =>
      cases unquote? atom with
      | some characters => rfl
      | none =>
        dsimp only [Option.map_none]
        split
        · rfl
        · split <;> rfl

/-- **Every order gives the same value.** -/
theorem ofAtomBy_eq_ofAtom {order : List Kind} (h : ∀ kind, kind ∈ order) (atom : Text) :
    ofAtomBy order atom = ofAtom atom := by
  rw [ofAtom_eq_ofAtomBy]
  rcases Kind.exists_value?_or atom with ⟨kind, v, hv⟩ | hnone
  · rw [ofAtomBy_of_value? (h kind) hv, ofAtomBy_of_value? kind.mem_all hv]
  · rw [ofAtomBy_of_not_has hnone, ofAtomBy_of_not_has hnone]

/-! ## What an atom stands for -/

/-- What is no symbol is given by a test. -/
theorem ofAtom_eq_iff {v : Value} (hv : ∀ name, v ≠ .symbol name) :
    ofAtom atom = v ↔ ∃ kind : Kind, kind.value? atom = some v := by
  rw [ofAtom_eq_ofAtomBy]
  constructor
  · rintro rfl
    rcases Kind.exists_value?_or atom with ⟨kind, v, hkind⟩ | hnone
    · exact ⟨kind, by rw [hkind, ofAtomBy_of_value? kind.mem_all hkind]⟩
    · exact absurd (ofAtomBy_of_not_has hnone) (hv atom)
  · rintro ⟨kind, h⟩
    exact ofAtomBy_of_value? kind.mem_all h

/-- What passes no test is a symbol. -/
theorem ofAtom_symbol_iff {name : Text} :
    ofAtom atom = .symbol name ↔ name = atom ∧ ∀ kind : Kind, ¬ kind.Has atom := by
  rw [ofAtom_eq_ofAtomBy]
  constructor
  · intro h
    rcases Kind.exists_value?_or atom with ⟨kind, v, hkind⟩ | hnone
    · rw [ofAtomBy_of_value? kind.mem_all hkind] at h
      exact absurd (h ▸ hkind) Kind.value?_ne_symbol
    · rw [ofAtomBy_of_not_has hnone] at h
      cases h
      exact ⟨rfl, hnone⟩
  · rintro ⟨rfl, h⟩
    exact ofAtomBy_of_not_has h

theorem exists_ofAtom_eq_number_iff :
    (∃ x, ofAtom atom = .number x) ↔ Kind.numeral.Has atom ∨ Kind.infinity.Has atom := by
  have hnumber (x : Float) :
      ofAtom atom = .number x ↔ ∃ kind : Kind, kind.value? atom = some (.number x) := ofAtom_eq_iff nofun
  simp only [hnumber, Kind.exists_iff, ← Kind.isSome_value?_iff, Option.isSome_iff_exists]
  simp [Kind.value?, exists_or]

/-- No atom stands for what is no number. -/
theorem isNaN_of_ofAtom_eq_number {x : Float} (h : ofAtom atom = .number x) : x.isNaN = false := by
  obtain ⟨kind, hkind⟩ := (ofAtom_eq_iff fun _ => Value.noConfusion).1 h
  cases kind with
  | numeral =>
    obtain ⟨n, -, hn⟩ := Option.map_eq_some_iff.1 hkind
    cases hn
    exact Decimal.Binary.isNaN_toFloat n.magnitude_le_infinity
  | infinity =>
    obtain ⟨y, hy, hx⟩ := Option.map_eq_some_iff.1 hkind
    cases hx
    have hinfinite (negative : Bool) : (Decimal.infinite negative).isNaN = false :=
      Decimal.Binary.isNaN_toFloat (Nat.le_refl _)
    unfold infinity? at hy
    split at hy
    · cases hy
      exact hinfinite false
    · split at hy
      · cases hy
        exact hinfinite true
      · cases hy
  | text => simp [Kind.value?] at hkind
  | nil => simp [Kind.value?] at hkind
  | truth => simp [Kind.value?] at hkind

theorem ofAtom_eq_text_iff {s : Text} :
    ofAtom atom = .text s ↔ Kind.text.Has atom ∧ s = .ofList atom.toList.tail.dropLast := by
  rw [ofAtom_eq_iff fun _ => Value.noConfusion, Kind.exists_iff]
  simp [Kind.value?, unquote?_eq_some_iff]

theorem ofAtom_eq_truth_iff {b : Bool} :
    ofAtom atom = .truth b ↔ b = false ∧ atom = "nil" ∨ b = true ∧ atom = "t" := by
  rw [ofAtom_eq_iff fun _ => Value.noConfusion, Kind.exists_iff]
  cases b <;> simp [Kind.value?]

/-- **The kinds of atoms.** For every token, an atom or not: it is read as a number exactly if it is a numeral
    or the name of an infinity, and that number is never the one that is no number; as a text exactly if it
    has at least two characters and a double quote at either end, and then as the characters between them; as
    a truth value exactly if it is `nil` or `t`; and as the symbol of that name exactly if it is of none of
    these kinds. No token is of two kinds, and the tests for them give the same value in every order. -/
theorem ofAtom_kinds (atom : Text) :
    ((∃ x, ofAtom atom = .number x) ↔
      (∃ s ∈ numerals, atom = .ofList (s.map .char)) ∨
        atom ∈ [("Infinity" : Text), "+Infinity", "-Infinity"]) ∧
    (∀ x, ofAtom atom = .number x → x.isNaN = false) ∧
    (∀ s, ofAtom atom = .text s ↔
      (2 ≤ atom.toList.length ∧ atom.toList.head? = some (.char '"') ∧
          atom.toList.getLast? = some (.char '"')) ∧
        s = .ofList atom.toList.tail.dropLast) ∧
    (ofAtom atom = .nil ↔ atom = "nil") ∧ (ofAtom atom = .truth true ↔ atom = "t") ∧
    (∀ name, ofAtom atom = .symbol name ↔ name = atom ∧ ∀ kind : Kind, ¬ kind.Has atom) ∧
    (∀ kind other : Kind, kind.Has atom → other.Has atom → kind = other) ∧
    ∀ order : List Kind, (∀ kind, kind ∈ order) → ofAtomBy order atom = ofAtom atom := by
  refine ⟨exists_ofAtom_eq_number_iff, fun x => isNaN_of_ofAtom_eq_number, fun s => ofAtom_eq_text_iff, ?_, ?_,
    fun name => ofAtom_symbol_iff, fun kind other => Kind.Has.unique, fun order h => ofAtomBy_eq_ofAtom h atom⟩
  · simp [ofAtom_eq_truth_iff]
  · simp [ofAtom_eq_truth_iff]

/-- An exponent without digits and a lone quote are symbols, also if the tests are made the other way round. A
    mantissa that ends with its point and two quotes are none. -/
theorem ofAtom_kinds_near_misses :
    ofAtom "1.e" = .symbol "1.e" ∧ ofAtom "\"" = .symbol "\"" ∧ (∃ x, ofAtom "1.e5" = .number x) ∧
      ofAtom "\"\"" = .text "" ∧ ofAtomBy Kind.all.reverse "1.e" = .symbol "1.e" := by
  have hnone (atom : Text) (h : ∀ kind ∈ Kind.all, kind.value? atom = none) (kind : Kind) :
      ¬ kind.Has atom := by
    rw [← Kind.isSome_value?_iff, h kind kind.mem_all]
    nofun
  have hsymbol : ofAtom "1.e" = .symbol "1.e" :=
    ((ofAtom_kinds "1.e").2.2.2.2.2.1 _).2 ⟨rfl, hnone _ (by decide)⟩
  refine ⟨hsymbol, ((ofAtom_kinds "\"").2.2.2.2.2.1 _).2 ⟨rfl, hnone _ (by decide)⟩,
    (ofAtom_kinds "1.e5").1.2 (.inl ?_), ((ofAtom_kinds "\"\"").2.2.1 _).2 (by decide), ?_⟩
  · exact ⟨"1.e5".toList, (isSome_read?_iff _).1 (by decide), rfl⟩
  · rw [← hsymbol]
    apply (ofAtom_kinds "1.e").2.2.2.2.2.2.2
    exact fun kind => List.mem_reverse.2 kind.mem_all

end SmallLisp.Source
