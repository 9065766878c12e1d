import Mathlib.Computability.Language
import SmallLisp.Proofs.Number.Spelling

/-!
# `Proofs.Number.Language` — the texts that are numerals

With `D` for the decimal digits of all scripts, the numerals are the words of
`[+-]?(D+(.D*)?|.D+)([eE][+-]?D+)?` (`Grammar.numerals`), and exactly these texts are read
(`Grammar.isSome_read?_iff`).

The reader takes what it can from the front and never goes back. Still it misses no word: no part of a word
begins with a character that the part before it could go on with. An exponent begins with neither a digit nor
a point (`Grammar.undigited_of_mem_exponent`), and what follows a sign begins with none
(`Grammar.unsigned_of_mem_mantissa`).
-/

namespace SmallLisp.Decimal

open SmallLisp.Text
open scoped Computability

/-! ## Words -/

/-- **A decimal digit**: one of the ten characters from a zero on. -/
def IsDecimal (c : Char) : Prop := ∃ first ∈ digitZeros, first ≤ c.toNat ∧ c.toNat < first + 10

theorem isDigit_iff {c : Char} : isDigit c ↔ IsDecimal c := by
  have hzero : 0x30 ∈ digitZeros := by decide
  have hzeros : ∀ first ∈ digitZeros, first = 0x30 ∨ 0x80 ≤ first := by decide
  unfold isDigit digit? IsDecimal
  split
  · -- no other script has a digit this low
    constructor
    · intro h
      split at h
      · exact ⟨0x30, hzero, by omega⟩
      · cases h
    · rintro ⟨first, hmem, hleast, hmost⟩
      rcases hzeros first hmem with rfl | hhigh
      · rw [if_pos (by omega)]
        rfl
      · omega
  · simp

namespace Grammar

/-- One of the characters. -/
def oneOf (cs : List Char) : Language Char := {s | ∃ c ∈ cs, s = [c]}

/-- `D` -/
def digit : Language Char := {s | ∃ c, IsDecimal c ∧ s = [c]}

/-- `D+` -/
def digits : Language Char := digit * digit∗

/-- `[+-]?` -/
def sign : Language Char := 1 + oneOf ['+', '-']

/-- `D+(.D*)?|.D+` -/
def mantissa : Language Char := digits * (1 + oneOf ['.'] * digit∗) + oneOf ['.'] * digits

/-- `([eE][+-]?D+)?` -/
def exponent : Language Char := 1 + oneOf ['e', 'E'] * (sign * digits)

/-- **The numerals**: `[+-]?(D+(.D*)?|.D+)([eE][+-]?D+)?` -/
def numerals : Language Char := sign * (mantissa * exponent)

variable {cs ds s : List Char} {l : Language Char}

theorem mem_oneOf_mul : s ∈ oneOf cs * l ↔ ∃ c ∈ cs, ∃ t ∈ l, s = c :: t := by
  rw [Language.mem_mul]
  constructor
  · rintro ⟨_, ⟨c, hc, rfl⟩, t, ht, rfl⟩
    exact ⟨c, hc, t, ht, rfl⟩
  · rintro ⟨c, hc, t, ht, rfl⟩
    exact ⟨[c], ⟨c, hc, rfl⟩, t, ht, rfl⟩

theorem mem_digit_kstar : s ∈ digit∗ ↔ ∀ c ∈ s, isDigit c := by
  rw [Language.mem_kstar]
  constructor
  · rintro ⟨words, rfl, hwords⟩ c hc
    obtain ⟨word, hword, hc⟩ := List.mem_flatten.1 hc
    obtain ⟨d, hd, rfl⟩ := hwords word hword
    rw [List.mem_singleton.1 hc]
    exact isDigit_iff.2 hd
  · intro h
    refine ⟨s.map fun c => [c], (List.flatMap_singleton' s).symm, ?_⟩
    intro word hword
    obtain ⟨c, hc, rfl⟩ := List.mem_map.1 hword
    exact ⟨c, isDigit_iff.1 (h c hc), rfl⟩

theorem mem_digits : s ∈ digits ↔ s ≠ [] ∧ ∀ c ∈ s, isDigit c := by
  rw [digits, Language.mem_mul]
  constructor
  · rintro ⟨_, ⟨c, hc, rfl⟩, t, ht, rfl⟩
    exact ⟨nofun, List.forall_mem_cons.2 ⟨isDigit_iff.2 hc, mem_digit_kstar.1 ht⟩⟩
  · rintro ⟨hne, h⟩
    obtain ⟨c, t, rfl⟩ := List.exists_cons_of_ne_nil hne
    obtain ⟨hc, ht⟩ := List.forall_mem_cons.1 h
    exact ⟨[c], ⟨c, isDigit_iff.1 hc, rfl⟩, t, mem_digit_kstar.2 ht, rfl⟩

/-- A mantissa is digits, or digits with a point among them or beside them. -/
theorem mem_mantissa : s ∈ mantissa ↔
    ∃ ds, (∀ c ∈ ds, isDigit c) ∧ (ds ≠ [] ∧ s = ds ∨
      ∃ fs, (∀ c ∈ fs, isDigit c) ∧ ¬ (ds = [] ∧ fs = []) ∧ s = ds ++ '.' :: fs) := by
  rw [mantissa, Language.mem_add, Language.mem_mul, mem_oneOf_mul]
  constructor
  · rintro (⟨ds, hds, _, hafter, rfl⟩ | ⟨c, hc, fs, hfs, rfl⟩)
    · obtain ⟨hne, hds⟩ := mem_digits.1 hds
      rcases hafter with rfl | hafter
      · exact ⟨ds, hds, .inl ⟨hne, List.append_nil ds⟩⟩
      · obtain ⟨c, hc, fs, hfs, rfl⟩ := mem_oneOf_mul.1 hafter
        obtain rfl := List.mem_singleton.1 hc
        exact ⟨ds, hds, .inr ⟨fs, mem_digit_kstar.1 hfs, fun hnone => hne hnone.1, rfl⟩⟩
    · obtain ⟨hne, hfs⟩ := mem_digits.1 hfs
      obtain rfl := List.mem_singleton.1 hc
      exact ⟨[], nofun, .inr ⟨fs, hfs, fun hnone => hne hnone.2, rfl⟩⟩
  · rintro ⟨ds, hds, ⟨hne, rfl⟩ | ⟨fs, hfs, hne, rfl⟩⟩
    · exact .inl ⟨s, mem_digits.2 ⟨hne, hds⟩, [], .inl rfl, List.append_nil s⟩
    · by_cases hempty : ds = []
      · subst hempty
        have hfraction : fs ≠ [] := fun h => hne ⟨rfl, h⟩
        exact .inr ⟨'.', List.mem_singleton_self _, fs, mem_digits.2 ⟨hfraction, hfs⟩, rfl⟩
      · have hafter : '.' :: fs ∈ oneOf ['.'] * digit∗ :=
          mem_oneOf_mul.2 ⟨'.', List.mem_singleton_self _, fs, mem_digit_kstar.2 hfs, rfl⟩
        exact .inl ⟨ds, mem_digits.2 ⟨hempty, hds⟩, _, .inr hafter, rfl⟩

/-! ## Where a part of a numeral ends -/

/-- A word begins with no sign. -/
def Unsigned (s : List Char) : Prop := ∀ c, s.head? = some c → c ≠ '-' ∧ c ≠ '+'

theorem unsigned_of_mem_digits (h : s ∈ digits) : Unsigned s := by
  intro c hc
  have hdigit := (mem_digits.1 h).2 c (List.mem_of_mem_head? hc)
  constructor
  · rintro rfl
    cases hdigit
  · rintro rfl
    cases hdigit

theorem unsigned_of_mem_mantissa (h : s ∈ mantissa * l) : Unsigned s := by
  obtain ⟨m, hm, t, -, rfl⟩ := Language.mem_mul.1 h
  obtain ⟨ds, hds, hm⟩ := mem_mantissa.1 hm
  cases ds with
  | nil =>
    rcases hm with ⟨hne, -⟩ | ⟨fs, -, -, rfl⟩
    · exact absurd rfl hne
    · rintro _ ⟨⟩
      decide
  | cons d ds =>
    have hfirst : d :: ds ∈ digits := mem_digits.2 ⟨nofun, hds⟩
    rcases hm with ⟨-, rfl⟩ | ⟨fs, -, -, rfl⟩
    all_goals
      rintro _ ⟨⟩
      exact unsigned_of_mem_digits hfirst d rfl

/-- Neither a digit nor a point begins an exponent. -/
theorem undigited_of_mem_exponent (h : s ∈ exponent) : Undigited s ∧ s.head? ≠ some '.' := by
  rcases h with rfl | h
  · exact ⟨nofun, nofun⟩
  · obtain ⟨c, hc, t, -, rfl⟩ := mem_oneOf_mul.1 h
    rcases List.mem_pair.1 hc with rfl | rfl
    all_goals
      refine ⟨?_, nofun⟩
      rintro _ ⟨⟩
      rfl

/-- Every text is digits, and then something that begins with no digit. -/
theorem exists_digits (s : List Char) :
    ∃ ds rest, s = ds ++ rest ∧ (∀ c ∈ ds, isDigit c) ∧ Undigited rest := by
  induction s with
  | nil => exact ⟨[], [], rfl, nofun, nofun⟩
  | cons c s ih =>
    cases hc : digit? c with
    | none =>
      refine ⟨[], c :: s, rfl, nofun, ?_⟩
      rintro _ ⟨⟩
      exact hc
    | some value =>
      obtain ⟨ds, rest, rfl, hds, hrest⟩ := ih
      refine ⟨c :: ds, rest, rfl, List.forall_mem_cons.2 ⟨?_, hds⟩, hrest⟩
      rw [isDigit, hc]
      rfl

/-! ## What is read -/

theorem filterMap_digit?_eq_nil_iff (hds : ∀ c ∈ ds, isDigit c) :
    ds.filterMap digit? = [] ↔ ds = [] := by
  constructor
  · intro h
    cases ds with
    | nil => rfl
    | cons c ds =>
      have hnone : digit? c = none := List.filterMap_eq_nil_iff.1 h c List.mem_cons_self
      have hdigit := hds c List.mem_cons_self
      rw [isDigit, hnone] at hdigit
      cases hdigit
  · rintro rfl
    rfl

/-- A sign is taken away, if there is one. -/
theorem splitSign_mem_iff (hl : ∀ w ∈ l, Unsigned w) : (Numeral.splitSign s).2 ∈ l ↔ s ∈ sign * l := by
  have hsign (c : Char) (hc : c ∈ ['+', '-']) : [c] ∈ sign := .inr ⟨c, hc, rfl⟩
  rw [Language.mem_mul]
  constructor
  · intro h
    unfold Numeral.splitSign at h
    split at h
    · exact ⟨['-'], hsign '-' (by decide), _, h, rfl⟩
    · exact ⟨['+'], hsign '+' (by decide), _, h, rfl⟩
    · exact ⟨[], .inl rfl, s, h, rfl⟩
  · rintro ⟨_, rfl | ⟨c, hc, rfl⟩, w, hw, rfl⟩
    · rw [List.nil_append, splitSign_eq (hl w hw)]
      exact hw
    · simp only [List.mem_cons, List.not_mem_nil, or_false] at hc
      rcases hc with rfl | rfl
      · exact hw
      · exact hw

/-- Digits up to the end of the text. -/
theorem splitDigits_eq_iff : (∃ d ds, Numeral.splitDigits s = (d :: ds, [])) ↔ s ∈ digits := by
  obtain ⟨ds, rest, rfl, hds, hrest⟩ := exists_digits s
  rw [splitDigits_append hds hrest, mem_digits]
  constructor
  · rintro ⟨d, values, heq⟩
    obtain ⟨hvalues, rfl⟩ := Prod.mk.inj heq
    rw [List.append_nil]
    refine ⟨?_, hds⟩
    rintro rfl
    cases hvalues
  · rintro ⟨hne, hall⟩
    -- what begins with no digit can only be empty
    have hend : rest = [] := by
      cases rest with
      | nil => rfl
      | cons c rest =>
        have hdigit := hall c (by simp)
        rw [isDigit, hrest c rfl] at hdigit
        cases hdigit
    subst hend
    rw [List.append_nil, ne_eq, ← filterMap_digit?_eq_nil_iff hds] at hne
    obtain ⟨d, values, heq⟩ := List.exists_cons_of_ne_nil hne
    exact ⟨d, values, by rw [heq]⟩

/-- **An exponent is read** if it is one, or missing. -/
theorem isSome_readExponent?_iff : (Numeral.readExponent? s).isSome ↔ s ∈ exponent := by
  rw [exponent, Language.mem_add, Language.mem_one, mem_oneOf_mul]
  cases s with
  | nil => exact ⟨fun _ => .inl rfl, fun _ => rfl⟩
  | cons c s =>
    have hsigned : s ∈ sign * digits ↔
        ∃ d ds, Numeral.splitDigits (Numeral.splitSign s).2 = (d :: ds, []) := by
      rw [splitDigits_eq_iff, splitSign_mem_iff fun w => unsigned_of_mem_digits]
    rw [Numeral.readExponent?]
    constructor
    · intro h
      split at h
      · rename_i hc
        refine .inr ⟨c, by simpa using hc, s, hsigned.2 ?_, rfl⟩
        cases hsign : Numeral.splitSign s with
        | mk negative unsigned =>
          rw [hsign] at h
          dsimp only at h
          split at h
          · rename_i heq
            exact ⟨_, _, heq⟩
          · cases h
      · cases h
    · rintro (h | ⟨e, he, t, ht, heq⟩)
      · cases h
      · obtain ⟨rfl, rfl⟩ := List.cons.inj heq
        obtain ⟨d, ds, hdigits⟩ := hsigned.1 ht
        rw [if_pos (by simpa using he)]
        simp only [hdigits]
        rfl

/-- **A mantissa is split off**, and leaves an exponent. -/
theorem splitPoint_mem_iff :
    ¬ ((Numeral.splitPoint s).1 = [] ∧ (Numeral.splitPoint s).2.1 = []) ∧
      (Numeral.splitPoint s).2.2 ∈ exponent ↔ s ∈ mantissa * exponent := by
  rw [Language.mem_mul]
  constructor
  · obtain ⟨ds, rest, rfl, hds, hrest⟩ := exists_digits s
    by_cases hpoint : rest.head? = some '.'
    · obtain ⟨after, rfl⟩ := List.head?_eq_some_iff.1 hpoint
      obtain ⟨fs, rest, rfl, hfs, hrest⟩ := exists_digits after
      rw [splitPoint_point hds hfs hrest, filterMap_digit?_eq_nil_iff hds, filterMap_digit?_eq_nil_iff hfs]
      rintro ⟨hne, hexponent⟩
      refine ⟨ds ++ '.' :: fs, mem_mantissa.2 ⟨ds, hds, .inr ⟨fs, hfs, hne, rfl⟩⟩, rest, hexponent, ?_⟩
      rw [List.append_assoc, List.cons_append]
    · rw [splitPoint_append hds hrest hpoint, filterMap_digit?_eq_nil_iff hds]
      rintro ⟨hne, hexponent⟩
      have hne : ds ≠ [] := fun h => hne ⟨h, rfl⟩
      exact ⟨ds, mem_mantissa.2 ⟨ds, hds, .inl ⟨hne, rfl⟩⟩, rest, hexponent, rfl⟩
  · rintro ⟨m, hm, rest, hexponent, rfl⟩
    obtain ⟨hrest, hpoint⟩ := undigited_of_mem_exponent hexponent
    obtain ⟨ds, hds, ⟨hne, rfl⟩ | ⟨fs, hfs, hne, rfl⟩⟩ := mem_mantissa.1 hm
    · rw [splitPoint_append hds hrest hpoint, filterMap_digit?_eq_nil_iff hds]
      exact ⟨fun h => hne h.1, hexponent⟩
    · rw [List.append_assoc, List.cons_append, splitPoint_point hds hfs hrest,
        filterMap_digit?_eq_nil_iff hds, filterMap_digit?_eq_nil_iff hfs]
      exact ⟨hne, hexponent⟩

/-- **Numerals are read, and nothing else.** -/
theorem isSome_read?_iff (s : List Char) : (Numeral.read? s).isSome ↔ s ∈ numerals := by
  rw [numerals, ← splitSign_mem_iff fun w => unsigned_of_mem_mantissa, ← splitPoint_mem_iff,
    ← isSome_readExponent?_iff]
  unfold Numeral.read?
  dsimp only
  split
  · rename_i hnone
    exact ⟨nofun, fun h => absurd hnone h.1⟩
  · rename_i hsome
    rw [Option.isSome_map]
    exact ⟨fun h => ⟨hsome, h⟩, And.right⟩

/-- Digits of another script, and a point that ends a mantissa; then letters, points, signs and underscores
    that belong to no numeral. -/
example :
    (Numeral.read? "+\u0663.e-\u0665".toList).isSome = true ∧
      ∀ s ∈ ["1e", ".", "+", "1_000", "1.2.3", ".e5", "1e+"], Numeral.read? s.toList = none := by
  decide

end Grammar

end SmallLisp.Decimal
