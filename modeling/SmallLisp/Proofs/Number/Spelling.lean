import Mathlib.Data.List.Basic
import SmallLisp.Decimal.Text
import SmallLisp.Proofs.Number.Numeral

/-!
# `Proofs.Number.Spelling` — numerals in writing and what is read from them

A `Spelling` is the text of a numeral as its parts: digits, a point with more digits, an exponent. Reading
such a text finds exactly these parts (`Spelling.read?_text`), and the magnitude that comes of them is the
closest one to the decimal that they spell (`Spelling.magnitude_numeral`).
-/

namespace SmallLisp.Decimal

open SmallLisp.Text

/-! ## Digits in writing -/

/-- The value of a digit from `0` to `9`. -/
def digitValue (c : Char) : Nat := c.toNat - '0'.toNat

theorem toNat_of_isDigit {c : Char} (h : c.isDigit) : 0x30 ≤ c.toNat ∧ c.toNat ≤ 0x39 := by
  simp only [Char.isDigit, Bool.and_eq_true, decide_eq_true_eq] at h
  exact h

theorem digit?_of_isDigit {c : Char} (h : c.isDigit) : digit? c = some (digitValue c) := by
  have hrange := toNat_of_isDigit h
  unfold digit? digitValue
  rw [if_pos (by omega), if_pos hrange]
  rfl

theorem digitValue_lt {c : Char} (h : c.isDigit) : digitValue c < 10 := by
  have hrange := toNat_of_isDigit h
  have hzero : '0'.toNat = 0x30 := rfl
  unfold digitValue
  omega

/-- Digits in writing spell the number that the library reads. -/
theorem natOfDigits_map (ds : List Char) :
    natOfDigits (ds.map digitValue) = Nat.ofDigitChars 10 ds 0 := by
  unfold natOfDigits Nat.ofDigitChars
  rw [List.foldl_map]
  rfl

/-- No digit begins the text. -/
def Undigited (rest : List Char) : Prop := ∀ c, rest.head? = some c → digit? c = none

variable {ds fs rest : List Char}

/-- Digits at the front are split off. -/
theorem splitDigits_append (hds : ∀ c ∈ ds, isDigit c) (hrest : Undigited rest) :
    Numeral.splitDigits (ds ++ rest) = (ds.filterMap digit?, rest) := by
  induction ds with
  | nil =>
    cases rest with
    | nil => rfl
    | cons c rest =>
      rw [List.nil_append, Numeral.splitDigits, hrest c rfl]
      rfl
  | cons c ds ih =>
    obtain ⟨hc, hds⟩ := List.forall_mem_cons.1 hds
    obtain ⟨digit, hdigit⟩ := Option.isSome_iff_exists.1 hc
    rw [List.cons_append, Numeral.splitDigits, hdigit, ih hds, List.filterMap_cons_some hdigit]

/-- Digits without a point after them. -/
theorem splitPoint_append (hds : ∀ c ∈ ds, isDigit c) (hrest : Undigited rest)
    (hpoint : rest.head? ≠ some '.') :
    Numeral.splitPoint (ds ++ rest) = (ds.filterMap digit?, [], rest) := by
  unfold Numeral.splitPoint
  rw [splitDigits_append hds hrest]
  split
  · rename_i heq
    cases heq
    exact absurd rfl hpoint
  · rename_i heq
    cases heq
    rfl

/-- Digits before and after a point. -/
theorem splitPoint_point (hds : ∀ c ∈ ds, isDigit c) (hfs : ∀ c ∈ fs, isDigit c)
    (hrest : Undigited rest) :
    Numeral.splitPoint (ds ++ '.' :: (fs ++ rest)) = (ds.filterMap digit?, fs.filterMap digit?, rest) := by
  have hpoint : Undigited ('.' :: (fs ++ rest)) := by
    rintro c ⟨⟩
    rfl
  simp only [Numeral.splitPoint, splitDigits_append hds hpoint, splitDigits_append hfs hrest]

/-- The digits from `0` to `9` are digits. -/
theorem isDigit_of_ascii (hds : ∀ c ∈ ds, c.isDigit) : ∀ c ∈ ds, isDigit c := by
  intro c hc
  rw [isDigit, digit?_of_isDigit (hds c hc)]
  rfl

theorem filterMap_digit? (hds : ∀ c ∈ ds, c.isDigit) : ds.filterMap digit? = ds.map digitValue :=
  List.filterMap_eq_map_iff_forall_eq_some.2 fun c hc => digit?_of_isDigit (hds c hc)

/-- A text that begins with no sign is left whole. -/
theorem splitSign_eq {s : List Char} (h : ∀ c, s.head? = some c → c ≠ '-' ∧ c ≠ '+') :
    Numeral.splitSign s = (false, s) := by
  unfold Numeral.splitSign
  split
  · exact absurd rfl (h '-' rfl).1
  · exact absurd rfl (h '+' rfl).2
  · rfl

/-! ## Numerals in writing -/

/-- **A numeral in writing**, without its sign: digits, perhaps a point and more digits, perhaps an
    exponent with its sign, true for a minus, and its digits. -/
structure Spelling where
  whole : List Char
  fraction : Option (List Char)
  exponent : Option (Bool × List Char)
  whole_ne : whole ≠ []
  whole_digits : ∀ c ∈ whole, c.isDigit
  fraction_digits : ∀ ds, fraction = some ds → ∀ c ∈ ds, c.isDigit
  exponent_ne : ∀ negative ds, exponent = some (negative, ds) → ds ≠ []
  exponent_digits : ∀ negative ds, exponent = some (negative, ds) → ∀ c ∈ ds, c.isDigit

namespace Spelling

/-- The exponent part of the text. -/
def exponentText (s : Spelling) : List Char :=
  match s.exponent with
  | none => []
  | some (negative, ds) => 'e' :: (if negative then '-' else '+') :: ds

/-- The text from the point on. -/
def pointText (s : Spelling) : List Char :=
  match s.fraction with
  | none => s.exponentText
  | some ds => '.' :: (ds ++ s.exponentText)

/-- The text. -/
def text (s : Spelling) : List Char := s.whole ++ s.pointText

/-- The digits after the point. -/
def places (s : Spelling) : List Char := s.fraction.getD []

/-- The exponent that is written. -/
def power (s : Spelling) : Int :=
  match s.exponent with
  | none => 0
  | some (negative, ds) => Numeral.signed negative (Nat.ofDigitChars 10 ds 0)

/-- What is spelled. -/
def scientific (s : Spelling) : Scientific :=
  ⟨Nat.ofDigitChars 10 (s.whole ++ s.places) 0, s.power - s.places.length⟩

/-! ### Reading -/

theorem undigited_exponentText (s : Spelling) : Undigited s.exponentText := by
  intro c hc
  unfold exponentText at hc
  split at hc
  · cases hc
  · cases hc
    rfl

theorem readExponent?_exponentText (s : Spelling) :
    Numeral.readExponent? s.exponentText = some s.power := by
  unfold exponentText power
  cases h : s.exponent with
  | none => rfl
  | some part =>
    obtain ⟨negative, ds⟩ := part
    have hsign : Numeral.splitSign ((if negative then '-' else '+') :: ds) = (negative, ds) := by
      cases negative <;> rfl
    have hds := s.exponent_digits negative ds h
    have hsplit : Numeral.splitDigits ds = (ds.map digitValue, []) := by
      have := splitDigits_append (isDigit_of_ascii hds) (show Undigited [] from nofun)
      rwa [List.append_nil, filterMap_digit? hds] at this
    cases ds with
    | nil => exact absurd rfl (s.exponent_ne negative [] h)
    | cons d ds =>
      -- the reader asks for one digit at least, and then takes them all
      simp only [Numeral.readExponent?, true_or, if_true, hsign, hsplit, List.map_cons]
      rw [← List.map_cons, natOfDigits_map]

theorem splitPoint_text (s : Spelling) :
    Numeral.splitPoint s.text =
      (s.whole.map digitValue, s.places.map digitValue, s.exponentText) := by
  have hwhole := isDigit_of_ascii s.whole_digits
  rw [← filterMap_digit? s.whole_digits]
  unfold text pointText places
  cases h : s.fraction with
  | none =>
    refine splitPoint_append hwhole s.undigited_exponentText ?_
    unfold exponentText
    cases s.exponent <;> nofun
  | some ds =>
    have hds := s.fraction_digits ds h
    rw [Option.getD_some, ← filterMap_digit? hds]
    exact splitPoint_point hwhole (isDigit_of_ascii hds) s.undigited_exponentText

theorem splitSign_text (s : Spelling) (negative : Bool) :
    Numeral.splitSign (signText negative ++ s.text) = (negative, s.text) := by
  cases negative with
  | true => rfl
  | false =>
    -- the first digit is taken for no sign
    cases h : s.whole with
    | nil => exact absurd h s.whole_ne
    | cons c ds =>
      have hc : c.isDigit := s.whole_digits c (h ▸ List.mem_cons_self)
      have hminus : c ≠ '-' := by rintro rfl; cases hc
      have hplus : c ≠ '+' := by rintro rfl; cases hc
      refine splitSign_eq ?_
      unfold text
      rw [h]
      rintro _ ⟨⟩
      exact ⟨hminus, hplus⟩

/-- The numeral that is read. -/
def numeral (s : Spelling) (negative : Bool) : Numeral :=
  ⟨negative, (s.whole ++ s.places).map digitValue, s.scientific.exponent⟩

/-- **What is spelled is read**, with its sign. -/
theorem read?_text (s : Spelling) (negative : Bool) :
    Numeral.read? (signText negative ++ s.text) = some (s.numeral negative) := by
  have hne : s.whole.map digitValue ≠ [] := fun h => s.whole_ne (List.map_eq_nil_iff.1 h)
  unfold Numeral.read?
  simp only [splitSign_text, splitPoint_text, hne, false_and, if_false, readExponent?_exponentText,
    Option.map_some, numeral, scientific, List.map_append, List.length_map]

theorem places_digits (s : Spelling) : ∀ c ∈ s.places, c.isDigit := by
  unfold places
  cases h : s.fraction with
  | none => exact fun c hc => absurd hc List.not_mem_nil
  | some ds => exact s.fraction_digits ds h

/-- The magnitude that is read is the closest one to what is spelled. -/
theorem magnitude_numeral (s : Spelling) (negative : Bool) :
    (s.numeral negative).magnitude = s.scientific.nearest := by
  have hdigits : ∀ d ∈ (s.numeral negative).digits, d < 10 := by
    intro d hd
    obtain ⟨c, hc, rfl⟩ := List.mem_map.1 hd
    rcases List.mem_append.1 hc with hc | hc
    · exact digitValue_lt (s.whole_digits c hc)
    · exact digitValue_lt (s.places_digits c hc)
  rw [Numeral.magnitude_eq hdigits]
  unfold Numeral.scientific numeral scientific
  rw [natOfDigits_map]

/-- A numeral is written with digits, signs, a point and an `e`. -/
theorem mem_text (s : Spelling) (negative : Bool) :
    ∀ c ∈ signText negative ++ s.text, c.isDigit ∨ c ∈ ['-', '+', '.', 'e'] := by
  have hexponent : ∀ c ∈ s.exponentText, c.isDigit ∨ c ∈ ['-', '+', '.', 'e'] := by
    unfold exponentText
    cases h : s.exponent with
    | none => exact fun c hc => absurd hc List.not_mem_nil
    | some part =>
      obtain ⟨negative, ds⟩ := part
      refine List.forall_mem_cons.2 ⟨.inr (by decide), List.forall_mem_cons.2 ⟨.inr ?_, ?_⟩⟩
      · cases negative <;> decide
      · exact fun c hc => .inl (s.exponent_digits negative ds h c hc)
  have hpoint : ∀ c ∈ s.pointText, c.isDigit ∨ c ∈ ['-', '+', '.', 'e'] := by
    unfold pointText
    cases h : s.fraction with
    | none => exact hexponent
    | some ds =>
      refine List.forall_mem_cons.2 ⟨.inr (by decide), List.forall_mem_append.2 ⟨?_, hexponent⟩⟩
      exact fun c hc => .inl (s.fraction_digits ds h c hc)
  refine List.forall_mem_append.2 ⟨?_, List.forall_mem_append.2 ⟨?_, hpoint⟩⟩
  · cases negative
    · exact fun c hc => absurd hc List.not_mem_nil
    · exact List.forall_mem_singleton.2 (.inr (by decide))
  · exact fun c hc => .inl (s.whole_digits c hc)

end Spelling

end SmallLisp.Decimal
