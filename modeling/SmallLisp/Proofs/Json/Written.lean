import Mathlib.Data.Nat.Digits.Defs
import SmallLisp.Json.Escape
import SmallLisp.Proofs.Json.Reader
import SmallLisp.Proofs.Text.Utf8

/-!
# `Proofs.Json.Written` — what is written as JSON is read back

A string can be written in many ways: a character as itself, as a letter after a backslash, as the unit of its
code, or as a pair of surrogates (`Written`). Each of them is read back to the string (`Written.spells`),
and `escapeChar` writes one of them (`written_escape`). None of them has a line feed in it.

A string is read as pieces first, and its surrogates are joined at the end. What is carried along is the list
of pieces that are still to come (`Spells`): no character has the code of a surrogate, so joining does not
reach over the place where the pieces before end.
-/

namespace SmallLisp.Json

/-! ## Hexadecimal digits -/

theorem hexDigit?_digitChar {d : Nat} (h : d < 16) : hexDigit? d.digitChar = some d := by
  revert d
  decide

/-- A digit more is the last digit of the number, after the others. -/
theorem hex_succ (width n : Nat) :
    Text.hex (width + 2) n = Text.hex (width + 1) (n / 16) ++ [(n % 16).digitChar] := by
  unfold Text.hex List.leftpad
  by_cases hn : n < 16
  · rw [Nat.toDigits_of_lt_base hn, Nat.div_eq_of_lt hn, Nat.mod_eq_of_lt hn,
      Nat.toDigits_of_lt_base (by decide)]
    simp [List.replicate_succ']
  · rw [Nat.toDigits_of_base_le (by decide) (Nat.le_of_not_lt hn)]
    simp

/-- The four digits of a unit. -/
theorem hex_four {n : Nat} (h : n < 0x10000) :
    Text.hex 4 n = [(n / 4096).digitChar, (n / 256 % 16).digitChar, (n / 16 % 16).digitChar,
      (n % 16).digitChar] := by
  have hlast : Text.hex 1 (n / 4096) = [(n / 4096).digitChar] := by
    rw [Text.hex, Nat.toDigits_of_lt_base (by omega)]
    rfl
  have htwo : n / 16 / 16 = n / 256 := Nat.div_div_eq_div_mul _ _ _
  have hthree : n / 256 / 16 = n / 4096 := Nat.div_div_eq_div_mul _ _ _
  rw [hex_succ, hex_succ, hex_succ, htwo, hthree, hlast]
  rfl

/-- The digits of a unit spell it. -/
theorem unit?_digitChar {n : Nat} (h : n < 0x10000) :
    unit? (n / 4096).digitChar (n / 256 % 16).digitChar (n / 16 % 16).digitChar
      (n % 16).digitChar = some n := by
  simp only [unit?, CodePoint.char?, Option.bind_some]
  rw [hexDigit?_digitChar (by omega), hexDigit?_digitChar (by omega),
    hexDigit?_digitChar (by omega), hexDigit?_digitChar (by omega)]
  show some (((16 * (n / 4096) + n / 256 % 16) * 16 + n / 16 % 16) * 16 + n % 16) = some n
  congr 1
  omega

/-! ## Strings -/

/-- **A string as it is written between quotes**, with the code points that it stands for. A character past
    `U+FFFF` may stand for itself, or be written as a pair of surrogates. A lone surrogate can stand for
    itself alone: escaped, it might make a pair with the one after it. -/
inductive Written : List CodePoint → List CodePoint → Prop
  | nil : Written [] []
  | plain {c : CodePoint} {t s : List CodePoint} (hcontrol : 0x20 ≤ c.toNat) (hquote : c ≠ .char '"')
      (hescape : c ≠ .char '\\') (h : Written t s) : Written (c :: t) (c :: s)
  | letter {letter c : Char} {t s : List CodePoint} (hletter : unescapeLetter? letter = some c)
      (h : Written t s) : Written (.char '\\' :: .char letter :: t) (.char c :: s)
  | unit {x₁ x₂ x₃ x₄ : CodePoint} {c : Char} {t s : List CodePoint}
      (hunit : unit? x₁ x₂ x₃ x₄ = some c.toNat) (h : Written t s) :
      Written (.char '\\' :: .char 'u' :: x₁ :: x₂ :: x₃ :: x₄ :: t) (.char c :: s)
  | pair {x₁ x₂ x₃ x₄ y₁ y₂ y₃ y₄ : CodePoint} {high low : Nat} {t s : List CodePoint}
      (hhigh : unit? x₁ x₂ x₃ x₄ = some high) (hlow : unit? y₁ y₂ y₃ y₄ = some low)
      (hpair : isHighSurrogate high ∧ isLowSurrogate low) (h : Written t s) :
      Written (.char '\\' :: .char 'u' :: x₁ :: x₂ :: x₃ :: x₄ ::
        .char '\\' :: .char 'u' :: y₁ :: y₂ :: y₃ :: y₄ :: t) (.char (joinSurrogates high low) :: s)

section

variable {opening place : Nat} {before : List Piece} {rest : List CodePoint}

theorem isHighSurrogate_toNat (c : Char) : isHighSurrogate c.toNat = false := by
  obtain ⟨_, hsurrogate⟩ := Text.Utf8.toNat_bounds c
  rw [isHighSurrogate, Bool.and_eq_false_iff, decide_eq_false_iff_not, decide_eq_false_iff_not]
  omega

/-- A character takes no part in a pair. -/
theorem points_unit (c : Char) (pieces : List Piece) :
    points (.unit c.toNat :: pieces) = .char c :: points pieces := by
  have hpoint : CodePoint.ofNat c.toNat = .char c := by
    obtain ⟨_, hsurrogate⟩ := Text.Utf8.toNat_bounds c
    rw [CodePoint.ofNat, dif_neg (by omega), Char.ofNat_toNat]
  rw [points.eq_def]
  split
  · rename_i heq
    cases heq
  · rename_i heq
    cases heq
    rw [isHighSurrogate_toNat, Bool.false_and, if_neg Bool.false_ne_true, hpoint]
  · rename_i heq
    cases heq
    rw [hpoint]
  · rename_i heq
    cases heq

theorem readString_plain {c : CodePoint} (hcontrol : 0x20 ≤ c.toNat) (hquote : c ≠ .char '"')
    (hescape : c ≠ .char '\\') :
    readString opening before place (c :: rest) =
      readString opening (.point c :: before) (place + 1) rest := by
  rw [readString]
  · exact if_neg (Nat.not_lt.2 hcontrol)
  all_goals simp [hquote, hescape]

theorem readString_letter {letter c : Char} (h : unescapeLetter? letter = some c) :
    readString opening before place (.char '\\' :: .char letter :: rest) =
      readString opening (.point c :: before) (place + 2) rest := by
  have hne : letter ≠ 'u' := by
    rintro rfl
    cases h
  rw [readString]
  · simp [hne, CodePoint.char?, h]
  · simp [hne]

theorem readString_unit {x₁ x₂ x₃ x₄ : CodePoint} {unit : Nat} (h : unit? x₁ x₂ x₃ x₄ = some unit)
    (hrest : rest ≠ []) :
    readString opening before place (.char '\\' :: .char 'u' :: x₁ :: x₂ :: x₃ :: x₄ :: rest) =
      readString opening (.unit unit :: before) (place + 6) rest := by
  rw [readString, h]
  simp [hrest]

/-- The text is read as pieces that stand for the string, and reading goes on after the closing quote. -/
def Spells (t s : List CodePoint) : Prop :=
  ∃ pieces, points pieces = s ∧ ∀ opening before place rest,
    readString opening before place (t ++ .char '"' :: rest) =
      .ok (.ofList (points (before.reverse ++ pieces)), ⟨place + t.length + 1, rest⟩)

/-- **What is written is read.** -/
theorem Written.spells {t s : List CodePoint} (h : Written t s) : Spells t s := by
  induction h with
  | nil => exact ⟨[], rfl, fun opening before place rest => by rw [List.append_nil]; rfl⟩
  | @plain c t s hcontrol hquote hescape _ ih =>
    obtain ⟨pieces, hpieces, hread⟩ := ih
    refine ⟨.point c :: pieces, by rw [points, hpieces], ?_⟩
    intro opening before place rest
    rw [List.cons_append, readString_plain hcontrol hquote hescape, hread]
    simp [Nat.add_comm, Nat.add_left_comm]
  | @letter letter c t s hletter _ ih =>
    obtain ⟨pieces, hpieces, hread⟩ := ih
    refine ⟨.point c :: pieces, by rw [points, hpieces], ?_⟩
    intro opening before place rest
    rw [List.cons_append, List.cons_append, readString_letter hletter, hread]
    simp [Nat.add_comm, Nat.add_left_comm]
  | @unit x₁ x₂ x₃ x₄ c t s hunit _ ih =>
    obtain ⟨pieces, hpieces, hread⟩ := ih
    refine ⟨.unit c.toNat :: pieces, by rw [points_unit, hpieces], ?_⟩
    intro opening before place rest
    simp only [List.cons_append]
    rw [readString_unit hunit (by simp), hread]
    simp [Nat.add_comm, Nat.add_left_comm]
  | @pair x₁ x₂ x₃ x₄ y₁ y₂ y₃ y₄ high low t s hhigh hlow hpair _ ih =>
    obtain ⟨pieces, hpieces, hread⟩ := ih
    refine ⟨.unit high :: .unit low :: pieces, ?_, ?_⟩
    · rw [points, hpair.1, hpair.2, hpieces]
      rfl
    · intro opening before place rest
      simp only [List.cons_append]
      rw [readString_unit hhigh (by simp), readString_unit hlow (by simp), hread]
      simp [Nat.add_comm, Nat.add_left_comm]

end

/-- The digits of a unit are no line feeds. -/
theorem lineFeed_not_mem_of_unit? {x₁ x₂ x₃ x₄ : CodePoint} {unit : Nat}
    (h : unit? x₁ x₂ x₃ x₄ = some unit) :
    .char '\n' ∉ [.char '\\', .char 'u', x₁, x₂, x₃, x₄] := by
  have hdigit {c : CodePoint} {d : Nat} (h : c.char?.bind hexDigit? = some d) : .char '\n' ≠ c := by
    rintro rfl
    cases h
  simp only [unit?, Option.bind_eq_bind, Option.bind_eq_some_iff] at h
  obtain ⟨_, h₁, _, h₂, _, h₃, _, h₄, _⟩ := h
  simp only [← Option.bind_eq_some_iff] at h₁ h₂ h₃ h₄
  simp [hdigit h₁, hdigit h₂, hdigit h₃, hdigit h₄]

/-- Not even an escaped line feed is written with a line feed. -/
theorem Written.lineFeed_not_mem {t s : List CodePoint} (h : Written t s) : .char '\n' ∉ t := by
  induction h with
  | nil => exact List.not_mem_nil
  | @plain c t s hcontrol _ _ _ ih =>
    have hne : .char '\n' ≠ c := by
      rintro rfl
      exact absurd hcontrol (by decide)
    simp [hne, ih]
  | @letter letter c t s hletter _ ih =>
    have hne : '\n' ≠ letter := by
      rintro rfl
      cases hletter
    simp [hne, ih]
  | unit hunit _ ih => exact List.not_mem_append (lineFeed_not_mem_of_unit? hunit) ih
  | pair hhigh hlow _ _ ih =>
    exact List.not_mem_append (lineFeed_not_mem_of_unit? hhigh)
      (List.not_mem_append (lineFeed_not_mem_of_unit? hlow) ih)

/-- What needs no escape can be written as it is. -/
theorem written_self {s : List CodePoint}
    (h : ∀ c ∈ s, 0x20 ≤ c.toNat ∧ c ≠ .char '"' ∧ c ≠ .char '\\') : Written s s := by
  induction s with
  | nil => exact .nil
  | cons c rest ih =>
    obtain ⟨⟨hcontrol, hquote, hescape⟩, hrest⟩ := List.forall_mem_cons.1 h
    exact .plain hcontrol hquote hescape (ih hrest)

/-! ## Strings in ASCII -/

theorem Written.append {t t' s s' : List CodePoint} (h : Written t s) (h' : Written t' s') :
    Written (t ++ t') (s ++ s') := by
  induction h with
  | nil => exact h'
  | plain hcontrol hquote hescape _ ih => exact .plain hcontrol hquote hescape ih
  | letter hletter _ ih => exact .letter hletter ih
  | unit hunit _ ih => exact .unit hunit ih
  | pair hhigh hlow hpair _ ih => exact .pair hhigh hlow hpair ih

/-- The two surrogates of a character past `U+FFFF` stand for it. -/
theorem joinSurrogates_offset {n : Nat} (hleast : 0x10000 ≤ n) (hmost : n < 0x110000) :
    isHighSurrogate (0xD800 + (n - 0x10000) / 0x400) ∧
      isLowSurrogate (0xDC00 + (n - 0x10000) % 0x400) ∧
      joinSurrogates (0xD800 + (n - 0x10000) / 0x400) (0xDC00 + (n - 0x10000) % 0x400) =
        Char.ofNat n := by
  refine ⟨?_, ?_, ?_⟩
  · rw [isHighSurrogate, Bool.and_eq_true, decide_eq_true_eq, decide_eq_true_eq]
    omega
  · rw [isLowSurrogate, Bool.and_eq_true, decide_eq_true_eq, decide_eq_true_eq]
    omega
  · have hcode : 0x10000 + (0xD800 + (n - 0x10000) / 0x400 - 0xD800) * 0x400 +
        (0xDC00 + (n - 0x10000) % 0x400 - 0xDC00) = n := by omega
    exact congrArg Char.ofNat hcode

theorem unescapeLetter?_escapeLetter? {c letter : Char} (h : escapeLetter? c = some letter) :
    unescapeLetter? letter = some c := by
  unfold escapeLetter? at h
  split at h <;> cases h <;> rfl

/-- A character that is escaped is written. -/
theorem written_escapeChar (c : Char) : Written ((escapeChar c).map .char) [.char c] := by
  have hc : Char.ofNat c.toNat = c := Char.ofNat_toNat c
  obtain ⟨hmost, _⟩ := Text.Utf8.toNat_bounds c
  unfold escapeChar
  cases hletter : escapeLetter? c with
  | some letter => exact .letter (unescapeLetter?_escapeLetter? hletter) .nil
  | none =>
    dsimp only
    by_cases hplain : 0x20 ≤ c.toNat ∧ c.toNat < 0x7F
    · have hne {other letter : Char} (h : escapeLetter? other = some letter) :
          CodePoint.char c ≠ .char other := by
        rintro hsame
        cases hsame
        rw [hletter] at h
        cases h
      rw [if_pos hplain]
      exact .plain hplain.1 (hne (rfl : escapeLetter? '"' = _)) (hne (rfl : escapeLetter? '\\' = _)) .nil
    · rw [if_neg hplain]
      by_cases hone : c.toNat < 0x10000
      · rw [if_pos hone, escapeUnit, hex_four hone]
        exact .unit (unit?_digitChar hone) .nil
      · obtain ⟨hhigh, hlow, hjoin⟩ := joinSurrogates_offset (Nat.le_of_not_lt hone) hmost
        rw [hc] at hjoin
        rw [if_neg hone, escapeUnit, escapeUnit, hex_four (by omega), hex_four (by omega)]
        have hpair := Written.pair (unit?_digitChar (n := 0xD800 + (c.toNat - 0x10000) / 0x400) (by omega))
          (unit?_digitChar (n := 0xDC00 + (c.toNat - 0x10000) % 0x400) (by omega)) ⟨hhigh, hlow⟩ .nil
        rwa [hjoin] at hpair

/-- **What is escaped is written**, whatever the characters are. -/
theorem written_escape (s : List Char) : Written ((s.flatMap escapeChar).map .char) (s.map .char) := by
  induction s with
  | nil => exact .nil
  | cons c rest ih =>
    rw [List.flatMap_cons, List.map_append]
    exact (written_escapeChar c).append ih

/-- Every string can be written: a lone surrogate as it is, and the characters escaped. -/
theorem exists_written (s : List CodePoint) : ∃ t, Written t s := by
  induction s with
  | nil => exact ⟨[], .nil⟩
  | cons c rest ih =>
    obtain ⟨t, ht⟩ := ih
    cases c with
    | char c => exact ⟨_, (written_escapeChar c).append ht⟩
    | lone unit =>
      have hcontrol : 0x20 ≤ (CodePoint.lone unit).toNat := by
        simp only [CodePoint.toNat]
        omega
      exact ⟨_, .plain hcontrol nofun nofun ht⟩

/-- No code point is escaped with a line feed, not even a lone surrogate. -/
theorem lineFeed_not_mem_escapePoint (c : CodePoint) : '\n' ∉ escapePoint c := by
  intro hmem
  cases c with
  | char c => exact (written_escapeChar c).lineFeed_not_mem (List.mem_map_of_mem hmem)
  | lone unit =>
    have hunit : 0xD800 + (unit : Nat) < 0x10000 := by omega
    rw [escapePoint, escapeUnit, hex_four hunit] at hmem
    exact lineFeed_not_mem_of_unit? (unit?_digitChar hunit) (List.mem_map_of_mem hmem)

end SmallLisp.Json
