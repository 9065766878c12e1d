import SmallLisp.Proofs.Source.Tokens
import SmallLisp.Text.Quoted

/-!
# `Proofs.Text.Alphabet` — texts over an alphabet

A text is over an alphabet if all its code points belong to it. Two alphabets matter: that of the texts that
stay on one line (`IsLine`), since every line end is a blank, and that of the texts in which no surrogate is
alone (`IsPlain`), which are those that an encoding has octets for. Both have the space and all characters
that are no blanks (`IsAlphabet`), and this is all that is put between the words of a session: so texts over
the alphabet are put together to texts over it (`Over.append`, `over_intercalate`), and the quotes of a
diagnostic keep to it too, since what cannot stand for itself is written as a backslash, a letter and
hexadecimal digits (`over_quoted`).
-/

namespace SmallLisp.Text

/-- **A text over an alphabet.** -/
def Over (q : CodePoint → Prop) (s : Text) : Prop := ∀ c ∈ s.toList, q c

/-- The space is in the alphabet, and so are all characters that are no blanks. -/
def IsAlphabet (q : CodePoint → Prop) : Prop := ∀ c : Char, c = ' ' ∨ isBlank c = false → q c

/-- **A text on one line.** The space is the only blank in it. -/
def IsLine (s : Text) : Prop := s.Over fun c => isBlank c → c = ' '

/-- **A text without lone surrogates.** -/
def IsPlain (s : Text) : Prop := s.Over fun c => ∃ d : Char, c = d

/-! ## The two alphabets -/

theorem isAlphabet_line : IsAlphabet fun c => isBlank c → c = ' ' := by
  intro c hc hblank
  rcases hc with rfl | hc
  · rfl
  · rw [hc] at hblank
    cases hblank

theorem isAlphabet_plain : IsAlphabet fun c => ∃ d : Char, c = d := fun c _ => ⟨c, rfl⟩

theorem isPlain_ofString (s : String) : IsPlain s := by
  intro c hc
  obtain ⟨d, _, rfl⟩ := List.mem_map.1 hc
  exact ⟨d, rfl⟩

/-- The plain texts are the strings. -/
theorem isPlain_iff {s : Text} : IsPlain s ↔ ∃ t : String, s = t := by
  constructor
  · intro h
    suffices hchars : ∃ cs : List Char, s.toList = cs.map .char by
      obtain ⟨cs, hcs⟩ := hchars
      refine ⟨String.ofList cs, toList_inj.1 ?_⟩
      rw [hcs, toList_ofString, String.toList_ofList]
    have hpoints : ∀ points : List CodePoint, (∀ c ∈ points, ∃ d : Char, c = d) →
        ∃ cs : List Char, points = cs.map .char := by
      intro points hpoints
      induction points with
      | nil => exact ⟨[], rfl⟩
      | cons c rest ih =>
        obtain ⟨⟨d, rfl⟩, hrest⟩ := List.forall_mem_cons.1 hpoints
        obtain ⟨cs, rfl⟩ := ih hrest
        exact ⟨d :: cs, rfl⟩
    exact hpoints s.toList h
  · rintro ⟨t, rfl⟩
    exact isPlain_ofString t

/-! ## Putting texts together -/

variable {q : CodePoint → Prop} {s t : Text}

theorem Over.append (hs : Over q s) (ht : Over q t) : Over q (s ++ t) :=
  List.forall_mem_append.2 ⟨hs, ht⟩

/-- Texts over the alphabet between texts over it make one. -/
theorem over_intercalate (hs : Over q s) {texts : List Text} (h : ∀ text ∈ texts, Over q text) :
    Over q (s.intercalate texts) := by
  induction texts with
  | nil => exact fun c hc => absurd hc List.not_mem_nil
  | cons text texts ih =>
    obtain ⟨htext, htexts⟩ := List.forall_mem_cons.1 h
    cases texts with
    | nil =>
      rw [intercalate_singleton]
      exact htext
    | cons next texts =>
      rw [intercalate_cons_cons]
      exact (htext.append hs).append (ih htexts)

section

variable (hq : IsAlphabet q)

include hq

/-- A string is over every alphabet if its characters are no blanks but spaces. -/
theorem over_literal {text : String} (h : (text.toList.all fun c => c == ' ' || !isBlank c) = true) :
    Over q text := by
  intro c hc
  obtain ⟨d, hd, rfl⟩ := List.mem_map.1 hc
  have hpasses := List.all_eq_true.1 h d hd
  rw [Bool.or_eq_true, beq_iff_eq, Bool.not_eq_true'] at hpasses
  exact hq d hpasses

/-- A text over the alphabet stands between two such strings. -/
theorem Over.enclosed {before after : String} (hs : Over q s)
    (hbefore : (before.toList.all fun c => c == ' ' || !isBlank c) = true)
    (hafter : (after.toList.all fun c => c == ' ' || !isBlank c) = true) :
    Over q (before ++ s ++ after) :=
  ((over_literal hq hbefore).append hs).append (over_literal hq hafter)

theorem over_of_notBlank {text : List Char} (h : ∀ c ∈ text, isBlank c = false) :
    Over q (ofList (text.map .char)) := by
  intro c hc
  obtain ⟨d, hd, rfl⟩ := List.mem_map.1 hc
  exact hq d (.inr (h d hd))

end

/-! ## Digits -/

/-- The digits of a number in a base are digits below that base. -/
theorem exists_of_mem_toDigits {b : Nat} (hb : 1 < b) (n : Nat) :
    ∀ c ∈ Nat.toDigits b n, ∃ d < b, c = d.digitChar := by
  induction n using Nat.strongRecOn with
  | _ n ih =>
    rcases Nat.lt_or_ge n b with hlt | hge
    · rw [Nat.toDigits_of_lt_base hlt]
      exact List.forall_mem_singleton.2 ⟨n, hlt, rfl⟩
    · -- the last digit is the remainder, those before it are the digits of the quotient
      rw [Nat.toDigits_of_base_le hb hge]
      refine List.forall_mem_append.2 ⟨ih (n / b) (Nat.div_lt_self (by omega) hb), ?_⟩
      exact List.forall_mem_singleton.2 ⟨n % b, Nat.mod_lt n (by omega), rfl⟩

theorem isBlank_of_mem_toDigits {b n : Nat} (hb : 1 < b) (h16 : b ≤ 16) {c : Char}
    (hc : c ∈ Nat.toDigits b n) : isBlank c = false := by
  have hdigits : ∀ d : Fin 16, isBlank (Nat.digitChar d) = false := by decide
  obtain ⟨d, hd, rfl⟩ := exists_of_mem_toDigits hb n c hc
  exact hdigits ⟨d, Nat.lt_of_lt_of_le hd h16⟩

theorem over_toString (hq : IsAlphabet q) (n : Nat) : Over q (toString n) := by
  have hdigits : ((toString n : String) : Text) = ofList ((Nat.toDigits 10 n).map .char) := by
    rw [Nat.toString_eq_ofList_toDigits, ofString, String.toList_ofList]
  rw [hdigits]
  exact over_of_notBlank hq fun c hc => isBlank_of_mem_toDigits (by decide) (by decide) hc

theorem isBlank_of_mem_hex {width n : Nat} : ∀ c ∈ hex width n, isBlank c = false := by
  unfold hex List.leftpad
  refine List.forall_mem_append.2 ⟨?_, ?_⟩
  · intro c hc
    rw [List.eq_of_mem_replicate hc]
    rfl
  · intro c hc
    exact isBlank_of_mem_toDigits (by decide) (by decide) hc

/-! ## Quotes -/

/-- No escape of a code point by its number has a blank in it. -/
theorem isBlank_of_mem_escape {n : Nat} : ∀ c ∈ escape n, isBlank c = false := by
  have hescape {kind : Char} (hkind : isBlank kind = false) (width : Nat) :
      ∀ c ∈ '\\' :: kind :: hex width n, isBlank c = false :=
    List.forall_mem_cons.2 ⟨rfl, List.forall_mem_cons.2 ⟨hkind, isBlank_of_mem_hex⟩⟩
  unfold escape
  split
  · exact hescape rfl 2
  · split
    · exact hescape rfl 4
    · exact hescape rfl 8

/-- What is written for a code point is over the alphabet, if the code point belongs to it. -/
theorem over_quotePoint (hq : IsAlphabet q) {delimiter c : CodePoint} (hc : q c) :
    ∀ d ∈ quotePoint delimiter c, q d := by
  have hletter {letter : Char} (h : isBlank letter = false) : q letter := hq letter (.inr h)
  have hpair {d : CodePoint} (hd : q d) : ∀ e ∈ [CodePoint.char '\\', d], q e :=
    List.forall_mem_cons.2 ⟨hletter rfl, List.forall_mem_singleton.2 hd⟩
  unfold quotePoint
  split
  · exact hpair hc
  · split
    · exact hpair (hletter rfl)
    · split
      · exact hpair (hletter rfl)
      · split
        · exact hpair (hletter rfl)
        · split
          · exact List.forall_mem_singleton.2 hc
          · exact over_of_notBlank hq isBlank_of_mem_escape

/-- **A text over the alphabet is over it between quotes.** -/
theorem over_quoted (hq : IsAlphabet q) (h : Over q s) : Over q (quoted s) := by
  have hdelimiter : q (quoteDelimiter s) := by
    unfold quoteDelimiter
    split
    · exact hq _ (.inr rfl)
    · exact hq _ (.inr rfl)
  refine List.forall_mem_cons.2 ⟨hdelimiter, List.forall_mem_append.2 ⟨?_, ?_⟩⟩
  · intro d hd
    obtain ⟨c, hc, hd⟩ := List.mem_flatMap.1 hd
    exact over_quotePoint hq (h c hc) d hd
  · exact List.forall_mem_singleton.2 hdelimiter

end SmallLisp.Text
