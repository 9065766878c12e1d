import Mathlib.Data.List.Basic
import SmallLisp.Json.Reader

/-!
# `Proofs.Json.Reader` — what a text has in it that cannot be read

A text that is no document is malformed at a place. Two faults are not of that kind, and both can come up
in a good document: an integer of too many digits, and arrays and objects that are nested too deep. A
text accounts for them (`read_accounted`): it has that many digits in a row, or opens that many arrays
and objects.

The statement goes through the loops of the reader as `Accounted`: what is read ends inside the text it
was read from, and a fault is one that this text accounts for.
-/

namespace SmallLisp.Json

/-- The text has so many digits in a row. -/
def HasRun (text : List CodePoint) (length : Nat) : Prop :=
  ∃ run, run <:+: text ∧ (∀ c ∈ run, isDigit c) ∧ run.length = length

/-- How many characters of the text open an array or an object. -/
def openings (text : List CodePoint) : Nat :=
  text.countP fun c => c == .char '[' || c == .char '\x7b'

/-- What the text has in it when it is not read for that reason. -/
def ReadFault.Shows (depth : Nat) (text : List CodePoint) : ReadFault → Prop
  | .malformed _ _ => True
  | .integerTooLong digits => maxIntegerDigits < digits ∧ HasRun text digits
  | .tooDeep => depth < openings text

/-- **An accounted outcome.** Reading goes on inside the text, or ends with a fault that the text
    accounts for. -/
def Accounted {α : Type} (depth : Nat) (text : List CodePoint) : Except ReadFault (α × Cursor) → Prop
  | .ok reading => reading.2.rest <:+ text
  | .error fault => fault.Shows depth text

section

variable {α β : Type} {depth : Nat} {text : List CodePoint} {outcome : Except ReadFault (α × Cursor)}

/-! ## Outcomes one after the other -/

/-- What follows a reading has to be accounted for only inside the text. -/
theorem Accounted.bind {next : α × Cursor → Except ReadFault (β × Cursor)}
    (h : Accounted depth text outcome)
    (hn : ∀ a cursor, cursor.rest <:+ text → Accounted depth text (next (a, cursor))) :
    Accounted depth text (outcome >>= next) := by
  cases outcome with
  | ok reading => exact hn reading.1 reading.2 h
  | error fault => exact h

/-- A longer text accounts for as much. -/
theorem Accounted.mono {more : List CodePoint} (h : Accounted depth text outcome) (ht : text <:+ more) :
    Accounted depth more outcome := by
  cases outcome with
  | ok reading => exact List.IsSuffix.trans h ht
  | error fault =>
    cases fault with
    | malformed => trivial
    | integerTooLong digits =>
      obtain ⟨hlong, run, hrun, hdigits, hlength⟩ := h
      exact ⟨hlong, run, hrun.trans ht.isInfix, hdigits, hlength⟩
    | tooDeep => exact Nat.lt_of_lt_of_le h ht.sublist.countP_le

/-- What opens an array or an object accounts for one nesting more. -/
theorem Accounted.deepen {c : CodePoint} (hc : c = .char '[' ∨ c = .char '\x7b')
    (h : Accounted depth text outcome) :
    Accounted (depth + 1) (c :: text) outcome := by
  have hone : openings (c :: text) = openings text + 1 := by
    rcases hc with rfl | rfl <;> simp [openings]
  cases outcome with
  | ok reading => exact List.IsSuffix.trans h (List.suffix_cons c text)
  | error fault =>
    cases fault with
    | malformed => trivial
    | integerTooLong digits =>
      obtain ⟨hlong, run, hrun, hdigits, hlength⟩ := h
      exact ⟨hlong, run, hrun.trans (List.suffix_cons c text).isInfix, hdigits, hlength⟩
    | tooDeep =>
      show depth + 1 < openings (c :: text)
      rw [hone]
      exact Nat.succ_lt_succ h

theorem skip_suffix (cursor : Cursor) : cursor.skip.rest <:+ cursor.rest := List.dropWhile_suffix _

theorem skip_tail {cursor : Cursor} {c : CodePoint} {rest : List CodePoint}
    (h : cursor.skip.rest = c :: rest) :
    rest <:+ cursor.rest :=
  (List.suffix_cons c rest).trans (h ▸ skip_suffix cursor)

end

/-! ## Strings and names -/

variable {depth : Nat}

theorem readString_accounted (opening : Nat) (pieces : List Piece) (place : Nat)
    (text : List CodePoint) : Accounted depth text (readString opening pieces place text) := by
  fun_induction readString opening pieces place text with
  | case1 | case3 | case5 | case6 | case8 | case9 | case10 => trivial
  | case2 pieces place rest => exact List.suffix_cons _ rest
  | case4 pieces place a b c d rest unit _ _ ih =>
    exact ih.mono ⟨[.char '\\', .char 'u', a, b, c, d], rfl⟩
  | case7 pieces place letter rest _ _ c _ ih => exact ih.mono ⟨[.char '\\', letter], rfl⟩
  | case11 pieces place c rest _ _ _ _ _ ih => exact ih.mono (List.suffix_cons c rest)

theorem readName?_suffix {cursor after : Cursor} {value : Json}
    (h : readName? cursor = some (value, after)) : after.rest <:+ cursor.rest := by
  obtain ⟨⟨name, named⟩, _, hread⟩ := List.exists_of_findSome?_eq_some h
  obtain ⟨rest, hrest, heq⟩ := Option.map_eq_some_iff.1 hread
  cases heq
  exact ⟨name.toList, List.isPrefixOf?_eq_some_iff_append_eq.1 hrest⟩

/-! ## Numbers -/

theorem splitDigits_run (s : List CodePoint) :
    ∃ run, run ++ (splitDigits s).2 = s ∧ (∀ c ∈ run, isDigit c) ∧
      run.length = (splitDigits s).1.length := by
  induction s with
  | nil => exact ⟨[], rfl, nofun, rfl⟩
  | cons c rest ih =>
    obtain ⟨run, hrest, hrun, hlength⟩ := ih
    rw [splitDigits]
    split
    · rename_i hc
      refine ⟨c :: run, congrArg (c :: ·) hrest, ?_, congrArg (· + 1) hlength⟩
      exact List.forall_mem_cons.2 ⟨hc, hrun⟩
    · exact ⟨[], rfl, nofun, rfl⟩

theorem splitDigits_suffix (s : List CodePoint) : (splitDigits s).2 <:+ s := by
  obtain ⟨run, hs, _⟩ := splitDigits_run s
  exact ⟨run, hs⟩

theorem splitWhole?_run {s after : List CodePoint} {whole : List Nat}
    (h : splitWhole? s = some (whole, after)) : after <:+ s ∧ HasRun s whole.length := by
  unfold splitWhole? at h
  split at h
  · cases h
    refine ⟨List.suffix_cons _ _, [.char '0'], ⟨[], after, rfl⟩, fun c hc => ?_, rfl⟩
    rw [List.mem_singleton.1 hc]
    rfl
  · split at h
    · cases h
    · obtain ⟨run, hs, hrun, hlength⟩ := splitDigits_run s
      rw [Option.some.inj h] at hs hlength
      exact ⟨⟨run, hs⟩, run, ⟨[], after, hs⟩, hrun, hlength⟩

theorem splitFraction_suffix (s : List CodePoint) : (splitFraction s).2 <:+ s := by
  unfold splitFraction
  split
  · rename_i rest
    split
    · exact List.suffix_refl _
    · exact (splitDigits_suffix rest).trans (List.suffix_cons _ _)
  · exact List.suffix_refl _

theorem splitSign_suffix (s : List CodePoint) : (splitSign s).2 <:+ s := by
  unfold splitSign
  split
  · exact List.suffix_cons _ _
  · exact List.suffix_cons _ _
  · exact List.suffix_refl _

theorem splitExponent_suffix (s : List CodePoint) : (splitExponent s).2 <:+ s := by
  cases s with
  | nil => exact List.suffix_refl _
  | cons c rest =>
    rw [splitExponent]
    split
    · have hafter : (splitDigits (splitSign rest).2).2 <:+ c :: rest :=
        ((splitDigits_suffix _).trans (splitSign_suffix rest)).trans (List.suffix_cons c rest)
      simp only
      split
      · exact List.suffix_refl _
      · rename_i digits after _ heq
        rwa [heq] at hafter
    · exact List.suffix_refl _

theorem readNumber_accounted (cursor : Cursor) :
    Accounted depth cursor.rest (readNumber cursor) := by
  rw [readNumber]
  split
  rename_i negative body hsign
  -- a sign is not part of the digits
  have hbody : body <:+ cursor.rest := by
    split at hsign
    · rename_i hminus
      cases hsign
      exact hminus ▸ List.suffix_cons _ body
    · cases hsign
      exact List.suffix_refl _
  simp only
  split
  · trivial
  · rename_i whole rest hwhole
    obtain ⟨hrest, run, hrun, hdigits, hlength⟩ := splitWhole?_run hwhole
    have hafter : (splitExponent (splitFraction rest).2).2 <:+ cursor.rest :=
      (splitExponent_suffix _).trans ((splitFraction_suffix rest).trans (hrest.trans hbody))
    split
    · split
      · rename_i hlong
        exact ⟨hlong, run, hrun.trans hbody.isInfix, hdigits, hlength⟩
      · exact hafter
    · exact hafter

/-! ## Arrays, objects, documents -/

/-- What a reader reads is accounted for, wherever it begins. -/
def Steady (depth : Nat) (reader : ValueReader) : Prop :=
  ∀ cursor, Accounted depth cursor.rest (reader cursor)

theorem readItems_accounted {readItem : ValueReader} (h : Steady depth readItem) (items : List Json)
    (turns : Nat) : Steady depth (readItems readItem items turns) := by
  intro cursor
  induction turns generalizing items cursor with
  | zero => trivial
  | succ turns ih =>
    rw [readItems]
    refine (h cursor).bind ?_
    intro item after hafter
    simp only
    split
    · rename_i rest hclose
      exact (skip_tail hclose).trans hafter
    · rename_i rest hcomma
      exact (ih _ _).mono ((skip_suffix _).trans ((skip_tail hcomma).trans hafter))
    · trivial

theorem readMembers_accounted {readItem : ValueReader} (h : Steady depth readItem)
    (members : List (Text × Json)) (turns : Nat) :
    Steady depth (readMembers readItem members turns) := by
  intro cursor
  induction turns generalizing members cursor with
  | zero => trivial
  | succ turns ih =>
    rw [readMembers]
    split
    · rename_i rest hquote
      have hname : rest <:+ cursor.rest := hquote ▸ List.suffix_cons _ rest
      refine ((readString_accounted _ _ _ rest).mono hname).bind ?_
      intro key named hnamed
      simp only
      split
      · rename_i rest hcolon
        have hvalue : (Cursor.mk (named.skip.place + 1) rest).skip.rest <:+ cursor.rest :=
          (skip_suffix _).trans ((skip_tail hcolon).trans hnamed)
        refine ((h _).mono hvalue).bind ?_
        intro value after hafter
        simp only
        split
        · rename_i rest hclose
          exact (skip_tail hclose).trans hafter
        · rename_i rest hcomma
          exact (ih _ _).mono ((skip_suffix _).trans ((skip_tail hcomma).trans hafter))
        · trivial
      · trivial
    · trivial

theorem readValue_accounted (depth : Nat) : Steady depth (readValue depth) := by
  intro cursor
  unfold readValue
  split
  · rename_i rest hquote
    have hname : rest <:+ cursor.rest := hquote ▸ List.suffix_cons _ rest
    exact ((readString_accounted _ _ _ rest).mono hname).bind fun _ _ hafter => hafter
  · rename_i rest hopen
    rw [hopen]
    cases depth with
    | zero => simp [Accounted, ReadFault.Shows, openings]
    | succ depth =>
      refine Accounted.deepen (.inl rfl) ?_
      simp only
      split
      · rename_i inner hclose
        exact skip_tail hclose
      · exact (readItems_accounted (readValue_accounted depth) _ _ _).mono (skip_suffix _)
  · rename_i rest hopen
    rw [hopen]
    cases depth with
    | zero => simp [Accounted, ReadFault.Shows, openings]
    | succ depth =>
      refine Accounted.deepen (.inr rfl) ?_
      simp only
      split
      · rename_i inner hclose
        exact skip_tail hclose
      · exact (readMembers_accounted (readValue_accounted depth) _ _ _).mono (skip_suffix _)
  · split
    · rename_i reading hread
      exact readName?_suffix hread
    · exact readNumber_accounted cursor

/-- **A text that is not read accounts for it.** It is malformed at a place, or it has more digits in a
    row than an integer may have, or it opens more arrays and objects than may be nested. -/
theorem read_accounted {text : Text} {fault : ReadFault} (h : read depth text = .error fault) :
    fault.Shows depth text.toList := by
  rw [read] at h
  split at h
  · cases h
    trivial
  · have hread := (readValue_accounted depth (Cursor.mk 0 text.toList).skip).mono (skip_suffix _)
    cases hvalue : readValue depth (Cursor.mk 0 text.toList).skip with
    | error fault' =>
      rw [hvalue] at h hread
      cases h
      exact hread
    | ok reading =>
      rw [hvalue] at h
      simp only [bind, Except.bind] at h
      split at h <;> cases h
      trivial

/-! ## Documents that are not read -/

theorem splitDigits_of_isDigit {s : List CodePoint} (h : ∀ c ∈ s, isDigit c) :
    (splitDigits s).1.length = s.length ∧ (splitDigits s).2 = [] := by
  induction s with
  | nil => exact ⟨rfl, rfl⟩
  | cons c rest ih =>
    obtain ⟨hc, hrest⟩ := List.forall_mem_cons.1 h
    obtain ⟨hlength, hafter⟩ := ih hrest
    rw [splitDigits, if_pos hc]
    exact ⟨congrArg (· + 1) hlength, hafter⟩

variable {first : CodePoint} {digits : List CodePoint}

theorem ne_of_isDigit {c other : CodePoint} (hc : isDigit c) (h : isDigit other = false) : c ≠ other := by
  rintro rfl
  rw [hc] at h
  cases h

theorem isSpace_eq_false_of_isDigit {c : CodePoint} (h : isDigit c) : isSpace c = false := by
  cases hspace : isSpace c with
  | false => rfl
  | true =>
    simp only [isSpace, Bool.or_eq_true, beq_iff_eq] at hspace
    rcases hspace with ((rfl | rfl) | rfl) | rfl <;> cases h

theorem splitWhole?_of_isDigit (hfirst : first ≠ .char '0') (h : ∀ c ∈ first :: digits, isDigit c) :
    ∃ whole, splitWhole? (first :: digits) = some (whole, []) ∧
      whole.length = (first :: digits).length := by
  obtain ⟨hlength, hafter⟩ := splitDigits_of_isDigit h
  refine ⟨(splitDigits (first :: digits)).1, ?_, hlength⟩
  unfold splitWhole?
  split
  · rename_i heq
    exact absurd (List.cons.inj heq).1 hfirst
  · split
    · rename_i heq
      rw [heq] at hlength
      cases hlength
    · rw [← hafter]

/-- What begins with a digit is a number. -/
theorem readValue_of_isDigit (hfirst : isDigit first) (place : Nat) :
    readValue depth ⟨place, first :: digits⟩ = readNumber ⟨place, first :: digits⟩ := by
  have hother {c : CodePoint} : isDigit c = false → first ≠ c := ne_of_isDigit hfirst
  have hname : readName? ⟨place, first :: digits⟩ = none := by
    have hbegin : ∀ named ∈ names, ∃ c ∈ named.1.toList.head?, isDigit c = false := by
      simp only [names, List.forall_mem_cons]
      exact ⟨⟨.char 'n', rfl, rfl⟩, ⟨.char 't', rfl, rfl⟩, ⟨.char 'f', rfl, rfl⟩, ⟨.char 'N', rfl, rfl⟩,
        ⟨.char 'I', rfl, rfl⟩, ⟨.char '-', rfl, rfl⟩, nofun⟩
    refine List.findSome?_eq_none_iff.2 fun ⟨name, named⟩ hmem => ?_
    obtain ⟨c, hc, hdigit⟩ := hbegin _ hmem
    obtain ⟨rest, hrest : name.toList = c :: rest⟩ := List.head?_eq_some_iff.1 hc
    simp [hrest, List.isPrefixOf?, (hother hdigit).symm]
  unfold readValue
  split
  · rename_i heq
    exact absurd (List.cons.inj heq).1 (hother rfl)
  · rename_i heq
    exact absurd (List.cons.inj heq).1 (hother rfl)
  · rename_i heq
    exact absurd (List.cons.inj heq).1 (hother rfl)
  · rw [hname]

/-- **An integer may be too long.** A document of more digits than an integer may have is not read. -/
theorem read_digits (hfirst : first ≠ .char '0') (h : ∀ c ∈ first :: digits, isDigit c)
    (hlong : maxIntegerDigits < (first :: digits).length) :
    read depth (.ofList (first :: digits)) = .error (.integerTooLong (first :: digits).length) := by
  obtain ⟨whole, hwhole, hlength⟩ := splitWhole?_of_isDigit hfirst h
  have hdigit : isDigit first := h first List.mem_cons_self
  have hother {c : CodePoint} : isDigit c = false → first ≠ c := ne_of_isDigit hdigit
  have hskip : (Cursor.mk 0 (first :: digits)).skip = ⟨0, first :: digits⟩ := by
    simp [Cursor.skip, isSpace_eq_false_of_isDigit hdigit]
  have hnumber : readNumber ⟨0, first :: digits⟩ = .error (.integerTooLong whole.length) := by
    have hwhole_long : maxIntegerDigits < whole.length := hlength ▸ hlong
    have hminus : first ≠ .char '-' := hother rfl
    simp [readNumber, hminus, hwhole, hwhole_long, splitFraction, splitExponent]
  rw [read, if_neg (by simpa using hother rfl), hskip, readValue_of_isDigit hdigit, hnumber, hlength]
  rfl

theorem readValue_openings {count : Nat} (h : depth < count) (place : Nat) :
    readValue depth ⟨place, List.replicate count (.char '[')⟩ = .error .tooDeep := by
  induction depth generalizing count place with
  | zero =>
    obtain ⟨more, rfl⟩ := Nat.exists_eq_succ_of_ne_zero (Nat.ne_of_gt h)
    rfl
  | succ depth ih =>
    -- every opening after the first begins the first item of the array before it
    obtain ⟨more, rfl⟩ := Nat.exists_eq_add_of_lt h
    have hitem := @ih (depth + more + 1) (by omega) (place + 1)
    have hcount : depth + 1 + more + 1 = depth + more + 1 + 1 := by omega
    rw [List.replicate_succ] at hitem
    rw [hcount, List.replicate_succ, List.replicate_succ]
    simp [readValue, Cursor.skip, isSpace, readItems, hitem, bind, Except.bind]

/-- **Nesting may be too deep.** A document that opens more arrays than may be nested is not read. -/
theorem read_openings {count : Nat} (h : depth < count) :
    read depth (.ofList (List.replicate count (.char '['))) = .error .tooDeep := by
  have hvalue := readValue_openings h 0
  obtain ⟨more, rfl⟩ := Nat.exists_eq_add_of_lt h
  rw [List.replicate_succ] at hvalue ⊢
  simp [read, Cursor.skip, isSpace, hvalue, bind, Except.bind]

end SmallLisp.Json
