import SmallLisp.Proofs.Text.Utf8

/-!
# `Proofs.Text.Malformed` — octets that are no text

Octets begin a character if they are what a first octet announces, as far as they go (`begins_iff`), and they
are one as soon as there are as many of them as announced (`exists_encodeChar`).

So octets are those of characters, and then octets that begin with no character (`exists_text`). If there are
none of the latter, all is decoded. Otherwise the octets are refused, and the fault tells the place and the
longest sequence there that begins a character (`decode_eq_error_iff`). Hence nothing is decoded but what
encoding gives (`decode_eq_ok_iff`), which is what the standard library calls valid (`isValidUTF8_iff`).
-/

namespace SmallLisp.Text.Utf8

/-- **The start of a character**: the octets of some character begin like this. -/
def Begins (piece : List UInt8) : Prop := ∃ c, piece <+: String.utf8EncodeChar c

/-- **Why octets begin with no character.** The first one starts none; or those that could go on with it are
    followed by one that could not; or they are followed by nothing. -/
def Reason.Explains (reason : Reason) (length : Nat) (rest : List UInt8) : Prop :=
  match reason with
  | .invalidStart => length = 1 ∧ ¬ Begins (rest.take 1)
  | .invalidContinuation =>
    0 < length ∧ length < rest.length ∧ Begins (rest.take length) ∧ ¬ Begins (rest.take (length + 1))
  | .unexpectedEnd => length = rest.length ∧ Begins rest

/-- **The fault of octets that are no text.** Its place is where the characters at the front end and no other
    one follows, and it has the reason for that. -/
def Malformed.Marks (fault : Malformed) (octets : List UInt8) : Prop :=
  ∃ good rest, octets = encode good ++ rest ∧ (∀ c, ¬ String.utf8EncodeChar c <+: rest) ∧
    fault.start = (encode good).length ∧ rest.head? = some fault.octet ∧
    fault.reason.Explains fault.length rest

variable {b b₀ : UInt8} {lead : Lead} {more rest octets : List UInt8} {s : List Char}

/-! ## Characters -/

/-- A code that is no surrogate's and not past the last character is that of a character. -/
theorem toNat_ofNat {n : Nat} (h : n < 0xD800 ∨ 0xDFFF < n ∧ n < 0x110000) :
    (Char.ofNat n).toNat = n := by
  have hvalid : n.isValidChar := h
  rw [Char.ofNat, dif_pos hvalid]
  rfl

section

variable {b₁ b₂ b₃ : UInt8} {bits : Nat}

/-- Six bits more, and the octet that carries them. -/
theorem div_addBits (h : isContinuation b₁) :
    addBits bits b₁ / 64 = bits ∧ following (addBits bits b₁) = b₁ := by
  simp only [isContinuation, Bool.and_eq_true, decide_eq_true_eq] at h
  have hbits : addBits bits b₁ = 64 * bits + (b₁.toNat - 0x80) := rfl
  constructor
  · omega
  · apply UInt8.toNat_inj.1
    rw [toNat_following]
    omega

theorem encodeChar_two (h₁ : isContinuation b₁) {n : Nat} (hn : n = addBits bits b₁)
    (hleast : 0x80 ≤ n) (hmost : n < 0x800) :
    String.utf8EncodeChar (Char.ofNat n) = [UInt8.ofNat (bits + 192), b₁] := by
  obtain ⟨hbits, hlast⟩ := @div_addBits b₁ bits h₁
  rw [← hn] at hbits hlast
  have hfirst : n / 64 % 32 = bits := by omega
  rw [encodeChar_eq, toNat_ofNat (by omega), if_neg (by omega), if_pos hmost, hfirst, hlast]

theorem encodeChar_three (h₁ : isContinuation b₁) (h₂ : isContinuation b₂) {n : Nat}
    (hn : n = addBits (addBits bits b₁) b₂) (hleast : 0x800 ≤ n) (hmost : n < 0x10000)
    (hsurrogate : n < 0xD800 ∨ 0xDFFF < n) :
    String.utf8EncodeChar (Char.ofNat n) = [UInt8.ofNat (bits + 224), b₁, b₂] := by
  obtain ⟨hbits, hsecond⟩ := @div_addBits b₁ bits h₁
  obtain ⟨hsix, hlast⟩ := @div_addBits b₂ (addBits bits b₁) h₂
  rw [← hn] at hsix hlast
  rw [← hsix] at hbits hsecond
  have hfirst : n / 4096 % 16 = bits := by omega
  rw [encodeChar_eq, toNat_ofNat (by omega), if_neg (by omega), if_neg (by omega), if_pos hmost, hfirst,
    hsecond, hlast]

theorem encodeChar_four (h₁ : isContinuation b₁) (h₂ : isContinuation b₂) (h₃ : isContinuation b₃)
    {n : Nat} (hn : n = addBits (addBits (addBits bits b₁) b₂) b₃) (hleast : 0x10000 ≤ n)
    (hmost : n < 0x110000) :
    String.utf8EncodeChar (Char.ofNat n) = [UInt8.ofNat (bits + 240), b₁, b₂, b₃] := by
  obtain ⟨hbits, hsecond⟩ := @div_addBits b₁ bits h₁
  obtain ⟨hsix, hthird⟩ := @div_addBits b₂ (addBits bits b₁) h₂
  obtain ⟨htwelve, hlast⟩ := @div_addBits b₃ (addBits (addBits bits b₁) b₂) h₃
  rw [← hn] at htwelve hlast
  rw [← htwelve] at hsix hthird
  rw [← hsix, Nat.div_div_eq_div_mul] at hbits hsecond
  have hfirst : n / 262144 % 8 = bits := by omega
  rw [encodeChar_eq, toNat_ofNat (by omega), if_neg (by omega), if_neg (by omega), if_neg (by omega),
    hfirst, hsecond, hthird, hlast]

end

theorem isContinuation_iff : isContinuation b ↔ 0x80 ≤ b.toNat ∧ b.toNat ≤ 0xBF := by
  rw [isContinuation, Bool.and_eq_true, decide_eq_true_eq, decide_eq_true_eq]
  omega

/-- **As many allowed octets as announced are a character** with the first one. -/
theorem exists_encodeChar (h : lead? b₀ = some lead) (hallows : lead.Allows more)
    (hlength : more.length = lead.more) : ∃ c, String.utf8EncodeChar c = b₀ :: more := by
  obtain ⟨_, hsecond, hlater⟩ := hallows
  have hfirst (bits start : Nat) (hbits : bits + start = b₀.toNat) : UInt8.ofNat (bits + start) = b₀ := by
    rw [hbits, UInt8.ofNat_toNat]
  rcases lead?_cases h with ⟨hleast, hmost, rfl⟩ | ⟨hleast, hmost, rfl⟩ | ⟨hleast, hmost, rfl⟩
  · match more, hlength with
    | [b₁], _ =>
      have hlimits : 0x80 ≤ b₁.toNat ∧ b₁.toNat ≤ 0xBF := by
        have := hsecond b₁ rfl
        dsimp only at this
        omega
      rw [← hfirst (b₀.toNat - 0xC0) 192 (by omega)]
      refine ⟨_, encodeChar_two (isContinuation_iff.2 hlimits) rfl ?_ ?_⟩
      all_goals
        unfold addBits
        omega
  · match more, hlength with
    | [b₁, b₂], _ =>
      -- the limits of the second octet keep out short codes and surrogates
      have hlimits : (b₀.toNat = 0xE0 → 0xA0 ≤ b₁.toNat) ∧ (b₀.toNat = 0xED → b₁.toNat ≤ 0x9F) ∧
          0x80 ≤ b₁.toNat ∧ b₁.toNat ≤ 0xBF := by
        have := hsecond b₁ rfl
        dsimp only at this
        split at this <;> split at this <;> omega
      have hb₂ := isContinuation_iff.1 (hlater b₂ (by simp))
      rw [← hfirst (b₀.toNat - 0xE0) 224 (by omega)]
      refine ⟨_, encodeChar_three (isContinuation_iff.2 hlimits.2.2) (isContinuation_iff.2 hb₂) rfl ?_ ?_ ?_⟩
      all_goals
        unfold addBits
        omega
  · match more, hlength with
    | [b₁, b₂, b₃], _ =>
      -- the limits of the second octet keep out short codes and those past the last character
      have hlimits : (b₀.toNat = 0xF0 → 0x90 ≤ b₁.toNat) ∧ (b₀.toNat = 0xF4 → b₁.toNat ≤ 0x8F) ∧
          0x80 ≤ b₁.toNat ∧ b₁.toNat ≤ 0xBF := by
        have := hsecond b₁ rfl
        dsimp only at this
        split at this <;> split at this <;> omega
      have hb₂ := isContinuation_iff.1 (hlater b₂ (by simp))
      have hb₃ := isContinuation_iff.1 (hlater b₃ (by simp))
      rw [← hfirst (b₀.toNat - 0xF0) 240 (by omega)]
      refine ⟨_, encodeChar_four (isContinuation_iff.2 hlimits.2.2) (isContinuation_iff.2 hb₂)
        (isContinuation_iff.2 hb₃) rfl ?_ ?_⟩
      all_goals
        unfold addBits
        omega

/-- The octets after the first one of a character are allowed, and as many as announced. -/
theorem allows_of_encodeChar {c : Char} (hc : String.utf8EncodeChar c = b₀ :: more)
    (h : lead? b₀ = some lead) : lead.Allows more ∧ more.length = lead.more := by
  rcases encodeChar_cases c with ⟨hone, hoctets⟩ | ⟨b₁, other, others, hoctets, hother, hallows, hlength, _⟩
  · -- a character of one octet announces nothing
    obtain ⟨rfl, -⟩ := List.cons.inj (hoctets.symm.trans hc)
    refine absurd ?_ (not_lt_of_lead? h)
    rwa [toNat_octet (by omega)]
  · obtain ⟨rfl, rfl⟩ := List.cons.inj (hoctets.symm.trans hc)
    obtain rfl := Option.some.inj (hother.symm.trans h)
    exact ⟨hallows, hlength⟩

/-! ## Beginnings of characters -/

namespace Lead.Allows

theorem nil (lead : Lead) : lead.Allows [] := ⟨Nat.zero_le _, nofun, nofun⟩

theorem of_append (h : lead.Allows (more ++ rest)) : lead.Allows more := by
  obtain ⟨hlength, hsecond, hlater⟩ := h
  rw [List.length_append] at hlength
  cases more with
  | nil => exact .nil lead
  | cons b more =>
    exact ⟨by omega, hsecond, fun b hb => hlater b (List.mem_append_left rest hb)⟩

/-- What is missing can be put there. -/
theorem complete (h : lead? b₀ = some lead) (hallows : lead.Allows more) :
    ∃ rest, lead.Allows (more ++ rest) ∧ (more ++ rest).length = lead.more := by
  obtain ⟨hpos, _, hleast, hle, hgreatest⟩ := lead?_bounds h
  have hcontinues : ∀ count, ∀ b ∈ List.replicate count (0x80 : UInt8), isContinuation b = true := by
    intro count b hb
    rw [List.eq_of_mem_replicate hb]
    rfl
  cases more with
  | nil =>
    refine ⟨UInt8.ofNat lead.least :: List.replicate (lead.more - 1) 0x80, ⟨?_, ?_, ?_⟩, ?_⟩
    · simp
      omega
    · rintro _ ⟨⟩
      rw [toNat_octet (by omega)]
      omega
    · exact hcontinues _
    · simp
      omega
  | cons b more =>
    obtain ⟨hlength, hsecond, hlater⟩ := hallows
    refine ⟨List.replicate (lead.more - (more.length + 1)) 0x80, ⟨?_, hsecond, ?_⟩, ?_⟩
    · simp at hlength ⊢
      omega
    · exact List.forall_mem_append.2 ⟨hlater, hcontinues _⟩
    · simp at hlength ⊢
      omega

end Lead.Allows

/-- **Octets begin a character if they are allowed.** -/
theorem begins_iff (h : lead? b₀ = some lead) : Begins (b₀ :: more) ↔ lead.Allows more := by
  constructor
  · rintro ⟨c, rest, hrest⟩
    exact (allows_of_encodeChar hrest.symm h).1.of_append
  · intro hallows
    obtain ⟨rest, hwhole, hlength⟩ := hallows.complete h
    obtain ⟨c, hc⟩ := exists_encodeChar h hwhole hlength
    exact ⟨c, rest, hc.symm⟩

theorem Begins.of_prefix {piece longer : List UInt8} (h : Begins longer) (hfront : piece <+: longer) :
    Begins piece := by
  obtain ⟨c, hc⟩ := h
  exact ⟨c, hfront.trans hc⟩

theorem Begins.take {n m : Nat} (h : Begins (rest.take m)) (hle : n ≤ m) : Begins (rest.take n) :=
  h.of_prefix (List.take_prefix_take_left hle)

/-! ## Octets that begin with no character -/

theorem explains_unexpectedEnd (h : lead? b₀ = some lead) (hallows : lead.Allows more) :
    Reason.unexpectedEnd.Explains (more.length + 1) (b₀ :: more) :=
  ⟨rfl, (begins_iff h).2 hallows⟩

theorem explains_invalidContinuation (h : lead? b₀ = some lead) (hallows : lead.Allows more)
    (hb : ¬ lead.Allows (more ++ [b])) :
    Reason.invalidContinuation.Explains (more.length + 1) (b₀ :: (more ++ b :: rest)) := by
  have hlonger : (more ++ b :: rest).take (more.length + 1) = more ++ [b] := by
    rw [List.take_length_add_append]
    rfl
  refine ⟨Nat.succ_pos _, by simp, ?_, ?_⟩
  · rw [List.take_succ_cons, List.take_left']
    · exact (begins_iff h).2 hallows
    · rfl
  · rw [List.take_succ_cons, hlonger]
    exact fun hbegins => hb ((begins_iff h).1 hbegins)

/-- What is no character itself and announces none begins no character. -/
theorem not_begins (hascii : ¬ b₀.toNat < 0x80) (h : lead? b₀ = none) : ¬ Begins (b₀ :: more) := by
  rintro ⟨c, rest, hc⟩
  rcases encodeChar_cases c with ⟨hone, hoctets⟩ | ⟨b₁, lead, others, hoctets, hlead, _⟩
  · obtain ⟨rfl, -⟩ := List.cons.inj (hoctets.symm.trans hc.symm)
    rw [toNat_octet (by omega)] at hascii
    exact hascii hone
  · obtain ⟨rfl, -⟩ := List.cons.inj (hoctets.symm.trans hc.symm)
    rw [h] at hlead
    cases hlead

/-- **Octets that begin with no character are refused**, for the reason that explains it. -/
theorem decodeFrom_eq_error (h : ∀ c, ¬ String.utf8EncodeChar c <+: b₀ :: rest) (start : Nat) :
    ∃ length reason, decodeFrom start (b₀ :: rest) = .error ⟨start, b₀, length, reason⟩ ∧
      reason.Explains length (b₀ :: rest) := by
  have hascii : ¬ b₀.toNat < 0x80 := by
    intro hascii
    have hcode : (Char.ofNat b₀.toNat).toNat = b₀.toNat := toNat_ofNat (by omega)
    apply h (Char.ofNat b₀.toNat)
    rw [encodeChar_eq, hcode, if_pos hascii, UInt8.ofNat_toNat]
    exact List.prefix_append [b₀] rest
  cases hlead : lead? b₀ with
  | none => exact ⟨1, .invalidStart, by simp [decodeFrom, hascii, hlead], rfl, not_begins hascii hlead⟩
  | some lead =>
    obtain ⟨hpos, hmost, _⟩ := lead?_bounds hlead
    -- what is allowed at the front is too short, since it would be a character otherwise
    have hshort {more tail : List UInt8} (hrest : rest = more ++ tail) (hallows : lead.Allows more) :
        lead.more ≠ more.length := by
      intro hlength
      obtain ⟨c, hc⟩ := exists_encodeChar hlead hallows hlength.symm
      apply h c
      rw [hc, hrest]
      exact List.prefix_append (b₀ :: more) tail
    cases rest with
    | nil =>
      exact ⟨1, .unexpectedEnd, by simp [decodeFrom, hascii, hlead], explains_unexpectedEnd hlead (.nil lead)⟩
    | cons b₁ rest =>
      by_cases h₁ : b₁.toNat < lead.least ∨ lead.greatest < b₁.toNat
      · exact ⟨1, .invalidContinuation, by simp [decodeFrom, hascii, hlead, h₁],
          explains_invalidContinuation hlead (.nil lead) fun hallows => hallows.second b₁ rfl h₁⟩
      have hsecond : ∀ b ∈ [b₁].head?, ¬ (b.toNat < lead.least ∨ lead.greatest < b.toNat) := by
        rintro _ ⟨⟩
        exact h₁
      have hone : lead.Allows [b₁] := ⟨hpos, hsecond, fun _ hb => absurd hb List.not_mem_nil⟩
      have hmore₁ : lead.more ≠ 1 := hshort rfl hone
      cases rest with
      | nil =>
        exact ⟨2, .unexpectedEnd, by simp [decodeFrom, hascii, hlead, h₁, hmore₁],
          explains_unexpectedEnd hlead hone⟩
      | cons b₂ rest =>
        by_cases h₂ : isContinuation b₂ = true
        · have htwo : lead.Allows [b₁, b₂] :=
            ⟨by simp; omega, hsecond, List.forall_mem_singleton.2 h₂⟩
          have hmore₂ : lead.more ≠ 2 := hshort rfl htwo
          cases rest with
          | nil =>
            exact ⟨3, .unexpectedEnd, by simp [decodeFrom, hascii, hlead, h₁, hmore₁, h₂, hmore₂],
              explains_unexpectedEnd hlead htwo⟩
          | cons b₃ rest =>
            by_cases h₃ : isContinuation b₃ = true
            · -- three octets are the most that are announced
              have hthree : lead.Allows [b₁, b₂, b₃] :=
                ⟨by simp; omega, hsecond, List.forall_mem_cons.2 ⟨h₂, List.forall_mem_singleton.2 h₃⟩⟩
              exact absurd (hshort rfl hthree) (by simp; omega)
            · exact ⟨3, .invalidContinuation, by simp [decodeFrom, hascii, hlead, h₁, hmore₁, h₂, hmore₂, h₃],
                explains_invalidContinuation hlead htwo fun hallows => h₃ (hallows.later b₃ (by simp))⟩
        · exact ⟨2, .invalidContinuation, by simp [decodeFrom, hascii, hlead, h₁, hmore₁, h₂],
            explains_invalidContinuation hlead hone fun hallows => h₂ (hallows.later b₂ (by simp))⟩

/-! ## Octets and texts -/

/-- Octets are those of a text, and then some that begin with no character, if any. -/
theorem exists_text (octets : List UInt8) :
    ∃ good rest, octets = encode good ++ rest ∧ ∀ c, ¬ String.utf8EncodeChar c <+: rest := by
  -- each character takes an octet at least
  induction hsize : octets.length using Nat.strongRecOn generalizing octets with
  | _ size ih =>
    by_cases hfront : ∃ c, String.utf8EncodeChar c <+: octets
    · obtain ⟨c, tail, rfl⟩ := hfront
      have hpos : 0 < (String.utf8EncodeChar c).length := List.length_pos_iff.2 String.utf8EncodeChar_ne_nil
      rw [List.length_append] at hsize
      obtain ⟨good, rest, rfl, hrest⟩ := ih tail.length (by omega) tail rfl
      exact ⟨c :: good, rest, (List.append_assoc _ _ _).symm, hrest⟩
    · exact ⟨[], octets, rfl, fun c hc => hfront ⟨c, hc⟩⟩

/-- **The reason why octets begin with no character is the only one.** -/
theorem Reason.Explains.unique {reason other : Reason} {length size : Nat}
    (h : reason.Explains length rest) (h' : other.Explains size rest) :
    length = size ∧ reason = other := by
  match reason, other, h, h' with
  | .invalidStart, .invalidStart, ⟨hlength, _⟩, ⟨hsize, _⟩ => exact ⟨hlength.trans hsize.symm, rfl⟩
  | .invalidStart, .invalidContinuation, ⟨_, hnone⟩, ⟨hpos, _, hbegins, _⟩ =>
    exact absurd (hbegins.take hpos) hnone
  | .invalidStart, .unexpectedEnd, ⟨_, hnone⟩, ⟨_, hbegins⟩ =>
    exact absurd (hbegins.of_prefix (List.take_prefix _ _)) hnone
  | .invalidContinuation, .invalidStart, ⟨hpos, _, hbegins, _⟩, ⟨_, hnone⟩ =>
    exact absurd (hbegins.take hpos) hnone
  | .invalidContinuation, .invalidContinuation, ⟨_, _, hbegins, hnone⟩, ⟨_, _, hbegins', hnone'⟩ =>
    rcases Nat.lt_trichotomy length size with hlt | rfl | hgt
    · exact absurd (hbegins'.take hlt) hnone
    · exact ⟨rfl, rfl⟩
    · exact absurd (hbegins.take hgt) hnone'
  | .invalidContinuation, .unexpectedEnd, ⟨_, _, _, hnone⟩, ⟨_, hbegins⟩ =>
    exact absurd (hbegins.of_prefix (List.take_prefix _ _)) hnone
  | .unexpectedEnd, .invalidStart, ⟨_, hbegins⟩, ⟨_, hnone⟩ =>
    exact absurd (hbegins.of_prefix (List.take_prefix _ _)) hnone
  | .unexpectedEnd, .invalidContinuation, ⟨_, hbegins⟩, ⟨_, _, _, hnone⟩ =>
    exact absurd (hbegins.of_prefix (List.take_prefix _ _)) hnone
  | .unexpectedEnd, .unexpectedEnd, ⟨hlength, _⟩, ⟨hsize, _⟩ => exact ⟨hlength.trans hsize.symm, rfl⟩

/-- Octets are a text, or a fault marks them. -/
theorem exists_encode_or_marks (octets : List UInt8) :
    (∃ s, octets = encode s) ∨ ∃ fault : Malformed, fault.Marks octets := by
  obtain ⟨good, rest, rfl, hrest⟩ := exists_text octets
  cases rest with
  | nil => exact .inl ⟨good, List.append_nil _⟩
  | cons b₀ rest =>
    obtain ⟨length, reason, _, hexplains⟩ := decodeFrom_eq_error hrest 0
    exact .inr ⟨⟨(encode good).length, b₀, length, reason⟩, good, b₀ :: rest, rfl, hrest, rfl, rfl, hexplains⟩

theorem decode_of_marks {fault : Malformed} (h : fault.Marks octets) : decode octets = .error fault := by
  obtain ⟨good, rest, rfl, hrest, hstart, hhead, hexplains⟩ := h
  obtain ⟨tail, rfl⟩ := List.head?_eq_some_iff.1 hhead
  obtain ⟨length, reason, herror, hfound⟩ := decodeFrom_eq_error hrest fault.start
  obtain ⟨hlength, hreason⟩ := hfound.unique hexplains
  rw [decode, decodeFrom_encode_append, Nat.zero_add, ← hstart, herror, hlength, hreason]
  rfl

/-- **Nothing is decoded but octets of texts.** -/
theorem decode_eq_ok_iff : decode octets = .ok s ↔ octets = encode s := by
  constructor
  · intro h
    rcases exists_encode_or_marks octets with ⟨t, rfl⟩ | ⟨fault, hmarks⟩
    · rw [decode_encode] at h
      rw [Except.ok.inj h]
    · rw [decode_of_marks hmarks] at h
      cases h
  · rintro rfl
    exact decode_encode s

/-- **Octets are refused with the fault that marks them.** -/
theorem decode_eq_error_iff {fault : Malformed} : decode octets = .error fault ↔ fault.Marks octets := by
  constructor
  · intro h
    rcases exists_encode_or_marks octets with ⟨t, rfl⟩ | ⟨other, hmarks⟩
    · rw [decode_encode] at h
      cases h
    · rw [decode_of_marks hmarks] at h
      exact Except.error.inj h ▸ hmarks
  · exact decode_of_marks

/-! ## Octets of the standard library -/

/-- The octets of a text are those of the standard library. -/
theorem encode_toList (s : String) : encode s.toList = s.toUTF8.data.toList := by
  rw [String.toUTF8_eq_toByteArray, ← String.utf8Encode_toList, List.utf8Encode,
    List.toList_data_toByteArray]
  rfl

/-- **Octets of texts are what the standard library calls valid.** -/
theorem isValidUTF8_iff : octets.toByteArray.IsValidUTF8 ↔ ∃ s, octets = encode s := by
  constructor
  · rintro ⟨s, hs⟩
    exact ⟨s, List.toByteArray_inj.1 hs⟩
  · rintro ⟨s, rfl⟩
    exact ⟨s, rfl⟩

end SmallLisp.Text.Utf8
