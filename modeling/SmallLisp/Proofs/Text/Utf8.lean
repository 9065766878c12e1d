import SmallLisp.Text.Utf8

/-!
# `Proofs.Text.Utf8` — octets and texts are each other's inverse

`decode` undoes `encode` on every text (`decode_encode`). A character is one octet, or an octet that announces
the others (`Lead.Allows`) followed by six bits of the character in each (`encodeChar_cases`); there is a
lemma for each of the three lengths, and `decodeFrom_allowed` puts them together. Only a line feed has the
octet of the line feed in it (`lineFeed_not_mem_encode`), so lines can be cut before they are decoded.
-/

namespace SmallLisp.Text.Utf8

/-! ## Octets -/

theorem toNat_octet {n : Nat} (h : n < 256) : (UInt8.ofNat n).toNat = n := UInt8.toNat_ofNat_of_lt' h

/-- The octet that carries the last six bits of `n`. -/
def following (n : Nat) : UInt8 := UInt8.ofNat (n % 64 + 128)

theorem toNat_following (n : Nat) : (following n).toNat = n % 64 + 128 := by
  have hlt : n % 64 + 128 < 256 := by omega
  exact toNat_octet hlt

theorem isContinuation_following (n : Nat) : isContinuation (following n) = true := by
  rw [isContinuation, toNat_following, Bool.and_eq_true, decide_eq_true_eq, decide_eq_true_eq]
  omega

/-- The last six bits after the others give the number back. -/
theorem addBits_following (n : Nat) : addBits (n / 64) (following n) = n := by
  have hsix := toNat_following n
  unfold addBits
  omega

/-! ## Announcements -/

/-- The announcement allows these octets after the first, as far as they go. -/
structure Lead.Allows (lead : Lead) (more : List UInt8) : Prop where
  length_le : more.length ≤ lead.more
  second : ∀ b ∈ more.head?, ¬ (b.toNat < lead.least ∨ lead.greatest < b.toNat)
  later : ∀ b ∈ more.tail, isContinuation b = true

/-- What the first octets of two, three and four announce. -/
theorem lead?_cases {octet : UInt8} {lead : Lead} (h : lead? octet = some lead) :
    (0xC2 ≤ octet.toNat ∧ octet.toNat < 0xE0 ∧ lead = ⟨octet.toNat - 0xC0, 1, 0x80, 0xBF⟩) ∨
    (0xE0 ≤ octet.toNat ∧ octet.toNat < 0xF0 ∧
      lead = ⟨octet.toNat - 0xE0, 2, if octet.toNat = 0xE0 then 0xA0 else 0x80,
        if octet.toNat = 0xED then 0x9F else 0xBF⟩) ∨
    (0xF0 ≤ octet.toNat ∧ octet.toNat < 0xF5 ∧
      lead = ⟨octet.toNat - 0xF0, 3, if octet.toNat = 0xF0 then 0x90 else 0x80,
        if octet.toNat = 0xF4 then 0x8F else 0xBF⟩) := by
  simp only [lead?] at h
  split at h
  · cases h
  · split at h
    · exact .inl ⟨by omega, by assumption, (Option.some.inj h).symm⟩
    · split at h
      · exact .inr (.inl ⟨by omega, by assumption, (Option.some.inj h).symm⟩)
      · split at h
        · exact .inr (.inr ⟨by omega, by assumption, (Option.some.inj h).symm⟩)
        · cases h

/-- One to three octets are announced, and the second one is a continuation with further limits. -/
theorem lead?_bounds {octet : UInt8} {lead : Lead} (h : lead? octet = some lead) :
    0 < lead.more ∧ lead.more < 4 ∧ 0x80 ≤ lead.least ∧ lead.least ≤ lead.greatest ∧
      lead.greatest ≤ 0xBF := by
  rcases lead?_cases h with ⟨_, _, rfl⟩ | ⟨_, _, rfl⟩ | ⟨_, _, rfl⟩
  · dsimp only
    omega
  · dsimp only
    split <;> split <;> omega
  · dsimp only
    split <;> split <;> omega

section

variable {n : Nat}

/-- The first octet of two. -/
theorem lead?_two (hleast : 0x80 ≤ n) (hmost : n < 0x800) :
    lead? (UInt8.ofNat (n / 64 % 32 + 192)) = some ⟨n / 64, 1, 0x80, 0xBF⟩ := by
  have hoctet : (UInt8.ofNat (n / 64 % 32 + 192)).toNat = n / 64 + 0xC0 := by
    rw [toNat_octet (by omega)]
    omega
  rw [lead?, hoctet, if_neg (by omega), if_pos (by omega), Nat.add_sub_cancel]

/-- The first octet of three. -/
theorem lead?_three (hmost : n < 0x10000) :
    lead? (UInt8.ofNat (n / 4096 % 16 + 224)) =
      some ⟨n / 4096, 2, if n / 4096 = 0 then 0xA0 else 0x80, if n / 4096 = 13 then 0x9F else 0xBF⟩ := by
  have hoctet : (UInt8.ofNat (n / 4096 % 16 + 224)).toNat = n / 4096 + 0xE0 := by
    rw [toNat_octet (by omega)]
    omega
  have hleast : n / 4096 + 0xE0 = 0xE0 ↔ n / 4096 = 0 := by omega
  have hgreatest : n / 4096 + 0xE0 = 0xED ↔ n / 4096 = 13 := by omega
  rw [lead?, hoctet, if_neg (by omega), if_neg (by omega), if_pos (by omega), Nat.add_sub_cancel]
  simp only [hleast, hgreatest]

/-- The first octet of four. -/
theorem lead?_four (hmost : n < 0x110000) :
    lead? (UInt8.ofNat (n / 262144 % 8 + 240)) =
      some ⟨n / 262144, 3, if n / 262144 = 0 then 0x90 else 0x80,
        if n / 262144 = 4 then 0x8F else 0xBF⟩ := by
  have hoctet : (UInt8.ofNat (n / 262144 % 8 + 240)).toNat = n / 262144 + 0xF0 := by
    rw [toNat_octet (by omega)]
    omega
  have hleast : n / 262144 + 0xF0 = 0xF0 ↔ n / 262144 = 0 := by omega
  have hgreatest : n / 262144 + 0xF0 = 0xF4 ↔ n / 262144 = 4 := by omega
  rw [lead?, hoctet, if_neg (by omega), if_neg (by omega), if_neg (by omega), if_pos (by omega),
    Nat.add_sub_cancel]
  simp only [hleast, hgreatest]

end

/-! ## Sequences of octets -/

section

variable {b₀ b₁ b₂ b₃ : UInt8} {lead : Lead} {start : Nat} {more rest : List UInt8}

/-- An octet that announces others is no character of its own. -/
theorem not_lt_of_lead? (h : lead? b₀ = some lead) : ¬ b₀.toNat < 0x80 := by
  intro hascii
  rw [lead?, if_pos (by omega)] at h
  cases h

theorem decodeFrom_one (h : b₀.toNat < 0x80) :
    decodeFrom start (b₀ :: rest) = (decodeFrom (start + 1) rest).map (Char.ofNat b₀.toNat :: ·) := by
  rw [decodeFrom, if_pos h]

theorem decodeFrom_two (h : lead? b₀ = some lead) (hmore : lead.more = 1)
    (h₁ : ¬ (b₁.toNat < lead.least ∨ lead.greatest < b₁.toNat)) :
    decodeFrom start (b₀ :: b₁ :: rest) =
      (decodeFrom (start + 2) rest).map (Char.ofNat (addBits lead.bits b₁) :: ·) := by
  simp [decodeFrom, not_lt_of_lead? h, h, hmore, h₁]

theorem decodeFrom_three (h : lead? b₀ = some lead) (hmore : lead.more = 2)
    (h₁ : ¬ (b₁.toNat < lead.least ∨ lead.greatest < b₁.toNat)) (h₂ : isContinuation b₂ = true) :
    decodeFrom start (b₀ :: b₁ :: b₂ :: rest) =
      (decodeFrom (start + 3) rest).map
        (Char.ofNat (addBits (addBits lead.bits b₁) b₂) :: ·) := by
  simp [decodeFrom, not_lt_of_lead? h, h, hmore, h₁, h₂]

theorem decodeFrom_four (h : lead? b₀ = some lead) (hmore : lead.more = 3)
    (h₁ : ¬ (b₁.toNat < lead.least ∨ lead.greatest < b₁.toNat)) (h₂ : isContinuation b₂ = true)
    (h₃ : isContinuation b₃ = true) :
    decodeFrom start (b₀ :: b₁ :: b₂ :: b₃ :: rest) =
      (decodeFrom (start + 4) rest).map
        (Char.ofNat (addBits (addBits (addBits lead.bits b₁) b₂) b₃) :: ·) := by
  simp [decodeFrom, not_lt_of_lead? h, h, hmore, h₁, h₂, h₃]

/-- **As many allowed octets as announced make a character** with the first one. -/
theorem decodeFrom_allowed (h : lead? b₀ = some lead) (hallows : lead.Allows more)
    (hlength : more.length = lead.more) :
    decodeFrom start (b₀ :: (more ++ rest)) =
      (decodeFrom (start + (more.length + 1)) rest).map
        (Char.ofNat (more.foldl addBits lead.bits) :: ·) := by
  have hbounds := lead?_bounds h
  match more, hallows, hlength with
  | [], _, hlength => exact absurd hlength (Nat.ne_of_lt hbounds.1)
  | [b₁], ⟨_, hsecond, _⟩, hlength => exact decodeFrom_two h hlength.symm (hsecond b₁ rfl)
  | [b₁, b₂], ⟨_, hsecond, hlater⟩, hlength =>
    exact decodeFrom_three h hlength.symm (hsecond b₁ rfl) (hlater b₂ (by simp))
  | [b₁, b₂, b₃], ⟨_, hsecond, hlater⟩, hlength =>
    exact decodeFrom_four h hlength.symm (hsecond b₁ rfl) (hlater b₂ (by simp)) (hlater b₃ (by simp))
  | _ :: _ :: _ :: _ :: _, _, hlength =>
    rw [List.length_cons, List.length_cons, List.length_cons, List.length_cons] at hlength
    omega

end

/-! ## Characters -/

/-- The code of a character is none of a surrogate's, and below `0x110000`. -/
theorem toNat_bounds (c : Char) :
    c.toNat < 0x110000 ∧ ¬ (0xD800 ≤ c.toNat ∧ c.toNat < 0xE000) := by
  have hvalid : c.toNat < 0xD800 ∨ 0xDFFF < c.toNat ∧ c.toNat < 0x110000 := c.valid
  omega

/-- The octets of a character. -/
theorem encodeChar_eq (c : Char) :
    String.utf8EncodeChar c =
      if c.toNat < 0x80 then [UInt8.ofNat c.toNat]
      else if c.toNat < 0x800 then [UInt8.ofNat (c.toNat / 64 % 32 + 192), following c.toNat]
      else if c.toNat < 0x10000 then
        [UInt8.ofNat (c.toNat / 4096 % 16 + 224), following (c.toNat / 64), following c.toNat]
      else
        [UInt8.ofNat (c.toNat / 262144 % 8 + 240), following (c.toNat / 4096),
          following (c.toNat / 64), following c.toNat] := by
  rw [String.utf8EncodeChar.eq_1]
  simp only [← Nat.lt_succ_iff]
  rfl

/-- **The octets of a character**: one below `0x80`, or a first octet and those that it announces, which carry
    the bits of the character in their order. -/
theorem encodeChar_cases (c : Char) :
    (c.toNat < 0x80 ∧ String.utf8EncodeChar c = [UInt8.ofNat c.toNat]) ∨
    ∃ b₀ lead more, String.utf8EncodeChar c = b₀ :: more ∧ lead? b₀ = some lead ∧ lead.Allows more ∧
      more.length = lead.more ∧ Char.ofNat (more.foldl addBits lead.bits) = c := by
  obtain ⟨hmost, hsurrogate⟩ := toNat_bounds c
  have hc : Char.ofNat c.toNat = c := Char.ofNat_toNat c
  have hsix : c.toNat / 4096 = c.toNat / 64 / 64 := by
    rw [Nat.div_div_eq_div_mul]
  have htwelve : c.toNat / 262144 = c.toNat / 64 / 64 / 64 := by
    rw [Nat.div_div_eq_div_mul, Nat.div_div_eq_div_mul]
  rw [encodeChar_eq]
  by_cases hone : c.toNat < 0x80
  · exact .inl ⟨hone, if_pos hone⟩
  rw [if_neg hone]
  refine .inr ?_
  by_cases htwo : c.toNat < 0x800
  · rw [if_pos htwo]
    refine ⟨_, _, _, rfl, lead?_two (by omega) htwo, ⟨Nat.le_refl _, ?_, nofun⟩, rfl, ?_⟩
    · rintro _ ⟨⟩
      rw [toNat_following]
      dsimp only
      omega
    · simp only [List.foldl, addBits_following, hc]
  rw [if_neg htwo]
  by_cases hthree : c.toNat < 0x10000
  · rw [if_pos hthree]
    refine ⟨_, _, _, rfl, lead?_three hthree, ⟨Nat.le_refl _, ?_, ?_⟩, rfl, ?_⟩
    · -- the limits of the second octet keep out short codes and surrogates
      rintro _ ⟨⟩
      rw [toNat_following]
      dsimp only
      split <;> split <;> omega
    · exact List.forall_mem_singleton.2 (isContinuation_following _)
    · simp only [List.foldl, hsix, addBits_following, hc]
  · rw [if_neg hthree]
    refine ⟨_, _, _, rfl, lead?_four hmost, ⟨Nat.le_refl _, ?_, ?_⟩, rfl, ?_⟩
    · -- the limits of the second octet keep out short codes and those past the last character
      rintro _ ⟨⟩
      rw [toNat_following]
      dsimp only
      split <;> split <;> omega
    · exact List.forall_mem_cons.2
        ⟨isContinuation_following _, List.forall_mem_singleton.2 (isContinuation_following _)⟩
    · simp only [List.foldl, htwelve, hsix, addBits_following, hc]

/-- **One character is read back**, whatever follows its octets. -/
theorem decodeFrom_encodeChar (c : Char) (start : Nat) (rest : List UInt8) :
    decodeFrom start (String.utf8EncodeChar c ++ rest) =
      (decodeFrom (start + (String.utf8EncodeChar c).length) rest).map (c :: ·) := by
  rcases encodeChar_cases c with ⟨hone, hoctets⟩ | ⟨b₀, lead, more, hoctets, hlead, hallows, hlength, hc⟩
  · have hoctet := toNat_octet (Nat.lt_trans hone (by decide))
    rw [hoctets]
    refine (decodeFrom_one (by rwa [hoctet])).trans ?_
    rw [hoctet, Char.ofNat_toNat]
    rfl
  · rw [hoctets]
    refine (decodeFrom_allowed hlead hallows hlength).trans ?_
    rw [hc]
    rfl

/-- Of the characters only the line feed has its octet in it. -/
theorem lineFeed_not_mem_encodeChar {c : Char} (hc : c ≠ '\n') : 0x0A ∉ String.utf8EncodeChar c := by
  have hcode : c.toNat ≠ 0x0A := fun h => hc (Char.toNat_inj.1 h)
  have hoctet {n : Nat} (hn : n < 256) (hne : n ≠ 0x0A) : 0x0A ≠ UInt8.ofNat n := by
    intro h
    have hsame := congrArg UInt8.toNat h
    rw [toNat_octet hn] at hsame
    exact hne hsame.symm
  have hfollowing (n : Nat) : 0x0A ≠ following n := hoctet (by omega) (by omega)
  rw [encodeChar_eq]
  by_cases hone : c.toNat < 0x80
  · simpa [hone] using hoctet (by omega) hcode
  · -- all octets of longer characters are `0x80` or more
    have htwo := @hoctet (c.toNat / 64 % 32 + 192) (by omega) (by omega)
    have hthree := @hoctet (c.toNat / 4096 % 16 + 224) (by omega) (by omega)
    have hfour := @hoctet (c.toNat / 262144 % 8 + 240) (by omega) (by omega)
    rw [if_neg hone]
    split
    · simp only [List.mem_cons, htwo, hfollowing, List.not_mem_nil, or_self, not_false_eq_true]
    · split <;>
        simp only [List.mem_cons, hthree, hfour, hfollowing, List.not_mem_nil, or_self, not_false_eq_true]

/-! ## Texts -/

theorem encode_append (s t : List Char) : encode (s ++ t) = encode s ++ encode t := List.flatMap_append

/-- A text is read back, whatever follows its octets. -/
theorem decodeFrom_encode_append (start : Nat) (s : List Char) (rest : List UInt8) :
    decodeFrom start (encode s ++ rest) =
      (decodeFrom (start + (encode s).length) rest).map (s ++ ·) := by
  induction s generalizing start with
  | nil =>
    show decodeFrom start rest = (decodeFrom start rest).map id
    rw [Except.map_id]
    rfl
  | cons c s ih =>
    have hencode : encode (c :: s) = String.utf8EncodeChar c ++ encode s := rfl
    rw [hencode, List.append_assoc, decodeFrom_encodeChar, ih, List.length_append, Nat.add_assoc]
    cases decodeFrom (start + ((String.utf8EncodeChar c).length + (encode s).length)) rest <;> rfl

/-- **Decoding undoes encoding**, whatever the characters are. -/
theorem decode_encode (s : List Char) : decode (encode s) = .ok s := by
  have hdecode := decodeFrom_encode_append 0 s []
  rw [List.append_nil] at hdecode
  rw [decode, hdecode]
  exact congrArg Except.ok (List.append_nil s)

/-- A text without line feeds has no octet of a line feed in it. -/
theorem lineFeed_not_mem_encode {s : List Char} (h : '\n' ∉ s) : 0x0A ∉ encode s := by
  intro hmem
  obtain ⟨c, hc, hoctet⟩ := List.mem_flatMap.1 hmem
  have hne : c ≠ '\n' := fun e => h (e ▸ hc)
  exact lineFeed_not_mem_encodeChar hne hoctet

end SmallLisp.Text.Utf8
