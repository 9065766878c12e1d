import SmallLisp.Source.Expression

/-!
# `Proofs.Source.Grammar` — the expressions that tokens spell

The grammar has two rules: a token that is no parenthesis spells the value of an atom, and the tokens of
expressions between two parentheses spell the list of these. `readFirst` finds the expression at the front
of any tokens (`readFirst_spells`), provided that its limit lets it go as deep as lists are nested there, and
goes no deeper (`nesting_le_of_read`).
-/

namespace SmallLisp

/-! ## Nesting -/

mutual

/-- How many lists lie inside one another in a value. -/
def Value.nesting : Value → Nat
  | .list items => nestingEach items + 1
  | _ => 0

/-- How many lists lie inside one another in the values of a list. -/
def Value.nestingEach : List Value → Nat
  | [] => 0
  | v :: vs => max v.nesting (nestingEach vs)

end

/-- The members of a list are nested no deeper than all of them together. -/
theorem nesting_le_of_mem {vs : List Value} {v : Value} (h : v ∈ vs) :
    v.nesting ≤ Value.nestingEach vs := by
  induction vs with
  | nil => cases h
  | cons w vs ih =>
    rw [Value.nestingEach]
    rcases List.mem_cons.1 h with rfl | h
    · exact Nat.le_max_left _ _
    · exact Nat.le_trans (ih h) (Nat.le_max_right _ _)

theorem nestingEach_le {vs : List Value} {n : Nat} (h : ∀ v ∈ vs, v.nesting ≤ n) :
    Value.nestingEach vs ≤ n := by
  induction vs with
  | nil => exact Nat.zero_le n
  | cons v vs ih =>
    obtain ⟨hv, hvs⟩ := List.forall_mem_cons.1 h
    rw [Value.nestingEach]
    exact Nat.max_le.2 ⟨hv, ih hvs⟩

namespace Source

/-! ## Spelling -/

mutual

/-- **The tokens spell an expression.** -/
inductive Spells : List Text → Value → Prop
  | atom {token : Text} (hopen : token ≠ "(") (hclose : token ≠ ")") : Spells [token] (ofAtom token)
  | list {tokens : List Text} {items : List Value} (h : SpellsEach tokens items) :
      Spells ("(" :: (tokens ++ [(")" : Text)])) (.list items)

/-- The tokens spell expressions one after the other. -/
inductive SpellsEach : List Text → List Value → Prop
  | nil : SpellsEach [] []
  | cons {first tokens : List Text} {e : Value} {es : List Value} (h : Spells first e)
      (hs : SpellsEach tokens es) : SpellsEach (first ++ tokens) (e :: es)

end

/-! ## Reading -/

section

variable {room : Nat} {members around : List Value} {outer : List (List Value)} {token : Text}
  {rest : List Text}

theorem readInside_atom (hopen : token ≠ "(") (hclose : token ≠ ")") :
    readInside room members outer (token :: rest) =
      readInside room (ofAtom token :: members) outer rest := by
  rw [readInside.eq_def]
  simp only [if_neg hopen, if_neg hclose]

theorem readInside_open :
    readInside (room + 1) members outer ("(" :: rest) =
      readInside room [] (members :: outer) rest := rfl

theorem readInside_close :
    readInside room members (around :: outer) (")" :: rest) =
      readInside (room + 1) (.list members.reverse :: around) outer rest := rfl

theorem readInside_last :
    readInside room members [] (")" :: rest) = (.ok (.list members.reverse), rest) := rfl

end

mutual

/-- Inside a list an expression becomes the next member. -/
theorem readInside_spells {tokens : List Text} {e : Value} (h : Spells tokens e) {room : Nat}
    (hroom : e.nesting ≤ room) (members : List Value) (outer : List (List Value))
    (rest : List Text) :
    readInside room members outer (tokens ++ rest) = readInside room (e :: members) outer rest := by
  cases h with
  | atom hopen hclose => exact readInside_atom hopen hclose
  | @list tokens items h =>
    -- the parenthesis takes one from the room; the list is nested, so there is one to take
    obtain ⟨room, rfl⟩ : ∃ r, room = r + 1 := Nat.exists_eq_add_one_of_ne_zero (by
      rw [Value.nesting] at hroom
      omega)
    have hinside : Value.nestingEach items ≤ room := by
      rw [Value.nesting] at hroom
      omega
    rw [List.cons_append, readInside_open, List.append_assoc, readInside_spellsEach h hinside,
      List.singleton_append, readInside_close, List.append_nil, List.reverse_reverse]

/-- Inside a list expressions become the next members. -/
theorem readInside_spellsEach {tokens : List Text} {es : List Value} (h : SpellsEach tokens es)
    {room : Nat} (hroom : Value.nestingEach es ≤ room) (members : List Value)
    (outer : List (List Value)) (rest : List Text) :
    readInside room members outer (tokens ++ rest) =
      readInside room (es.reverse ++ members) outer rest := by
  cases h with
  | nil => rfl
  | cons h hs =>
    rw [Value.nestingEach] at hroom
    rw [List.append_assoc, readInside_spells h (Nat.le_trans (Nat.le_max_left _ _) hroom),
      readInside_spellsEach hs (Nat.le_trans (Nat.le_max_right _ _) hroom), List.reverse_cons,
      List.append_assoc, List.singleton_append]

end

/-- **What is spelled is read**, and the tokens after it are left. -/
theorem readFirst_spells {tokens : List Text} {e : Value} (h : Spells tokens e) {limit : Nat}
    (hlimit : e.nesting ≤ limit) (rest : List Text) :
    readFirst limit (tokens ++ rest) = (.ok e, rest) := by
  cases h with
  | atom hopen hclose =>
    rw [List.singleton_append, readFirst.eq_def]
    simp only [if_neg hopen, if_neg hclose]
  | @list tokens items h =>
    obtain ⟨room, rfl⟩ : ∃ r, limit = r + 1 := Nat.exists_eq_add_one_of_ne_zero (by
      rw [Value.nesting] at hlimit
      omega)
    have hinside : Value.nestingEach items ≤ room := by
      rw [Value.nesting] at hlimit
      omega
    show readInside room [] [] (tokens ++ [(")" : Text)] ++ rest) = _
    rw [List.append_assoc, readInside_spellsEach h hinside, List.singleton_append, readInside_last,
      List.append_nil, List.reverse_reverse]

/-! ## The limit -/

theorem nesting_ofAtom (token : Text) : (ofAtom token).nesting = 0 := by
  unfold ofAtom
  split
  · rfl
  · split
    · rfl
    · split
      · rfl
      · split
        · rfl
        · split <;> rfl

/-- A list is closed when its members stand in reverse. -/
theorem nesting_reverse_le {vs : List Value} {room : Nat} (h : Value.nestingEach vs ≤ room) :
    (Value.list vs.reverse).nesting ≤ room + 1 := by
  rw [Value.nesting]
  apply Nat.succ_le_succ
  apply nestingEach_le
  intro v hv
  exact Nat.le_trans (nesting_le_of_mem (List.mem_reverse.1 hv)) h

/-- Inside lists nothing is nested deeper than there are lists around it and room for more. -/
theorem nesting_le_of_readInside {room : Nat} {members : List Value} {outer : List (List Value)}
    {tokens left : List Text} {e : Value} (hmembers : Value.nestingEach members ≤ room)
    (houter : ∀ k vs, outer[k]? = some vs → Value.nestingEach vs ≤ room + 1 + k)
    (h : readInside room members outer tokens = (.ok e, left)) :
    e.nesting ≤ room + outer.length + 1 := by
  -- on the tokens: a parenthesis moves one level between the room and the lists around
  induction tokens generalizing room members outer with
  | nil => cases h
  | cons token rest ih =>
    rw [readInside.eq_def] at h
    by_cases hopen : token = "("
    · simp only [if_pos hopen] at h
      cases room with
      | zero => cases h
      | succ room =>
        have hwaiting : ∀ k vs, (members :: outer)[k]? = some vs →
            Value.nestingEach vs ≤ room + 1 + k := by
          intro k vs hk
          cases k with
          | zero =>
            cases hk
            exact hmembers
          | succ k =>
            have := houter k vs hk
            omega
        have hbound := ih (Nat.zero_le room) hwaiting h
        rw [List.length_cons] at hbound
        omega
    · by_cases hclose : token = ")"
      · simp only [if_neg hopen, if_pos hclose] at h
        have hclosed := nesting_reverse_le hmembers
        cases outer with
        | nil =>
          cases h
          exact hclosed
        | cons around outer =>
          have haround : Value.nestingEach around ≤ room + 1 := houter 0 around rfl
          have hwaiting : ∀ k vs, outer[k]? = some vs →
              Value.nestingEach vs ≤ room + 1 + 1 + k := by
            intro k vs hk
            have := houter (k + 1) vs hk
            omega
          have hbound := ih (Nat.max_le.2 ⟨hclosed, haround⟩) hwaiting h
          rw [List.length_cons]
          omega
      · simp only [if_neg hopen, if_neg hclose] at h
        refine ih ?_ houter h
        rw [Value.nestingEach, nesting_ofAtom]
        exact Nat.max_le.2 ⟨Nat.zero_le room, hmembers⟩

/-- **What is read is nested no deeper than the limit.** -/
theorem nesting_le_of_read {limit : Nat} {source : Text} {e : Value} (h : read limit source = .ok e) :
    e.nesting ≤ limit := by
  unfold read readFirst at h
  split at h
  · cases h
  · rename_i token rest _
    split at h
    · cases limit with
      | zero => cases h
      | succ room =>
        have hinside : readInside room [] [] rest = (.ok e, (readInside room [] [] rest).2) :=
          Prod.ext h rfl
        refine nesting_le_of_readInside (Nat.zero_le room) ?_ hinside
        intro k vs hk
        rw [List.getElem?_nil] at hk
        cases hk
    · split at h
      · cases h
      · cases h
        rw [nesting_ofAtom]
        exact Nat.zero_le limit

/-! ## Expressions one after the other -/

/-- Reads as many expressions as asked for, one after the other, up to the first that fails. -/
def readEach (limit : Nat) : Nat → List Text → Except ReadFault (List Value) × List Text
  | 0, tokens => (.ok [], tokens)
  | count + 1, tokens =>
    match readFirst limit tokens with
    | (.ok e, rest) =>
      let (outcome, rest) := readEach limit count rest
      (outcome.map (e :: ·), rest)
    | (.error why, rest) => (.error why, rest)

/-- Expressions that are spelled one after the other are read one after the other. -/
theorem readEach_spellsEach {tokens : List Text} {es : List Value} (h : SpellsEach tokens es)
    {limit : Nat} (hlimit : Value.nestingEach es ≤ limit) (rest : List Text) :
    readEach limit es.length (tokens ++ rest) = (.ok es, rest) := by
  induction es generalizing tokens with
  | nil =>
    cases h
    rfl
  | cons e es ih =>
    cases h with
    | cons h hs =>
      rw [Value.nestingEach] at hlimit
      rw [List.length_cons, readEach, List.append_assoc,
        readFirst_spells h (Nat.le_trans (Nat.le_max_left _ _) hlimit)]
      simp only [ih hs (Nat.le_trans (Nat.le_max_right _ _) hlimit)]
      rfl

end Source

end SmallLisp
