import SmallLisp.Proofs.Source.Grammar

/-!
# `Proofs.Source.Descent` — reading follows the grammar, token by token

`readFirst` walks over the tokens once, with the open lists on a stack of its own. The grammar suggests
another reader, which goes down into a list by calling itself (`descend`): it looks at the next token of a
stream, takes tokens off it one at a time, and reads the members of a list in a loop. The two read the same
(`descend_eq`), and as the second one follows the grammar, it is easy to see what it accepts, what it
consumes, and with which fault it ends where the grammar has nothing to offer (`readFirst_grammar`).

Two things can go wrong in a loop over a stream that have no place in `readFirst`: a token can be taken off a
stream that has none, which is a fault of the host, and a turn can leave the stream as it was. Both are told
apart here from the faults of a source text (`StreamFault`), and do not happen.
-/

namespace SmallLisp

namespace Source

/-! ## Going down into lists -/

/-- What can go wrong on a stream of tokens: a fault of the source text, one of the host, where a token is
    taken off a stream without one, or a loop that goes on for ever. -/
inductive StreamFault
  | source (why : ReadFault)
  | host (why : HostFault)
  | endless
  deriving DecidableEq, Repr

/-- A result, and the tokens that are left on the stream. -/
abbrev Streamed (α : Type) := Except StreamFault α × List Text

/-- Reads the members of a list, up to the parenthesis that closes it, by a reader for expressions;
    `members` are those before, in reverse. -/
def readMembers (inner : List Text → Streamed Value) (members : List Value) (tokens : List Text) :
    Streamed Value :=
  match tokens.head? with
  | none => (.error (.source (.malformed .unclosed)), tokens)
  | some token =>
    if token = ")" then
      match advance tokens with
      | (.ok _, rest) => (.ok (.list members.reverse), rest)
      | (.error why, rest) => (.error (.host why), rest)
    else
      match inner tokens with
      | (.error fault, rest) => (.error fault, rest)
      | (.ok e, rest) =>
        if rest.length < tokens.length then readMembers inner (e :: members) rest
        else (.error .endless, rest)
termination_by tokens.length

/-- Reads an expression, by a reader for what follows an opening parenthesis. -/
def readLevel (inside : List Text → Streamed Value) (tokens : List Text) : Streamed Value :=
  if tokens.isEmpty then (.error (.source (.malformed .endOfInput)), tokens)
  else
    match advance tokens with
    | (.error why, rest) => (.error (.host why), rest)
    | (.ok token, rest) =>
      if token = "(" then inside rest
      else if token = ")" then (.error (.source (.malformed .strayClosing)), rest)
      else (.ok (ofAtom token), rest)

/-- **Reads an expression by recursion**, at most `limit` lists deep. -/
def descend : Nat → List Text → Streamed Value
  | 0 => readLevel fun rest => (.error (.source .tooDeep), rest)
  | room + 1 => readLevel (readMembers (descend room) [])

/-- A reading as the result on a stream. -/
def Reading.streamed (reading : Reading) : Streamed Value :=
  (reading.1.mapError .source, reading.2)

variable {inner inner' inside : List Text → Streamed Value} {members : List Value}
  {tokens rest : List Text} {token : Text} {room limit : Nat}

/-! ## One token -/

@[simp] theorem readLevel_nil :
    readLevel inside [] = (.error (.source (.malformed .endOfInput)), []) := rfl

@[simp] theorem readLevel_open : readLevel inside ("(" :: rest) = inside rest := rfl

@[simp] theorem readLevel_close :
    readLevel inside (")" :: rest) = (.error (.source (.malformed .strayClosing)), rest) := rfl

theorem readLevel_atom (hopen : token ≠ "(") (hclose : token ≠ ")") :
    readLevel inside (token :: rest) = (.ok (ofAtom token), rest) := by
  simp [readLevel, advance, hopen, hclose]

@[simp] theorem readMembers_nil :
    readMembers inner members [] = (.error (.source (.malformed .unclosed)), []) := by
  rw [readMembers]
  rfl

@[simp] theorem readMembers_close :
    readMembers inner members (")" :: rest) = (.ok (.list members.reverse), rest) := by
  rw [readMembers]
  rfl

/-! ## What is read is spelled -/

theorem Spells.ne_nil {e : Value} (h : Spells tokens e) : tokens ≠ [] := by
  cases h <;> exact List.cons_ne_nil _ _

/-- A reader that takes the tokens of an expression off the front of a stream. -/
def Sound (inner : List Text → Streamed Value) : Prop :=
  ∀ tokens e rest, inner tokens = (.ok e, rest) → ∃ first, tokens = first ++ rest ∧ Spells first e

/-- What is taken off a stream shortens it. -/
theorem Sound.length_lt (h : Sound inner) {e : Value} (hread : inner tokens = (.ok e, rest)) :
    rest.length < tokens.length := by
  obtain ⟨first, rfl, hspells⟩ := h _ _ _ hread
  have hpos := List.length_pos_iff.2 hspells.ne_nil
  simpa using hpos

/-- So no turn of a loop leaves the stream as it was. -/
theorem Sound.readMembers_member (h : Sound inner) (hclose : token ≠ ")") :
    readMembers inner members (token :: rest) =
      match inner (token :: rest) with
      | (.error fault, left) => (.error fault, left)
      | (.ok e, left) => readMembers inner (e :: members) left := by
  rw [readMembers]
  simp only [List.head?_cons, if_neg hclose]
  split
  · rfl
  · rename_i e left hread
    exact if_pos (h.length_lt hread)

/-- A loop takes the tokens of expressions off the stream, and the parenthesis after them. -/
theorem Sound.exists_spellsEach (h : Sound inner) {v : Value}
    (hread : readMembers inner members tokens = (.ok v, rest)) :
    ∃ first es, tokens = first ++ (")" : Text) :: rest ∧ SpellsEach first es ∧
      v = .list (members.reverse ++ es) := by
  induction hn : tokens.length using Nat.strongRecOn generalizing members tokens with
  | _ n ih =>
    subst hn
    match tokens with
    | [] => simp at hread
    | token :: after =>
      by_cases hclose : token = ")"
      · subst hclose
        rw [readMembers_close] at hread
        cases hread
        exact ⟨[], [], rfl, .nil, by simp⟩
      · rw [h.readMembers_member hclose] at hread
        split at hread
        · cases hread
        · rename_i e left hinner
          -- the first expression is the next member, and the loop goes on with the others
          obtain ⟨first, htokens, hspells⟩ := h _ _ _ hinner
          obtain ⟨others, es, hleft, heach, hv⟩ := ih _ (h.length_lt hinner) hread rfl
          refine ⟨first ++ others, e :: es, ?_, .cons hspells heach, ?_⟩
          · rw [htokens, hleft, List.append_assoc]
          · simpa using hv

/-- A level is sound if what follows an opening parenthesis is the rest of a list. -/
theorem sound_readLevel
    (h : ∀ tokens v rest, inside tokens = (.ok v, rest) → ∃ first es,
      tokens = first ++ (")" : Text) :: rest ∧ SpellsEach first es ∧ v = .list es) :
    Sound (readLevel inside) := by
  intro tokens e rest hread
  match tokens with
  | [] => simp at hread
  | token :: after =>
    by_cases hopen : token = "("
    · subst hopen
      obtain ⟨first, es, rfl, heach, rfl⟩ := h _ _ _ hread
      exact ⟨"(" :: (first ++ [(")" : Text)]), by simp, .list heach⟩
    · by_cases hclose : token = ")"
      · subst hclose
        simp at hread
      · rw [readLevel_atom hopen hclose] at hread
        cases hread
        exact ⟨[token], rfl, .atom hopen hclose⟩

/-- **What is read by recursion is spelled** by the tokens that are taken off. -/
theorem sound_descend (limit : Nat) : Sound (descend limit) := by
  induction limit with
  | zero => exact sound_readLevel nofun
  | succ room ih => exact sound_readLevel fun _ _ _ hread => ih.exists_spellsEach hread

/-! ## The two readers read the same -/

/-- What comes of the lists that are still open, once the innermost of them has been read. -/
def resume (outer : List (List Value)) (room : Nat) : Streamed Value → Streamed Value
  | (.error fault, rest) => (.error fault, rest)
  | (.ok e, rest) =>
    match outer with
    | [] => (.ok e, rest)
    | around :: outer => (readInside (room + 1) (e :: around) outer rest).streamed

/-- To read on inside a list is to read its members by recursion, and then to resume the list around it. -/
theorem readInside_streamed (room : Nat) (members : List Value) (outer : List (List Value))
    (tokens : List Text) :
    Reading.streamed (readInside room members outer tokens) =
      resume outer room (readMembers (descend room) members tokens) := by
  induction hn : tokens.length using Nat.strongRecOn generalizing room members outer tokens with
  | _ n ih =>
    subst hn
    match tokens with
    | [] =>
      rw [readMembers_nil]
      rfl
    | token :: rest =>
      by_cases hclose : token = ")"
      · subst hclose
        rw [readMembers_close]
        cases outer <;> rfl
      · rw [(sound_descend room).readMembers_member hclose]
        by_cases hopen : token = "("
        · subst hopen
          cases room with
          | zero => rfl
          | succ room =>
            -- a list opens: the one at hand waits until it is read
            rw [readInside_open, ih rest.length (Nat.lt_succ_self _) _ _ _ _ rfl]
            show resume _ _ (readMembers (descend room) [] rest) = resume _ _
              (match readMembers (descend room) [] rest with
              | (.error fault, left) => (.error fault, left)
              | (.ok e, left) => readMembers (descend (room + 1)) (e :: members) left)
            cases hread : readMembers (descend room) [] rest with
            | mk outcome left =>
              cases outcome with
              | error fault => rfl
              | ok e =>
                have hlt := (sound_descend (room + 1)).length_lt
                  (show descend (room + 1) ("(" :: rest) = (.ok e, left) from hread)
                exact ih left.length hlt _ _ _ _ rfl
        · rw [readInside_atom hopen hclose, ih rest.length (Nat.lt_succ_self _) _ _ _ _ rfl]
          cases room <;> rw [descend, readLevel_atom hopen hclose]

/-- **Reading by recursion is reading with a stack.** -/
theorem descend_eq (limit : Nat) (tokens : List Text) :
    descend limit tokens = Reading.streamed (readFirst limit tokens) := by
  match tokens with
  | [] => cases limit <;> rfl
  | token :: rest =>
    by_cases hopen : token = "("
    · subst hopen
      cases limit with
      | zero => rfl
      | succ room =>
        have hinside := readInside_streamed room [] [] rest
        show readMembers (descend room) [] rest = Reading.streamed (readInside room [] [] rest)
        rw [hinside]
        cases hread : readMembers (descend room) [] rest with
        | mk outcome left => cases outcome <;> rfl
    · by_cases hclose : token = ")"
      · subst hclose
        cases limit <;> rfl
      · have hatom : readFirst limit (token :: rest) = (.ok (ofAtom token), rest) := by
          rw [readFirst.eq_def]
          simp only [if_neg hopen, if_neg hclose]
        rw [hatom]
        cases limit <;> exact readLevel_atom hopen hclose

/-! ## Where the grammar has nothing to offer -/

/-- A reader that fails, on tokens that do not begin with a closing parenthesis, by a list that is not closed,
    when all tokens have been taken, or by more lists than it may open. -/
def FailsInside (limit : Nat) (inner : List Text → Streamed Value) : Prop :=
  ∀ tokens, tokens ≠ [] → tokens.head? ≠ some (")" : Text) → ∀ fault left, inner tokens = (.error fault, left) →
    fault = .source (.malformed .unclosed) ∧ left = [] ∨
      fault = .source .tooDeep ∧ limit < tokens.count ("(" : Text)

/-- A loop calls its reader only where it fails in that way, so it fails in that way itself. -/
theorem FailsInside.readMembers (hsound : Sound inner) (h : FailsInside limit inner) {fault : StreamFault}
    {left : List Text} (hread : readMembers inner members tokens = (.error fault, left)) :
    fault = .source (.malformed .unclosed) ∧ left = [] ∨
      fault = .source .tooDeep ∧ limit < tokens.count ("(" : Text) := by
  induction hn : tokens.length using Nat.strongRecOn generalizing members tokens with
  | _ n ih =>
    subst hn
    match tokens with
    | [] =>
      rw [readMembers_nil] at hread
      cases hread
      exact .inl ⟨rfl, rfl⟩
    | token :: rest =>
      by_cases hclose : token = ")"
      · subst hclose
        simp at hread
      · rw [hsound.readMembers_member hclose] at hread
        split at hread
        · rename_i fault' left' hinner
          cases hread
          exact h _ (List.cons_ne_nil _ _) (by simpa using hclose) _ _ hinner
        · rename_i e after hinner
          rcases ih _ (hsound.length_lt hinner) hread rfl with hunclosed | ⟨hdeep, hcount⟩
          · exact .inl hunclosed
          · -- what opens in the tokens that are left opens in all of them
            obtain ⟨first, htokens, _⟩ := hsound _ _ _ hinner
            refine .inr ⟨hdeep, Nat.lt_of_lt_of_le hcount ?_⟩
            rw [htokens, List.count_append]
            exact Nat.le_add_left _ _

theorem failsInside_descend (limit : Nat) : FailsInside limit (descend limit) := by
  induction limit with
  | zero =>
    intro tokens hne hhead fault left hread
    match tokens with
    | token :: rest =>
      have hclose : token ≠ ")" := by simpa using hhead
      by_cases hopen : token = "("
      · subst hopen
        cases hread
        exact .inr ⟨rfl, by simp⟩
      · rw [descend, readLevel_atom hopen hclose] at hread
        cases hread
  | succ room ih =>
    intro tokens hne hhead fault left hread
    match tokens with
    | token :: rest =>
      have hclose : token ≠ ")" := by simpa using hhead
      by_cases hopen : token = "("
      · subst hopen
        rcases ih.readMembers (sound_descend room) hread with hunclosed | ⟨hdeep, hcount⟩
        · exact .inl hunclosed
        · exact .inr ⟨hdeep, by simpa using hcount⟩
      · rw [descend, readLevel_atom hopen hclose] at hread
        cases hread

/-- **Where a loop calls its reader**: on streams that have a token, and not a closing parenthesis first. What
    the reader does elsewhere makes no difference. -/
theorem readMembers_congr
    (h : ∀ tokens, tokens ≠ [] → tokens.head? ≠ some (")" : Text) → inner tokens = inner' tokens)
    (members : List Value) (tokens : List Text) :
    readMembers inner members tokens = readMembers inner' members tokens := by
  induction hn : tokens.length using Nat.strongRecOn generalizing members tokens with
  | _ n ih =>
    subst hn
    match tokens with
    | [] => simp
    | token :: rest =>
      by_cases hclose : token = ")"
      · subst hclose
        simp
      · rw [readMembers, readMembers, h _ (List.cons_ne_nil _ _) (by simpa using hclose)]
        simp only [List.head?_cons, if_neg hclose]
        split
        · rfl
        · split
          · rename_i hlt
            exact ih _ hlt _ _ rfl
          · rfl

/-! ## The grammar and the reader -/

/-- Reading is refused in these words, with these tokens left. -/
def Refuses (limit : Nat) (tokens : List Text) (words : Text) (left : List Text) : Prop :=
  ∃ why, readFirst limit tokens = (.error (.malformed why), left) ∧ why.message = words

theorem refuses_iff {why : SyntaxFault} {left : List Text} :
    Refuses limit tokens why.message left ↔ readFirst limit tokens = (.error (.malformed why), left) := by
  constructor
  · rintro ⟨other, hread, hwords⟩
    -- no two faults have the same words
    have hsame : other = why := by
      revert hwords
      cases other <;> cases why <;> decide
    rw [hread, hsame]
  · intro hread
    exact ⟨why, hread, rfl⟩

/-- Of the tokens that an expression can begin with, no two different fronts spell one. -/
theorem spells_unique {first first' rest rest' : List Text} {e e' : Value}
    (h : Spells first e) (h' : Spells first' e') (heq : first ++ rest = first' ++ rest') :
    first = first' ∧ e = e' := by
  have hread := readFirst_spells h (Nat.le_max_left e.nesting e'.nesting) rest
  have hread' := readFirst_spells h' (Nat.le_max_right e.nesting e'.nesting) rest'
  rw [heq, hread'] at hread
  cases hread
  exact ⟨List.append_cancel_right heq, rfl⟩

/-- What a reader with a stack comes to is what the recursive one does. -/
theorem descend_of_readFirst_error {why : ReadFault} {left : List Text}
    (h : readFirst limit tokens = (.error why, left)) :
    descend limit tokens = (.error (.source why), left) := by
  rw [descend_eq, h]
  rfl

theorem readFirst_sound {e : Value} (h : readFirst limit tokens = (.ok e, rest)) :
    ∃ first, tokens = first ++ rest ∧ Spells first e := by
  refine sound_descend limit tokens e rest ?_
  rw [descend_eq, h]
  rfl

/-- Too many lists are open only if so many are opened. -/
theorem count_of_tooDeep (h : (readFirst limit tokens).1 = .error .tooDeep) :
    limit < tokens.count ("(" : Text) := by
  have hread : readFirst limit tokens = (.error .tooDeep, (readFirst limit tokens).2) :=
    Prod.ext h rfl
  have hdescend := descend_of_readFirst_error hread
  match tokens with
  | [] => cases h
  | token :: rest =>
    by_cases hclose : token = ")"
    · subst hclose
      cases h
    · have hends := failsInside_descend limit _ (List.cons_ne_nil _ _) (by simpa using hclose) _ _ hdescend
      rcases hends with ⟨hunclosed, _⟩ | ⟨_, hcount⟩
      · cases hunclosed
      · exact hcount

/-- **Without an expression at the front** of tokens that begin with no closing parenthesis, a list is not
    closed, and no token is left. -/
theorem readFirst_unclosed (hne : tokens ≠ []) (hhead : tokens.head? ≠ some (")" : Text))
    (hnone : ¬ ∃ first rest e, tokens = first ++ rest ∧ Spells first e)
    (hdeep : (readFirst limit tokens).1 ≠ .error .tooDeep) :
    readFirst limit tokens = (.error (.malformed .unclosed), []) := by
  cases hread : readFirst limit tokens with
  | mk outcome left =>
    cases outcome with
    | ok e =>
      obtain ⟨first, htokens, hspells⟩ := readFirst_sound hread
      exact absurd ⟨first, left, e, htokens, hspells⟩ hnone
    | error why =>
      have hends := failsInside_descend limit _ hne hhead _ _ (descend_of_readFirst_error hread)
      rcases hends with ⟨hunclosed, rfl⟩ | ⟨htooDeep, _⟩
      · cases hunclosed
        rfl
      · cases htooDeep
        rw [hread] at hdeep
        exact absurd rfl hdeep

/-- **Reading accepts exactly the grammar.** At most one front of any tokens spells an expression. If one
    does, and nests no deeper than the limit, reading has that expression and leaves the tokens after it,
    whatever they are; and reading has an expression only then. If none does, and the limit is not what
    stops it, reading is refused in one of three ways: of no tokens, of a closing parenthesis first, which is
    taken, and in all other cases of a list that is not closed, with all tokens taken. The limit stops
    nothing that opens no more lists.

    Read by recursion, the same comes of the tokens, so no token is ever taken off a stream that has none.
    The reader calls itself only on streams that have a token, and not a closing parenthesis first, and there
    it fails by a list that is not closed, or by the limit. -/
theorem readFirst_grammar (limit : Nat) (tokens : List Text) :
    (∀ first first' rest rest' e e', tokens = first ++ rest → tokens = first' ++ rest' →
      Spells first e → Spells first' e' → first = first' ∧ e = e') ∧
    (∀ first rest e, tokens = first ++ rest → Spells first e → e.nesting ≤ limit →
      readFirst limit tokens = (.ok e, rest)) ∧
    (∀ e rest, readFirst limit tokens = (.ok e, rest) →
      ∃ first, tokens = first ++ rest ∧ Spells first e) ∧
    ((¬ ∃ first rest e, tokens = first ++ rest ∧ Spells first e) →
      (readFirst limit tokens).1 ≠ .error .tooDeep → ∀ left,
        (Refuses limit tokens "unexpected end of input" left ↔ tokens = [] ∧ left = []) ∧
        (Refuses limit tokens "unexpected closing paren" left ↔ tokens = (")" : Text) :: left) ∧
        (Refuses limit tokens "unclosed parenthesis" left ↔
          tokens ≠ [] ∧ tokens.head? ≠ some (")" : Text) ∧ left = [])) ∧
    ((readFirst limit tokens).1 = .error .tooDeep → limit < tokens.count ("(" : Text)) ∧
    descend limit tokens = Reading.streamed (readFirst limit tokens) ∧
    (∀ inner, (∀ us, us ≠ [] → us.head? ≠ some (")" : Text) → inner us = descend limit us) →
      readLevel (readMembers inner []) tokens = descend (limit + 1) tokens) ∧
    (tokens ≠ [] → tokens.head? ≠ some (")" : Text) → ∀ fault left, descend limit tokens = (.error fault, left) →
      fault = .source (.malformed .unclosed) ∧ left = [] ∨ fault = .source .tooDeep) := by
  refine ⟨?_, ?_, fun e rest => readFirst_sound, ?_, count_of_tooDeep, descend_eq limit tokens, ?_, ?_⟩
  · intro first first' rest rest' e e' hfirst hfirst' h h'
    exact spells_unique h h' (hfirst.symm.trans hfirst')
  · rintro first rest e rfl h hnesting
    exact readFirst_spells h hnesting rest
  · intro hnone hdeep left
    show (Refuses limit tokens SyntaxFault.endOfInput.message left ↔ _) ∧
      (Refuses limit tokens SyntaxFault.strayClosing.message left ↔ _) ∧
      (Refuses limit tokens SyntaxFault.unclosed.message left ↔ _)
    rw [refuses_iff, refuses_iff, refuses_iff]
    match tokens with
    | [] =>
      have hread : readFirst limit [] = (.error (.malformed .endOfInput), []) := rfl
      simp [hread, eq_comm (b := left)]
    | token :: rest =>
      by_cases hclose : token = ")"
      · subst hclose
        have hread : readFirst limit (")" :: rest) = (.error (.malformed .strayClosing), rest) := rfl
        simp [hread]
      · have hread := readFirst_unclosed (List.cons_ne_nil _ _) (by simpa using hclose) hnone hdeep
        simp [hread, hclose, eq_comm]
  · intro inner hinner
    match tokens with
    | [] => rfl
    | token :: rest =>
      simp only [descend, readLevel, funext (readMembers_congr hinner [])]
  · intro hne hhead fault left hread
    exact (failsInside_descend limit tokens hne hhead fault left hread).imp id And.left

/-- A list that is closed once too often, and a list in a list that is not closed. -/
theorem readFirst_grammar_unclosed :
    let closed : List Text := ["(", "a", ")"]
    let unclosed : List Text := ["(", "(", "a", ")"]
    (Spells closed (.list [ofAtom "a"]) ∧
      readFirst 1 (closed ++ [(")" : Text)]) = (.ok (.list [ofAtom "a"]), [(")" : Text)])) ∧
    (¬ ∃ first rest e, unclosed = first ++ rest ∧ Spells first e) ∧
    (readFirst 2 unclosed).1 ≠ .error .tooDeep ∧ Refuses 2 unclosed "unclosed parenthesis" [] := by
  intro closed unclosed
  have ha : Spells ([("a" : Text)] ++ []) (ofAtom "a") := .atom (by decide) (by decide)
  have hspells : Spells closed (.list [ofAtom "a"]) := .list (.cons ha .nil)
  have hnone : ¬ ∃ first rest e, unclosed = first ++ rest ∧ Spells first e := by
    rintro ⟨first, rest, e, htokens, h⟩
    -- with any room there is to read it, the list is not closed
    have hroom := (readFirst_grammar (e.nesting + 2) unclosed).2.1 first rest e htokens h (by omega)
    have hread : readFirst (e.nesting + 2) unclosed = (.error (.malformed .unclosed), []) := rfl
    rw [hread] at hroom
    cases hroom
  have hdeep : (readFirst 2 unclosed).1 ≠ .error .tooDeep := by
    have hread : readFirst 2 unclosed = (.error (.malformed .unclosed), []) := rfl
    rw [hread]
    nofun
  refine ⟨⟨hspells, ?_⟩, hnone, hdeep, ?_⟩
  · exact (readFirst_grammar 1 (closed ++ [(")" : Text)])).2.1 closed [(")" : Text)] _ rfl hspells (Nat.le_refl 1)
  · have hrefused := (readFirst_grammar 2 unclosed).2.2.2.1 hnone hdeep []
    exact hrefused.2.2.2 ⟨by decide, by decide, rfl⟩

end Source

end SmallLisp
