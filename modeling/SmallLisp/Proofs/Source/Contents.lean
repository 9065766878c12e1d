import SmallLisp.Proofs.Evaluation.Contents
import SmallLisp.Proofs.Source.Tokens

/-!
# `Proofs.Source.Contents` — what a source text is made of

Reading makes lists and atoms and nothing else: no functions, and nothing that only an embedding program
can hand in. So what holds of every list and of every literal holds everywhere in an expression that was
read (`everywhere_read`).
-/

namespace SmallLisp

namespace Source

variable {q : Value → Prop}

/-- An atom is a number, what stands between its quotes, a truth value, or a symbol of its own name. -/
theorem ofAtom_cases (token : Text) :
    (∃ x, ofAtom token = .number x) ∨
      (∃ s, unquote? token = some s ∧ ofAtom token = .text s) ∨
      (∃ b, ofAtom token = .truth b) ∨ ofAtom token = .symbol token := by
  unfold ofAtom
  split
  · exact .inl ⟨_, rfl⟩
  · split
    · exact .inl ⟨_, rfl⟩
    · split
      · rename_i s hs
        exact .inr (.inl ⟨s, hs, rfl⟩)
      · split
        · exact .inr (.inr (.inl ⟨false, rfl⟩))
        · split
          · exact .inr (.inr (.inl ⟨true, rfl⟩))
          · exact .inr (.inr (.inr rfl))

/-- What stands between the quotes of an atom is made of its characters. -/
theorem mem_of_unquote? {atom characters : Text} (h : unquote? atom = some characters) :
    ∀ c ∈ characters.toList, c ∈ atom.toList := by
  unfold unquote? at h
  split at h
  · rename_i rest hatom
    split at h
    · cases h
      intro c hc
      rw [hatom]
      exact List.mem_cons_of_mem _ (List.dropLast_subset rest hc)
    · cases h
  · cases h

/-- What is made of an atom is a literal, with nothing else in it. -/
theorem everywhere_ofAtom {token : Text} (hnumber : ∀ x, q (.number x))
    (htext : ∀ s, unquote? token = some s → q (.text s))
    (htruth : ∀ b, q (.truth b)) (hsymbol : ofAtom token = .symbol token → q (.symbol token)) :
    (ofAtom token).Everywhere q := by
  rcases ofAtom_cases token with ⟨x, h⟩ | ⟨s, hs, h⟩ | ⟨b, h⟩ | h
  · rw [h]
    exact Value.everywhere_number (hnumber x)
  · rw [h]
    exact Value.everywhere_text (htext s hs)
  · rw [h]
    exact Value.everywhere_truth (htruth b)
  · have hname := hsymbol h
    rw [h]
    exact Value.everywhere_symbol hname

/-- Inside a list the members so far, also those of the lists around it, are made of the same. -/
theorem everywhere_readInside (hlist : ∀ items, q (.list items)) {room : Nat} {members : List Value}
    {outer : List (List Value)} {tokens : List Text} {e : Value} {left : List Text}
    (htokens : ∀ token ∈ tokens, token ≠ "(" → token ≠ ")" → (ofAtom token).Everywhere q)
    (hmembers : ∀ v ∈ members, v.Everywhere q) (houter : ∀ vs ∈ outer, ∀ v ∈ vs, v.Everywhere q)
    (h : readInside room members outer tokens = (.ok e, left)) : e.Everywhere q := by
  have hclosed {vs : List Value} (hvs : ∀ v ∈ vs, v.Everywhere q) :
      (Value.list vs.reverse).Everywhere q :=
    Value.everywhere_list.2 ⟨hlist _, fun v hv => hvs v (List.mem_reverse.1 hv)⟩
  -- on the tokens; the lists that wait around this one change with every parenthesis
  induction tokens generalizing room members outer with
  | nil =>
    unfold readInside at h
    cases h
  | cons token rest ih =>
    have htokens' : ∀ token ∈ rest, token ≠ "(" → token ≠ ")" → (ofAtom token).Everywhere q :=
      fun t ht => htokens t (List.mem_cons_of_mem _ ht)
    unfold readInside at h
    split at h
    · -- a list opens: the one that was being read waits around it
      cases room with
      | zero => cases h
      | succ room =>
        exact ih htokens' (fun v hv => absurd hv List.not_mem_nil)
          (List.forall_mem_cons.2 ⟨hmembers, houter⟩) h
    · rename_i hopen
      split at h
      · -- a list closes: it is the result, or a member of the list around it
        cases outer with
        | nil =>
          cases h
          exact hclosed hmembers
        | cons around outer =>
          obtain ⟨haround, houter⟩ := List.forall_mem_cons.1 houter
          exact ih htokens' (List.forall_mem_cons.2 ⟨hclosed hmembers, haround⟩) houter h
      · rename_i hclose
        have hatom := htokens token List.mem_cons_self hopen hclose
        exact ih htokens' (List.forall_mem_cons.2 ⟨hatom, hmembers⟩) houter h

/-- **What is read is made of lists and of the literals that the tokens of the text stand for.** -/
theorem everywhere_read_tokens (hlist : ∀ items, q (.list items)) {limit : Nat} {source : Text} {e : Value}
    (htokens : ∀ token ∈ tokenize source, token ≠ "(" → token ≠ ")" → (ofAtom token).Everywhere q)
    (h : read limit source = .ok e) : e.Everywhere q := by
  unfold read readFirst at h
  split at h
  · cases h
  · rename_i token rest htokenize
    rw [htokenize] at htokens
    obtain ⟨hfirst, hrest⟩ := List.forall_mem_cons.1 htokens
    split at h
    · cases limit with
      | zero => cases h
      | succ room =>
        exact everywhere_readInside hlist hrest (fun v hv => absurd hv List.not_mem_nil)
          (fun vs hvs => absurd hvs List.not_mem_nil) (Prod.ext h rfl)
    · rename_i hopen
      split at h
      · cases h
      · rename_i hclose
        cases h
        exact hfirst hopen hclose

/-- Whatever the tokens are, they are atoms. -/
theorem everywhere_read (hlist : ∀ items, q (.list items))
    (hatom : ∀ token, IsAtom token → (ofAtom token).Everywhere q) {limit : Nat} {source : Text}
    {e : Value} (h : read limit source = .ok e) : e.Everywhere q := by
  refine everywhere_read_tokens hlist ?_ h
  intro token htoken hopen hclose
  exact hatom token (isAtom_of_mem_tokenize htoken hopen hclose)

end Source

end SmallLisp
