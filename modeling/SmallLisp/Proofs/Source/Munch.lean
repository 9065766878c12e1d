import SmallLisp.Proofs.Source.Tokens

/-!
# `Proofs.Source.Munch` — the tokens of a text, without the scanner

Which tokens a text has can be said without scanning it (`Tokenizes`): nothing but its blanks is lost, every
token is a parenthesis or an atom and stands in the text as one run, and there is a blank between two atoms
that follow one another. No other list of tokens has these three properties (`tokenizes_iff`).

Both directions go over `Cut`, which takes a text apart from the front: a blank is skipped, and an atom is
taken off only where something ends it. A cut is what the scanner makes (`cut_scan`, `Cut.scan_eq`), and two
cuts make one if no atom of the first runs on into the second (`Cut.append`).
-/

namespace SmallLisp.Source

open CodePoint (char)

/-- **A token**: a parenthesis, or an atom. -/
def IsToken (token : Text) : Prop := token = "(" ∨ token = ")" ∨ IsAtom token

/-- The characters of tokens, one token after the other. -/
def characters (tokens : List Text) : List CodePoint := tokens.flatMap Text.toList

/-- The text without its blanks. -/
def dense (text : List CodePoint) : List CodePoint := text.filter fun c => !Text.isBlank c

/-- **A place in a text.** The piece stands in the text where the tokens `before` end and the tokens `after`
    begin. -/
def StandsBetween (text : List CodePoint) (before : List Text) (piece : List CodePoint) (after : List Text) :
    Prop :=
  ∃ left right, text = left ++ piece ++ right ∧ dense left = characters before ∧
    dense right = characters after

/-- **The three properties of the tokens of a text.** -/
structure Tokenizes (text : List CodePoint) (tokens : List Text) : Prop where
  /-- Nothing but blanks is lost. -/
  characters_eq : characters tokens = dense text
  /-- Every token is a parenthesis or an atom, and is one run of the text. -/
  run : ∀ before token after, tokens = before ++ token :: after →
    IsToken token ∧ StandsBetween text before token.toList after
  /-- There is a blank between two atoms that follow one another. -/
  separated : ∀ before first second after, tokens = before ++ first :: second :: after →
    IsAtom first → IsAtom second →
      ∃ c, Text.isBlank c ∧ StandsBetween text (before ++ [first]) [c] (second :: after)

/-- **Cutting a text from the front.** An atom is cut off only where no atom character follows. -/
inductive Cut : List CodePoint → List Text → Prop
  | done : Cut [] []
  | blank {c : CodePoint} {text : List CodePoint} {tokens : List Text} (hc : Text.isBlank c)
      (h : Cut text tokens) : Cut (c :: text) tokens
  | token {token : Text} {text : List CodePoint} {tokens : List Text} (htoken : IsToken token)
      (hend : IsAtom token → Breaks text) (h : Cut text tokens) :
      Cut (token.toList ++ text) (token :: tokens)

variable {text left right piece run rest : List CodePoint} {token : Text} {tokens before after : List Text}

/-! ## Texts without their blanks -/

@[simp] theorem characters_nil : characters [] = [] := rfl

@[simp] theorem characters_cons (token : Text) (tokens : List Text) :
    characters (token :: tokens) = token.toList ++ characters tokens := List.flatMap_cons

@[simp] theorem dense_nil : dense [] = [] := rfl

@[simp] theorem dense_append (text rest : List CodePoint) : dense (text ++ rest) = dense text ++ dense rest :=
  List.filter_append text rest

theorem dense_cons_blank {c : CodePoint} (hc : Text.isBlank c) (text : List CodePoint) :
    dense (c :: text) = dense text := by
  simp [dense, hc]

theorem dense_cons {c : CodePoint} (hc : Text.isBlank c = false) (text : List CodePoint) :
    dense (c :: text) = c :: dense text := by
  simp [dense, hc]

theorem dense_eq_nil_iff : dense text = [] ↔ ∀ c ∈ text, Text.isBlank c := by
  simp [dense]

namespace IsToken

theorem ne_nil (h : IsToken token) : token.toList ≠ [] := by
  rcases h with rfl | rfl | hatom
  · decide
  · decide
  · exact fun h => hatom.1 (Text.toList_inj.1 h)

theorem isBlank_eq_false (h : IsToken token) : ∀ c ∈ token.toList, Text.isBlank c = false := by
  rcases h with rfl | rfl | hatom
  · exact List.forall_mem_singleton.2 rfl
  · exact List.forall_mem_singleton.2 rfl
  · intro c hc
    exact isBlank_of_isAtomic (hatom.2 c hc)

/-- A token has no blank to lose. -/
theorem dense_eq (h : IsToken token) : dense token.toList = token.toList := by
  rw [dense, List.filter_eq_self]
  intro c hc
  rw [h.isBlank_eq_false c hc]
  rfl

theorem head?_append (h : IsToken token) (rest : List CodePoint) :
    (token.toList ++ rest).head? = token.toList.head? := by
  obtain ⟨c, text, htext⟩ := List.exists_cons_of_ne_nil h.ne_nil
  rw [htext]
  rfl

/-- A token that begins with an atom character is an atom. -/
theorem isAtom {c : CodePoint} (h : IsToken token) (hhead : token.toList.head? = some c) (hc : isAtomic c) :
    IsAtom token := by
  rcases h with rfl | rfl | hatom
  · obtain rfl : char '(' = c := Option.some.inj hhead
    cases hc
  · obtain rfl : char ')' = c := Option.some.inj hhead
    cases hc
  · exact hatom

end IsToken

/-- Blanks at the end of a text that ends with a token: there are none. -/
theorem IsToken.eq_nil_of_dense_eq_nil (htoken : IsToken token)
    (h : left ++ token.toList = text ++ rest) (hrest : dense rest = []) : rest = [] := by
  rcases List.append_eq_append_iff.1 h with ⟨inner, _, hinner⟩ | ⟨inner, _, rfl⟩
  · -- they would be characters of the token
    rw [dense_eq_nil_iff] at hrest
    apply List.eq_nil_iff_forall_not_mem.2
    intro c hc
    have hblank := htoken.isBlank_eq_false c (hinner ▸ List.mem_append_right inner hc)
    rw [hrest c hc] at hblank
    cases hblank
  · -- or the token would be among them
    rw [dense_append, htoken.dense_eq, List.append_eq_nil_iff] at hrest
    exact absurd hrest.2 htoken.ne_nil

/-! ## From a cut to the three properties -/

namespace StandsBetween

theorem cons_blank {c : CodePoint} (hc : Text.isBlank c) (h : StandsBetween text before piece after) :
    StandsBetween (c :: text) before piece after := by
  obtain ⟨left, right, rfl, hleft, hright⟩ := h
  exact ⟨c :: left, right, rfl, (dense_cons_blank hc left).trans hleft, hright⟩

theorem cons_token (htoken : IsToken token) (h : StandsBetween text before piece after) :
    StandsBetween (token.toList ++ text) (token :: before) piece after := by
  obtain ⟨left, right, rfl, hleft, hright⟩ := h
  refine ⟨token.toList ++ left, right, by simp, ?_, hright⟩
  rw [dense_append, htoken.dense_eq, hleft, characters_cons]

/-- What stands after a token stands in what is left of the text after it. -/
theorem tail (htoken : IsToken token) (hleft : dense left = [])
    (h : StandsBetween (left ++ token.toList ++ right) (token :: before) piece after) :
    StandsBetween right before piece after := by
  obtain ⟨first, last, htext, hfirst, hlast⟩ := h
  rw [characters_cons] at hfirst
  rw [List.append_assoc first] at htext
  rcases List.append_eq_append_iff.1 htext with ⟨middle, rfl, hright⟩ | ⟨middle, hmiddle, hright⟩
  · -- the piece stands after the token
    refine ⟨middle, last, by rw [hright, List.append_assoc], ?_, hlast⟩
    simpa [hleft, htoken.dense_eq] using hfirst
  · -- it cannot stand earlier, where the characters of the token are not yet complete
    have hdense := congrArg dense hmiddle
    simp only [dense_append, hleft, htoken.dense_eq, hfirst, List.nil_append, List.append_assoc,
      List.self_eq_append_right, List.append_eq_nil_iff] at hdense
    obtain ⟨hbefore, hnone⟩ := hdense
    obtain rfl := htoken.eq_nil_of_dense_eq_nil hmiddle hnone
    exact ⟨[], last, hright.symm, hbefore.symm, hlast⟩

end StandsBetween

namespace Tokenizes

theorem nil : Tokenizes [] [] := by
  refine ⟨rfl, ?_, ?_⟩
  · intro before token after h
    simp at h
  · intro before first second after h
    simp at h

theorem cons_blank {c : CodePoint} (hc : Text.isBlank c) (h : Tokenizes text tokens) :
    Tokenizes (c :: text) tokens := by
  refine ⟨h.characters_eq.trans (dense_cons_blank hc text).symm, ?_, ?_⟩
  · intro before token after htokens
    obtain ⟨htoken, hstands⟩ := h.run before token after htokens
    exact ⟨htoken, hstands.cons_blank hc⟩
  · intro before first second after htokens hfirst hsecond
    obtain ⟨d, hd, hstands⟩ := h.separated before first second after htokens hfirst hsecond
    exact ⟨d, hd, hstands.cons_blank hc⟩

/-- What ends an atom, and is no blank, is a parenthesis, and that is no part of an atom. -/
theorem exists_blank (h : Tokenizes text (token :: tokens)) (hend : Breaks text) (htoken : IsAtom token) :
    ∃ c rest, text = c :: rest ∧ Text.isBlank c := by
  have hdense := h.characters_eq
  rw [characters_cons] at hdense
  have hisToken : IsToken token := .inr (.inr htoken)
  cases text with
  | nil => exact absurd (List.append_eq_nil_iff.1 hdense).1 hisToken.ne_nil
  | cons c rest =>
    refine ⟨c, rest, rfl, ?_⟩
    cases hc : Text.isBlank c with
    | true => rfl
    | false =>
      -- the character would be the first one of the atom
      rw [dense_cons hc] at hdense
      have hmem : c ∈ token.toList := by
        apply List.mem_of_mem_head?
        rw [← hisToken.head?_append, hdense]
        rfl
      have hatomic := htoken.2 c hmem
      rw [hend c rfl] at hatomic
      cases hatomic

theorem cons_token (htoken : IsToken token) (hend : IsAtom token → Breaks text) (h : Tokenizes text tokens) :
    Tokenizes (token.toList ++ text) (token :: tokens) := by
  refine ⟨?characters, ?run, ?separated⟩
  case characters => rw [characters_cons, h.characters_eq, dense_append, htoken.dense_eq]
  case run =>
    intro before other after htokens
    rcases before with _ | ⟨first, before⟩
    · obtain ⟨rfl, rfl⟩ := List.cons.inj htokens
      exact ⟨htoken, [], text, rfl, rfl, h.characters_eq.symm⟩
    · obtain ⟨rfl, hrest⟩ := List.cons.inj htokens
      obtain ⟨hother, hstands⟩ := h.run before other after hrest
      exact ⟨hother, hstands.cons_token htoken⟩
  case separated =>
    intro before first second after htokens hfirst hsecond
    rcases before with _ | ⟨other, before⟩
    · -- the first token: what ends it is a blank
      obtain ⟨rfl, rfl⟩ := List.cons.inj htokens
      obtain ⟨c, rest, rfl, hc⟩ := h.exists_blank (hend hfirst) hsecond
      refine ⟨c, hc, token.toList, rest, by simp, ?_, ?_⟩
      · simp [htoken.dense_eq]
      · rw [h.characters_eq, dense_cons_blank hc]
    · obtain ⟨rfl, hrest⟩ := List.cons.inj htokens
      obtain ⟨c, hc, hstands⟩ := h.separated before first second after hrest hfirst hsecond
      exact ⟨c, hc, hstands.cons_token htoken⟩

end Tokenizes

/-- A cut has the three properties. -/
theorem Cut.tokenizes (h : Cut text tokens) : Tokenizes text tokens := by
  induction h with
  | done => exact .nil
  | blank hc _ ih => exact ih.cons_blank hc
  | token htoken hend _ ih => exact ih.cons_token htoken hend

/-! ## From the three properties to a cut -/

theorem Cut.blanks (hleft : dense left = []) (h : Cut text tokens) : Cut (left ++ text) tokens := by
  rw [dense_eq_nil_iff] at hleft
  induction left with
  | nil => exact h
  | cons c left ih =>
    obtain ⟨hc, hleft⟩ := List.forall_mem_cons.1 hleft
    exact .blank hc (ih hleft)

namespace Tokenizes

/-- The other tokens are those of the text after the first one. -/
theorem tail (htoken : IsToken token) (hleft : dense left = [])
    (h : Tokenizes (left ++ token.toList ++ right) (token :: tokens)) : Tokenizes right tokens := by
  refine ⟨?characters, ?run, ?separated⟩
  case characters => simpa [hleft, htoken.dense_eq] using h.characters_eq
  case run =>
    intro before other after htokens
    obtain ⟨hother, hstands⟩ := h.run (token :: before) other after (by rw [htokens, List.cons_append])
    exact ⟨hother, hstands.tail htoken hleft⟩
  case separated =>
    intro before first second after htokens hfirst hsecond
    obtain ⟨c, hc, hstands⟩ :=
      h.separated (token :: before) first second after (by rw [htokens, List.cons_append]) hfirst hsecond
    exact ⟨c, hc, hstands.tail htoken hleft⟩

/-- After an atom there is something that ends it. -/
theorem breaks_of_isAtom (htoken : IsAtom token) (hleft : dense left = [])
    (h : Tokenizes (left ++ token.toList ++ right) (token :: tokens)) : Breaks right := by
  intro c hc
  cases hatomic : isAtomic c with
  | false => rfl
  | true =>
    obtain ⟨rest, rfl⟩ : ∃ rest, right = c :: rest := List.head?_eq_some_iff.1 hc
    have hblank := isBlank_of_isAtomic hatomic
    have htail := h.tail (.inr (.inr htoken)) hleft
    cases tokens with
    | nil => simpa [dense_cons hblank] using htail.characters_eq
    | cons second after =>
      -- the character begins the next token, which is then an atom too
      obtain ⟨hsecond, _⟩ := htail.run [] second after rfl
      have hhead : second.toList.head? = some c := by
        have hdense := congrArg List.head? htail.characters_eq
        rwa [characters_cons, hsecond.head?_append, dense_cons hblank] at hdense
      obtain ⟨d, hd, hstands⟩ :=
        h.separated [] token second after rfl htoken (hsecond.isAtom hhead hatomic)
      -- but the blank between the two can only stand where the character does
      obtain ⟨first, last, htext, hfirst, _⟩ := hstands.tail (.inr (.inr htoken)) hleft
      cases first with
      | nil =>
        obtain rfl : c = d := (List.cons.inj htext).1
        rw [hblank] at hd
        cases hd
      | cons e first =>
        obtain rfl : c = e := (List.cons.inj htext).1
        rw [dense_cons hblank] at hfirst
        cases hfirst

/-- What has the three properties is a cut. -/
theorem cut (h : Tokenizes text tokens) : Cut text tokens := by
  induction tokens generalizing text with
  | nil =>
    have hblanks := Cut.blanks h.characters_eq.symm .done
    rwa [List.append_nil] at hblanks
  | cons token tokens ih =>
    obtain ⟨htoken, left, right, rfl, hleft, _⟩ := h.run [] token tokens rfl
    rw [List.append_assoc]
    refine Cut.blanks hleft (.token htoken ?_ (ih (h.tail htoken hleft)))
    intro hatom
    exact h.breaks_of_isAtom hatom hleft

end Tokenizes

/-! ## Cuts and the scanner -/

/-- The run that the scanner holds is cut off where it ends. -/
theorem Cut.closeRun (hrun : ∀ c ∈ run, isAtomic c) (hend : Breaks text) (h : Cut text tokens) :
    Cut (run.reverse ++ text) ((Source.closeRun run).map Text.ofList ++ tokens) := by
  unfold Source.closeRun
  cases run with
  | nil => exact h
  | cons c run =>
    have hatom : IsAtom (Text.ofList (c :: run).reverse) :=
      isAtom_ofList (by simp) fun d hd => hrun d (List.mem_reverse.1 hd)
    have hcut := Cut.token (.inr (.inr hatom)) (fun _ => hend) h
    rwa [Text.toList_ofList] at hcut

/-- **The scanner cuts the text**, together with the run that it holds. -/
theorem cut_scan (hrun : ∀ c ∈ run, isAtomic c) :
    Cut (run.reverse ++ text) ((scan run text).map Text.ofList) := by
  have hempty : ∀ c ∈ ([] : List CodePoint), isAtomic c := fun c hc => absurd hc List.not_mem_nil
  induction text generalizing run with
  | nil =>
    have hcut := Cut.closeRun hrun breaks_nil .done
    rwa [List.append_nil (List.map _ _)] at hcut
  | cons c text ih =>
    have hrest : Cut text ((scan [] text).map Text.ofList) := ih hempty
    unfold scan
    split
    · -- a parenthesis is a token of its own
      rename_i hparenthesis
      have htoken : IsToken (Text.ofList [c]) := by
        rw [isParenthesis, Bool.or_eq_true, beq_iff_eq, beq_iff_eq] at hparenthesis
        rcases hparenthesis with rfl | rfl
        · exact .inl rfl
        · exact .inr (.inl rfl)
      have hatomic : isAtomic c = false := by simp [isAtomic, hparenthesis]
      have hnone : IsAtom (Text.ofList [c]) → Breaks text := by
        intro hatom
        have := hatom.2 c (by simp)
        rw [hatomic] at this
        cases this
      have hcut := Cut.token htoken hnone hrest
      rw [Text.toList_ofList] at hcut
      rw [List.map_append]
      exact Cut.closeRun hrun (breaks_cons hatomic text) hcut
    · split
      · rename_i hblank
        rw [List.map_append]
        exact Cut.closeRun hrun (breaks_cons (by simp [isAtomic, hblank]) text) (.blank hblank hrest)
      · -- anything else goes on with the run
        rename_i hparenthesis hblank
        have hc : isAtomic c := by simp [isAtomic, hparenthesis, hblank]
        have hcut := ih (List.forall_mem_cons.2 ⟨hc, hrun⟩)
        rwa [List.reverse_cons, List.append_assoc] at hcut

/-- **A cut has the tokens that the scanner finds.** -/
theorem Cut.scan_eq (h : Cut text tokens) : (scan [] text).map Text.ofList = tokens := by
  induction h with
  | done => rfl
  | blank hc _ ih =>
    rw [scan_blank hc]
    exact ih
  | @token token text tokens htoken hend _ ih =>
    rcases htoken with rfl | rfl | hatom
    · exact congrArg (("(" : Text) :: ·) ih
    · exact congrArg ((")" : Text) :: ·) ih
    · have hscans : Scans token.toList [Text.ofList token.toList] :=
        scans_atom (IsToken.ne_nil (.inr (.inr hatom))) hatom.2
      rw [hscans text (hend hatom), ih, Text.ofList_toList]
      rfl

theorem cut_iff {source : Text} : Cut source.toList tokens ↔ tokens = tokenize source := by
  constructor
  · intro h
    exact h.scan_eq.symm
  · rintro rfl
    exact cut_scan fun c hc => absurd hc List.not_mem_nil

/-- **The three properties say which tokens a text has.** -/
theorem tokenizes_iff {source : Text} : Tokenizes source.toList tokens ↔ tokens = tokenize source := by
  rw [← cut_iff]
  exact ⟨Tokenizes.cut, Cut.tokenizes⟩

/-! ## Texts that are put together -/

/-- No atom is open at the end of the text. -/
def Closes (text : List CodePoint) : Prop := ∀ c, text.getLast? = some c → isAtomic c = false

theorem Closes.of_append (h : Closes (left ++ text)) : Closes text := by
  intro c hc
  apply h c
  rw [List.getLast?_append, hc]
  rfl

/-- A text that ends with an atom leaves it open. -/
theorem IsAtom.not_closes (h : IsAtom token) : ¬ Closes token.toList := by
  intro hcloses
  have hlast := List.getLast?_eq_some_getLast (IsToken.ne_nil (.inr (.inr h)))
  have hatomic := h.2 _ (List.mem_of_getLast? hlast)
  rw [hcloses _ hlast] at hatomic
  cases hatomic

/-- **Two cuts make one** if no atom of the first text runs on into the second. -/
theorem Cut.append {text' : List CodePoint} {tokens' : List Text} (h : Cut text tokens)
    (h' : Cut text' tokens') (hparted : Closes text ∨ Breaks text') :
    Cut (text ++ text') (tokens ++ tokens') := by
  induction h with
  | done => exact h'
  | @blank c text tokens hc _ ih =>
    have hcloses : Closes ([c] ++ text) → Closes text := Closes.of_append
    exact .blank hc (ih (hparted.imp_left hcloses))
  | @token token text tokens htoken hend _ ih =>
    rw [List.append_assoc]
    refine .token htoken ?_ (ih (hparted.imp_left Closes.of_append))
    intro hatom
    cases text with
    | cons c rest => exact hend hatom
    | nil =>
      -- the atom stands at the end of the first text, so it is the second text that ends it
      rw [List.append_nil] at hparted
      exact hparted.resolve_left hatom.not_closes

theorem tokenize_append {source source' : Text} (h : Closes source.toList ∨ Breaks source'.toList) :
    tokenize (source ++ source') = tokenize source ++ tokenize source' := by
  have hcut := (cut_iff.2 rfl).append (cut_iff.2 rfl) h
  rw [← Text.toList_append] at hcut
  exact (cut_iff.1 hcut).symm

theorem IsToken.cut (h : IsToken token) : Cut token.toList [token] := by
  have hcut := Cut.token h (fun _ => breaks_nil) .done
  rwa [List.append_nil] at hcut

/-- **Tokens with single spaces between them** are the tokens of that text. -/
theorem tokenize_intercalate (h : ∀ token ∈ tokens, IsToken token) :
    tokenize (Text.intercalate " " tokens) = tokens := by
  apply Eq.symm
  rw [← cut_iff]
  induction tokens with
  | nil => exact .done
  | cons token tokens ih =>
    obtain ⟨htoken, htokens⟩ := List.forall_mem_cons.1 h
    cases tokens with
    | nil =>
      rw [Text.intercalate_singleton]
      exact htoken.cut
    | cons next tokens =>
      rw [toList_intercalate_cons]
      exact .token htoken (fun _ => breaks_cons rfl _) (.blank rfl (ih htokens))

/-- **The tokens of a text are its longest runs.** The tokens of a text are the one list that loses nothing
    but blanks, has parentheses and atoms as its members, each of them a run of the text, and has a blank of
    the text between two atoms that follow one another.  So two texts that are put together have the tokens of
    the one and then those of the other, if the first is empty or ends with a blank or a parenthesis, or the
    second is empty or begins with one; blanks at the two ends of a text do not count; and any parentheses and
    atoms, put together with single spaces, are the tokens of what they make. -/
theorem tokenize_longest :
    (∀ (source : Text) (tokens : List Text),
      Tokenizes source.toList tokens ↔ tokens = tokenize source) ∧
    (∀ source source' : Text, Closes source.toList ∨ Breaks source'.toList →
      tokenize (source ++ source') = tokenize source ++ tokenize source') ∧
    (∀ source, tokenize (Text.strip source) = tokenize source) ∧
    ∀ tokens, (∀ token ∈ tokens, IsToken token) → tokenize (Text.intercalate " " tokens) = tokens :=
  ⟨fun _ _ => tokenizes_iff, fun _ _ => tokenize_append, tokenize_strip, fun _ => tokenize_intercalate⟩

/-- A text whose first atom is ended by the parenthesis that the next text begins with. -/
theorem tokenize_longest_parted :
    Breaks ("(c d) " : Text).toList ∧
      tokenize ("(a b" ++ "(c d) ") = (["(", "a", "b", "(", "c", "d", ")"] : List Text) := by
  have hbreaks : Breaks ("(c d) " : Text).toList := breaks_cons rfl _
  refine ⟨hbreaks, ?_⟩
  rw [tokenize_longest.2.1 _ _ (.inr hbreaks)]
  rfl

/-- Two atoms are not one token, although all that it loses is a blank. -/
example : ¬ Tokenizes ("a b" : Text).toList ["ab"] := mt tokenizes_iff.1 (by decide)

end SmallLisp.Source
