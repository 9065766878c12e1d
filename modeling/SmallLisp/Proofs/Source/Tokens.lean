import SmallLisp.Source.Token

/-!
# `Proofs.Source.Tokens` — where tokens begin and end

A run of atom characters is one token as long as something else follows it: a parenthesis, a blank, or
the end of the text (`Breaks`). `Scans text tokens` says that a text has these tokens wherever it is
followed by such a break, so that texts with spaces between them, and texts between parentheses, have the
tokens of their parts.

The other way round, every token of a text is a parenthesis or an atom (`isAtom_of_mem_tokenize`).
Blanks at the two ends of a text change none of its tokens (`tokenize_strip`).
-/

namespace SmallLisp.Source

open CodePoint (char)

/-- Can the character stand in an atom? -/
def isAtomic (c : CodePoint) : Bool := !isParenthesis c && !Text.isBlank c

/-- **An atom**: one character or more, and no blank and no parenthesis among them. -/
def IsAtom (token : Text) : Prop := token ≠ "" ∧ ∀ c ∈ token.toList, isAtomic c

/-- An atom ends before this text. -/
def Breaks (rest : List CodePoint) : Prop := ∀ c, rest.head? = some c → isAtomic c = false

theorem isBlank_of_isAtomic {c : CodePoint} (h : isAtomic c) : Text.isBlank c = false := by
  simp only [isAtomic, Bool.and_eq_true, Bool.not_eq_true'] at h
  exact h.2

/-- **The text has these tokens**, before anything that ends an atom. -/
def Scans (text : List CodePoint) (tokens : List Text) : Prop :=
  ∀ rest, Breaks rest →
    (scan [] (text ++ rest)).map Text.ofList = tokens ++ (scan [] rest).map Text.ofList

variable {run text rest : List CodePoint} {tokens : List Text}

/-! ## What the tokens are -/

theorem isAtom_ofList (hne : text ≠ []) (h : ∀ c ∈ text, isAtomic c) : IsAtom (Text.ofList text) := by
  constructor
  · intro hempty
    exact hne (Text.ofList.inj hempty)
  · rw [Text.toList_ofList]
    exact h

/-- A run of atom characters, if there are any, is an atom. -/
theorem isAtom_of_mem_closeRun (h : ∀ c ∈ run, isAtomic c) :
    ∀ token ∈ closeRun run, IsAtom (Text.ofList token) := by
  unfold closeRun
  split
  · intro token htoken
    cases htoken
  · rename_i hne
    intro token htoken
    rw [List.mem_singleton.1 htoken]
    apply isAtom_ofList
    · simpa using hne
    · intro c hc
      exact h c (List.mem_reverse.1 hc)

/-- The scanner finds parentheses and atoms. -/
theorem mem_scan (h : ∀ c ∈ run, isAtomic c) :
    ∀ token ∈ scan run text, token = [char '('] ∨ token = [char ')'] ∨ IsAtom (Text.ofList token) := by
  induction text generalizing run with
  | nil =>
    intro token htoken
    exact .inr (.inr (isAtom_of_mem_closeRun h token htoken))
  | cons c text ih =>
    have hclosed : ∀ token ∈ closeRun run,
        token = [char '('] ∨ token = [char ')'] ∨ IsAtom (Text.ofList token) := fun token htoken =>
      .inr (.inr (isAtom_of_mem_closeRun h token htoken))
    have hempty : ∀ c ∈ ([] : List CodePoint), isAtomic c := fun c hc => absurd hc List.not_mem_nil
    unfold scan
    split
    · -- a parenthesis is a token of its own
      rename_i hparenthesis
      refine List.forall_mem_append.2 ⟨hclosed, List.forall_mem_cons.2 ⟨?_, ih hempty⟩⟩
      rw [isParenthesis, Bool.or_eq_true, beq_iff_eq, beq_iff_eq] at hparenthesis
      rcases hparenthesis with rfl | rfl
      · exact .inl rfl
      · exact .inr (.inl rfl)
    · rename_i hparenthesis
      split
      · exact List.forall_mem_append.2 ⟨hclosed, ih hempty⟩
      · -- anything else goes on with the run
        rename_i hblank
        have hc : isAtomic c := by simp [isAtomic, hparenthesis, hblank]
        exact ih (List.forall_mem_cons.2 ⟨hc, h⟩)

/-- **A token that is no parenthesis is an atom.** -/
theorem isAtom_of_mem_tokenize {source token : Text} (h : token ∈ tokenize source)
    (hopen : token ≠ "(") (hclose : token ≠ ")") : IsAtom token := by
  obtain ⟨characters, hmem, rfl⟩ := List.mem_map.1 h
  rcases mem_scan (fun c hc => absurd hc List.not_mem_nil) characters hmem with rfl | rfl | hatom
  · exact absurd rfl hopen
  · exact absurd rfl hclose
  · exact hatom

/-- The code points of a token are those of the run before the text, or of the text. -/
theorem mem_of_mem_scan (run text : List CodePoint) :
    ∀ token ∈ scan run text, ∀ c ∈ token, c ∈ run ∨ c ∈ text := by
  have hclosed (run text : List CodePoint) : ∀ token ∈ closeRun run, ∀ c ∈ token, c ∈ run ∨ c ∈ text := by
    intro token htoken c hc
    unfold closeRun at htoken
    split at htoken
    · cases htoken
    · rw [List.mem_singleton.1 htoken] at hc
      exact .inl (List.mem_reverse.1 hc)
  induction text generalizing run with
  | nil => exact hclosed run []
  | cons d text ih =>
    have hlater : ∀ token ∈ scan [] text, ∀ c ∈ token, c ∈ run ∨ c ∈ d :: text := by
      intro token htoken c hc
      rcases ih [] token htoken c hc with hnone | htext
      · cases hnone
      · exact .inr (List.mem_cons_of_mem d htext)
    unfold scan
    split
    · refine List.forall_mem_append.2 ⟨hclosed run _, List.forall_mem_cons.2 ⟨?_, hlater⟩⟩
      exact List.forall_mem_singleton.2 (.inr List.mem_cons_self)
    · split
      · exact List.forall_mem_append.2 ⟨hclosed run _, hlater⟩
      · intro token htoken c hc
        rcases ih (d :: run) token htoken c hc with hrun | htext
        · rcases List.mem_cons.1 hrun with rfl | hrun
          · exact .inr List.mem_cons_self
          · exact .inl hrun
        · exact .inr (List.mem_cons_of_mem d htext)

/-- **A token is made of code points of the text.** -/
theorem mem_of_mem_tokenize {source token : Text} (h : token ∈ tokenize source) :
    ∀ c ∈ token.toList, c ∈ source.toList := by
  obtain ⟨characters, hmem, rfl⟩ := List.mem_map.1 h
  intro c hc
  rcases mem_of_mem_scan [] source.toList characters hmem c hc with hnone | htext
  · cases hnone
  · exact htext

/-! ## Texts and their tokens -/

theorem breaks_nil : Breaks [] := nofun

theorem breaks_cons {c : CodePoint} (h : isAtomic c = false) (rest : List CodePoint) : Breaks (c :: rest) := by
  rintro _ ⟨⟩
  exact h

/-- Atom characters are put to the run. -/
theorem scan_append (h : ∀ c ∈ text, isAtomic c) :
    scan run (text ++ rest) = scan (text.reverse ++ run) rest := by
  induction text generalizing run with
  | nil => rfl
  | cons c text ih =>
    obtain ⟨hc, htext⟩ := List.forall_mem_cons.1 h
    obtain ⟨hparenthesis, hblank⟩ : isParenthesis c = false ∧ Text.isBlank c = false := by
      simpa [isAtomic] using hc
    rw [List.cons_append, scan, hparenthesis, hblank, List.reverse_cons, List.append_assoc]
    exact ih htext

/-- A break closes the run. -/
theorem scan_of_breaks (h : Breaks rest) : scan run rest = closeRun run ++ scan [] rest := by
  have hclosed : closeRun [] = [] := rfl
  cases rest with
  | nil => rw [scan, scan, hclosed, List.append_nil]
  | cons c rest =>
    have hc := h c rfl
    rw [scan, scan, hclosed]
    cases hp : isParenthesis c with
    | true => rfl
    | false =>
      cases hb : Text.isBlank c with
      | true => rfl
      | false =>
        -- neither a parenthesis nor a blank would be no break
        rw [isAtomic, hp, hb] at hc
        cases hc

/-- A run of atom characters is one token. -/
theorem scans_atom (hne : text ≠ []) (h : ∀ c ∈ text, isAtomic c) :
    Scans text [Text.ofList text] := by
  intro rest hrest
  -- the scanner keeps the run in reverse, and drops it if it is empty
  have hrun : closeRun text.reverse = [text] := by
    rw [closeRun, if_neg (by simpa using hne), List.reverse_reverse]
  rw [scan_append h, List.append_nil, scan_of_breaks hrest, hrun]
  rfl

/-- A space separates the tokens of two texts. -/
theorem Scans.space {text' : List CodePoint} {tokens' : List Text} (h : Scans text tokens)
    (h' : Scans text' tokens') : Scans (text ++ char ' ' :: text') (tokens ++ tokens') := by
  intro rest hrest
  have hblank : scan [] (char ' ' :: (text' ++ rest)) = scan [] (text' ++ rest) := rfl
  rw [List.append_assoc, List.cons_append, h _ (breaks_cons rfl _), hblank, h' _ hrest,
    List.append_assoc]

/-- Between texts that are put together there is a space. -/
theorem toList_intercalate_cons (text next : Text) (texts : List Text) :
    (Text.intercalate " " (text :: next :: texts)).toList =
      text.toList ++ char ' ' :: (Text.intercalate " " (next :: texts)).toList := by
  rw [Text.intercalate_cons_cons, Text.toList_append, Text.toList_append, List.append_assoc]
  rfl

/-- Parentheses are tokens of their own. -/
theorem Scans.parenthesized (h : Scans text tokens) :
    Scans (char '(' :: (text ++ [char ')'])) ("(" :: (tokens ++ [(")" : Text)])) := by
  intro rest hrest
  have hopen : scan [] (char '(' :: (text ++ [char ')'] ++ rest)) =
      [char '('] :: scan [] (text ++ char ')' :: rest) := by
    rw [List.append_assoc]
    rfl
  have hclose : scan [] (char ')' :: rest) = [char ')'] :: scan [] rest := rfl
  rw [List.cons_append, hopen, List.map_cons, h _ (breaks_cons rfl _), hclose, List.map_cons,
    List.cons_append, List.append_assoc]
  rfl

theorem Scans.eq_nil (h : Scans [] tokens) : tokens = [] := by
  have := h [] breaks_nil
  exact (List.append_eq_nil_iff.1 this.symm).1

/-- The tokens of a whole text. -/
theorem Scans.tokenize {source : Text} (h : Scans source.toList tokens) :
    tokenize source = tokens := by
  have := h [] breaks_nil
  rw [List.append_nil] at this
  rw [Source.tokenize, this]
  exact List.append_nil tokens

/-! ## Blanks at the ends -/

/-- What is dropped at the two ends of a list. -/
theorem exists_margins {α : Type} (drop : α → Bool) (items : List α) :
    ∃ before after, items = before ++ Text.stripBy drop items ++ after ∧
      (∀ x ∈ before, drop x) ∧ ∀ x ∈ after, drop x := by
  -- the end is dropped as the beginning of the reversed list
  have hends : ∀ items : List α,
      items = items.takeWhile drop ++ items.dropWhile drop ∧ ∀ x ∈ items.takeWhile drop, drop x := by
    intro items
    exact ⟨List.takeWhile_append_dropWhile.symm, List.all_eq_true.1 List.all_takeWhile⟩
  obtain ⟨hbegin, hbefore⟩ := hends items
  obtain ⟨hend, hafter⟩ := hends (items.dropWhile drop).reverse
  refine ⟨_, ((items.dropWhile drop).reverse.takeWhile drop).reverse, ?_, hbefore, ?_⟩
  · have hkept : items.dropWhile drop =
        Text.stripBy drop items ++ ((items.dropWhile drop).reverse.takeWhile drop).reverse := by
      rw [Text.stripBy, ← List.reverse_append, ← hend, List.reverse_reverse]
    rw [List.append_assoc, ← hkept]
    exact hbegin
  · intro x hx
    exact hafter x (List.mem_reverse.1 hx)

theorem isParenthesis_of_isBlank {c : CodePoint} (h : Text.isBlank c) : isParenthesis c = false := by
  cases hc : isParenthesis c with
  | false => rfl
  | true =>
    rw [isParenthesis, Bool.or_eq_true, beq_iff_eq, beq_iff_eq] at hc
    rcases hc with rfl | rfl <;> exact absurd h (by decide)

/-- A blank ends the run. -/
theorem scan_blank {c : CodePoint} (h : Text.isBlank c) :
    scan run (c :: rest) = closeRun run ++ scan [] rest := by
  simp [scan, isParenthesis_of_isBlank h, h]

/-- Blanks alone make no token. -/
theorem scan_blanks (h : ∀ c ∈ text, Text.isBlank c) : scan [] (text ++ rest) = scan [] rest := by
  induction text with
  | nil => rfl
  | cons c text ih =>
    obtain ⟨hc, htext⟩ := List.forall_mem_cons.1 h
    rw [List.cons_append, scan_blank hc, ih htext]
    rfl

/-- Blanks after a text end its last atom and do nothing else. -/
theorem scan_append_blanks (h : ∀ c ∈ rest, Text.isBlank c) :
    scan run (text ++ rest) = scan run text := by
  induction text generalizing run with
  | nil =>
    cases rest with
    | nil => rfl
    | cons c rest =>
      obtain ⟨hc, hrest⟩ := List.forall_mem_cons.1 h
      have hnone : scan [] (rest ++ []) = scan [] [] := scan_blanks hrest
      rw [List.append_nil] at hnone
      rw [List.nil_append, scan_blank hc, hnone]
      exact List.append_nil (closeRun run)
  | cons c text ih =>
    rw [List.cons_append, scan, scan]
    split
    · rw [ih]
    · split
      · rw [ih]
      · exact ih

/-- **The blanks at its two ends do not change the tokens of a text.** -/
theorem tokenize_strip (source : Text) : tokenize (Text.strip source) = tokenize source := by
  obtain ⟨before, after, hsource, hbefore, hafter⟩ := exists_margins Text.isBlank source.toList
  have hscan : scan [] source.toList = scan [] (Text.stripBy Text.isBlank source.toList) := by
    apply (congrArg (scan []) hsource).trans
    rw [List.append_assoc, scan_blanks hbefore, scan_append_blanks hafter]
  rw [tokenize, tokenize, Text.strip, Text.toList_ofList, hscan]

end SmallLisp.Source
