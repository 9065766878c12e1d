import Mathlib.Data.List.Forall2
import SmallLisp.Proofs.Json.Written

/-!
# `Proofs.Json.Objects` — objects are read back member by member

A text reads as a value (`Reads`) if the reader takes it for this value wherever it stands, and goes on behind
it. Strings read so, and the two truth values, and objects whose members do (`reads_object`): what one member
adds is `readMembers_member`, and the members of an object are read by induction.
-/

namespace SmallLisp.Json

/-- **The text reads as the value**, whatever stands before it and after it. -/
structure Reads (depth : Nat) (text : List CodePoint) (value : Json) : Prop where
  begins : ∃ c rest, text = c :: rest ∧ isSpace c = false
  reads (place : Nat) (rest : List CodePoint) :
    ∃ after, readValue depth ⟨place, text ++ rest⟩ = .ok (value, ⟨after, rest⟩)

/-- A string between quotes, as it is written. -/
def stringText (t : List CodePoint) : List CodePoint := .char '"' :: (t ++ [.char '"'])

/-- A member of an object: its name, as it is written, and the text of its value. -/
def memberText (member : List CodePoint × List CodePoint) : List CodePoint :=
  stringText member.1 ++ .char ':' :: .char ' ' :: member.2

/-- Members that stand after others. -/
def furtherText (members : List (List CodePoint × List CodePoint)) : List CodePoint :=
  members.flatMap fun member => .char ',' :: .char ' ' :: memberText member

/-- An object of members. -/
def objectText : List (List CodePoint × List CodePoint) → List CodePoint
  | [] => [.char '\x7b', .char '\x7d']
  | first :: rest => .char '\x7b' :: (memberText first ++ furtherText rest ++ [.char '\x7d'])

/-- The member reads as an entry. -/
def ReadsMember (depth : Nat) (member : List CodePoint × List CodePoint) (entry : Text × Json) : Prop :=
  Written member.1 entry.1.toList ∧ Reads depth member.2 entry.2

variable {depth : Nat}

/-! ## White space -/

section

variable {c : CodePoint}

theorem skip_cons (h : isSpace c = false) (place : Nat) (rest : List CodePoint) :
    (Cursor.mk place (c :: rest)).skip = ⟨place, c :: rest⟩ := by
  simp [Cursor.skip, h]

theorem skip_blank (h : isSpace c = false) (place : Nat) (rest : List CodePoint) :
    (Cursor.mk place (.char ' ' :: c :: rest)).skip = ⟨place + 1, c :: rest⟩ := by
  have hblank : isSpace (.char ' ') = true := by decide
  simp [Cursor.skip, hblank, h]

end

/-! ## Values -/

/-- A string is read up to its closing quote. -/
theorem readString_written {t s : List CodePoint} (h : Written t s) (opening place : Nat)
    (rest : List CodePoint) :
    readString opening [] place (t ++ .char '"' :: rest) =
      .ok (.ofList s, ⟨place + t.length + 1, rest⟩) := by
  obtain ⟨pieces, hpieces, hread⟩ := h.spells
  rw [hread, List.reverse_nil, List.nil_append, hpieces]

theorem reads_string {t : List CodePoint} {s : Text} (h : Written t s.toList) :
    Reads depth (stringText t) (.string s) := by
  refine ⟨⟨.char '"', t ++ [.char '"'], rfl, by decide⟩, fun place rest => ⟨place + 1 + t.length + 1, ?_⟩⟩
  have hstring := readString_written h place (place + 1) rest
  have htext : stringText t ++ rest = .char '"' :: (t ++ .char '"' :: rest) := by
    simp [stringText]
  rw [htext, readValue.eq_def]
  simp only [hstring]
  rfl

theorem reads_true : Reads depth ("true" : Text).toList (.bool true) :=
  ⟨⟨.char 't', ("rue" : Text).toList, by decide, by decide⟩,
    fun place rest => ⟨place + 4, by rw [readValue.eq_def]; rfl⟩⟩

theorem reads_false : Reads depth ("false" : Text).toList (.bool false) :=
  ⟨⟨.char 'f', ("alse" : Text).toList, by decide, by decide⟩,
    fun place rest => ⟨place + 5, by rw [readValue.eq_def]; rfl⟩⟩

/-! ## Objects -/

/-- A name that needs no escape can be written as it is. -/
theorem readsMember_self {name : Text} {text : List CodePoint} {value : Json}
    (hname : ∀ c ∈ name.toList, 0x20 ≤ c.toNat ∧ c ≠ .char '"' ∧ c ≠ .char '\\')
    (h : Reads depth text value) : ReadsMember depth (name.toList, text) (name, value) :=
  ⟨written_self hname, h⟩

section

variable {member : List CodePoint × List CodePoint} {entry : Text × Json}

/-- One member is read, and what stands after it tells how to go on. -/
theorem readMembers_member (h : ReadsMember depth member entry) (members : List (Text × Json))
    (turns place : Nat) {c : CodePoint} (hc : isSpace c = false) (rest : List CodePoint) :
    ∃ after, readMembers (readValue depth) members (turns + 1)
        ⟨place, memberText member ++ c :: rest⟩ =
      match c :: rest with
      | .char '\x7d' :: rest => .ok (.object (Table.put entry.1 entry.2 members), ⟨after + 1, rest⟩)
      | .char ',' :: rest =>
        readMembers (readValue depth) (Table.put entry.1 entry.2 members) turns
          (Cursor.mk (after + 1) rest).skip
      | _ => fail .expectedComma after := by
  obtain ⟨hname, hvalue⟩ := h
  obtain ⟨first, others, hbegin, hspace⟩ := hvalue.begins
  have htext : memberText member ++ c :: rest =
      .char '"' :: (member.1 ++
        .char '"' :: .char ':' :: .char ' ' :: (member.2 ++ c :: rest)) := by
    simp [memberText, stringText]
  have hcolon : isSpace (.char ':') = false := by decide
  obtain ⟨after, hread⟩ := hvalue.reads (place + 1 + member.1.length + 1 + 1 + 1) (c :: rest)
  refine ⟨after, ?_⟩
  have hskip : (Cursor.mk (place + 1 + member.1.length + 1 + 1)
      (.char ' ' :: (member.2 ++ c :: rest))).skip =
      ⟨place + 1 + member.1.length + 1 + 1 + 1, member.2 ++ c :: rest⟩ := by
    rw [hbegin]
    exact skip_blank hspace _ _
  have hafter : (Cursor.mk after (c :: rest)).skip = ⟨after, c :: rest⟩ := skip_cons hc _ _
  rw [htext, readMembers]
  simp only [readString_written hname, Text.ofList_toList, bind, Except.bind, skip_cons hcolon, hskip, hread]
  generalize (Cursor.mk after (c :: rest)).skip = next at hafter
  subst hafter
  rfl

/-- The members of an object are read one after the other. -/
theorem readMembers_text {rest : List (List CodePoint × List CodePoint)} {entries : List (Text × Json)}
    (h : ReadsMember depth member entry) (hrest : List.Forall₂ (ReadsMember depth) rest entries)
    (members : List (Text × Json)) {turns : Nat} (hturns : rest.length < turns) (place : Nat)
    (more : List CodePoint) :
    ∃ after, readMembers (readValue depth) members turns
        ⟨place, memberText member ++
          (furtherText rest ++ .char '\x7d' :: more)⟩ =
      .ok (.object ((entry :: entries).foldl (fun table (key, value) => Table.put key value table)
        members), ⟨after, more⟩) := by
  induction hrest generalizing member entry members turns place with
  | nil =>
    obtain ⟨turns, rfl⟩ := Nat.exists_eq_succ_of_ne_zero (Nat.ne_of_gt hturns)
    have hclose : isSpace (.char '\x7d') = false := by decide
    obtain ⟨after, hread⟩ := readMembers_member h members turns place hclose more
    exact ⟨after + 1, hread⟩
  | @cons next entry' rest entries hnext _ ih =>
    obtain ⟨turns, rfl⟩ := Nat.exists_eq_succ_of_ne_zero (Nat.ne_of_gt (Nat.zero_lt_of_lt hturns))
    have hcomma : isSpace (.char ',') = false := by decide
    have hquote : isSpace (.char '"') = false := by decide
    have htext : furtherText (next :: rest) ++ .char '\x7d' :: more =
        .char ',' :: .char ' ' :: (memberText next ++
          (furtherText rest ++ .char '\x7d' :: more)) := by
      simp [furtherText]
    obtain ⟨after, hread⟩ := readMembers_member h members turns place hcomma
      (.char ' ' :: (memberText next ++
        (furtherText rest ++ .char '\x7d' :: more)))
    obtain ⟨last, hlater⟩ := ih hnext (Table.put entry.1 entry.2 members)
      (Nat.lt_of_succ_lt_succ hturns) (after + 1 + 1)
    have hskip : (Cursor.mk (after + 1)
        (.char ' ' :: (memberText next ++
          (furtherText rest ++ .char '\x7d' :: more)))).skip =
        ⟨after + 1 + 1, memberText next ++
          (furtherText rest ++ .char '\x7d' :: more)⟩ :=
      skip_blank hquote _ _
    rw [htext]
    refine ⟨last, hread.trans ?_⟩
    show readMembers _ _ turns (Cursor.skip _) = _
    rw [hskip, hlater]
    rfl

end

theorem length_le_furtherText (members : List (List CodePoint × List CodePoint)) :
    members.length ≤ (furtherText members).length := by
  induction members with
  | nil => exact Nat.le_refl 0
  | cons member rest ih =>
    have htext : furtherText (member :: rest) =
      .char ',' :: .char ' ' :: (memberText member ++ furtherText rest) := rfl
    rw [htext]
    simp only [List.length_cons, List.length_append]
    omega

/-- **An object reads as its entries**, if its members do. -/
theorem reads_object {members : List (List CodePoint × List CodePoint)} {entries : List (Text × Json)}
    (h : List.Forall₂ (ReadsMember depth) members entries) :
    Reads (depth + 1) (objectText members) (.object (Table.ofEntries entries)) := by
  have hclose : isSpace (.char '\x7d') = false := by decide
  have hquote : isSpace (.char '"') = false := by decide
  cases h with
  | nil =>
    refine ⟨⟨'\x7b', _, rfl, by decide⟩, fun place rest => ⟨place + 1 + 1, ?_⟩⟩
    rw [readValue.eq_def]
    simp only [objectText, List.cons_append, List.nil_append, skip_cons hclose]
    rfl
  | @cons member entry rest entries hmember hrest =>
    refine ⟨⟨'\x7b', _, rfl, by decide⟩, fun place more => ?_⟩
    have hlength := length_le_furtherText rest
    have hopen : objectText (member :: rest) ++ more =
        .char '\x7b' :: (memberText member ++
          (furtherText rest ++ .char '\x7d' :: more)) := by
      simp [objectText]
    -- the length of the text is the number of turns, and a member takes more than one character
    have hturns : rest.length <
        (memberText member ++
          (furtherText rest ++ CodePoint.char '\x7d' :: more)).length + 1 := by
      simp only [List.length_append]
      omega
    obtain ⟨after, hread⟩ := readMembers_text hmember hrest [] hturns (place + 1) more
    refine ⟨after, ?_⟩
    have hskip : (Cursor.mk (place + 1) (memberText member ++
        (furtherText rest ++ .char '\x7d' :: more))).skip =
        ⟨place + 1, memberText member ++
          (furtherText rest ++ .char '\x7d' :: more)⟩ :=
      skip_cons hquote _ _
    rw [hopen, readValue.eq_def]
    simp only [hskip]
    exact hread

/-- An object is on one line, if its names and values are. -/
theorem lineFeed_not_mem_objectText {members : List (List CodePoint × List CodePoint)}
    (h : ∀ member ∈ members, .char '\n' ∉ member.1 ∧ .char '\n' ∉ member.2) :
    .char '\n' ∉ objectText members := by
  have hmember : ∀ member ∈ members, .char '\n' ∉ memberText member := by
    intro member hmem
    obtain ⟨hname, hvalue⟩ := h member hmem
    simp [memberText, stringText, hname, hvalue]
  cases members with
  | nil => decide
  | cons first rest =>
    obtain ⟨hfirst, hrest⟩ := List.forall_mem_cons.1 hmember
    have hfurther : .char '\n' ∉ furtherText rest := by
      intro hmem
      obtain ⟨member, hin, hlf⟩ := List.mem_flatMap.1 hmem
      simp [hrest member hin] at hlf
    simp [objectText, hfirst, hfurther]

/-- **An object is read back**, if its members read as its entries. -/
theorem read_object {members : List (List CodePoint × List CodePoint)} {entries : List (Text × Json)}
    (h : List.Forall₂ (ReadsMember depth) members entries) :
    read (depth + 1) (.ofList (objectText members)) =
      .ok (.object (Table.ofEntries entries)) := by
  have hmark : (objectText members).head? ≠ some (.char '\uFEFF') := by
    cases members <;> simp [objectText]
  have hobject := reads_object h
  obtain ⟨c, rest, htext, hspace⟩ := hobject.begins
  obtain ⟨after, hread⟩ := hobject.reads 0 []
  have hskip : (Cursor.mk 0 (objectText members)).skip = ⟨0, objectText members⟩ := by
    rw [htext]
    exact skip_cons hspace 0 rest
  rw [List.append_nil] at hread
  rw [read, Text.toList_ofList, if_neg hmark, hskip, hread]
  rfl

end SmallLisp.Json
