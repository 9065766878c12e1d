/-!
# `SmallLisp.Text`: texts

A text is a list of code points. A code point is a character, or one half of a pair of surrogates
that stands alone: no encoding has octets for such a half, but a text can hold it. A string is a
text, and constant texts are written as strings.
-/

namespace SmallLisp

/-- A code point: a character, or the surrogate `0xD800 + unit` outside of a pair. -/
inductive CodePoint
  | char (c : Char)
  | lone (unit : Fin 0x800)
  deriving DecidableEq, Repr

namespace CodePoint

instance : Coe Char CodePoint := ⟨char⟩

/-- The number of a code point. -/
def toNat : CodePoint → Nat
  | char c => c.toNat
  | lone unit => 0xD800 + unit

/-- The code point of a number. -/
def ofNat (n : Nat) : CodePoint :=
  if h : 0xD800 ≤ n ∧ n < 0xE000 then lone ⟨n - 0xD800, by omega⟩ else char (Char.ofNat n)

/-- The character that a code point is, unless it is a surrogate. -/
def char? : CodePoint → Option Char
  | char c => some c
  | lone _ => none

/-- Is the code point a character? -/
def isChar (c : CodePoint) : Bool := c.char?.isSome

/-- The characters that code points are, unless one of them is a surrogate. -/
def chars? : List CodePoint → Option (List Char)
  | [] => some []
  | char c :: rest => (chars? rest).map (c :: ·)
  | lone _ :: _ => none

theorem chars?_eq_some_iff {points : List CodePoint} {cs : List Char} :
    chars? points = some cs ↔ points = cs.map char := by
  induction points generalizing cs with
  | nil => cases cs <;> simp [chars?]
  | cons c points ih =>
    cases c with
    | lone unit => cases cs <;> simp [chars?]
    | char c =>
      rw [chars?, Option.map_eq_some_iff]
      cases cs with
      | nil => simp
      | cons d cs =>
        simp only [ih, List.map_cons, List.cons.injEq, char.injEq]
        constructor
        · rintro ⟨_, h, rfl, rfl⟩
          exact ⟨rfl, h⟩
        · rintro ⟨rfl, h⟩
          exact ⟨cs, h, rfl, rfl⟩

end CodePoint

/-- A text. -/
structure Text where
  ofList ::
  toList : List CodePoint
  deriving DecidableEq, Repr

namespace Text

/-- A string as a text. -/
@[coe] def ofString (s : String) : Text := ofList (s.toList.map .char)

instance : Coe String Text := ⟨ofString⟩

instance : Inhabited Text := ⟨""⟩

instance : Append Text := ⟨fun s t => ofList (s.toList ++ t.toList)⟩

/-- Is there nothing in the text? -/
def isEmpty (s : Text) : Bool := s.toList.isEmpty

/-- Texts one after the other. -/
def join (texts : List Text) : Text := ofList (texts.flatMap toList)

/-- Texts one after the other, with a separator between any two. -/
def intercalate (separator : Text) (texts : List Text) : Text :=
  ofList (separator.toList.intercalate (texts.map toList))

/-- The characters of a text that holds no lone surrogate. -/
def chars? (s : Text) : Option (List Char) := CodePoint.chars? s.toList

/-- The string that a text is, unless it holds a lone surrogate. -/
def string? (s : Text) : Option String := s.chars?.map String.ofList

/-! ## Lists and strings as texts -/

variable {s t : Text}

@[simp] theorem toList_ofList (points : List CodePoint) : (ofList points).toList = points := rfl

@[simp] theorem ofList_toList (s : Text) : ofList s.toList = s := rfl

theorem toList_inj : s.toList = t.toList ↔ s = t :=
  ⟨fun h => congrArg ofList h, fun h => congrArg toList h⟩

theorem isEmpty_iff : s.isEmpty ↔ s = "" := by
  rw [isEmpty, List.isEmpty_iff, ← toList_inj]
  rfl

@[simp] theorem toList_ofString (s : String) : (ofString s).toList = s.toList.map .char := rfl

theorem chars?_eq_some_iff {cs : List Char} : s.chars? = some cs ↔ s = ofList (cs.map .char) := by
  rw [← toList_inj, toList_ofList, chars?, CodePoint.chars?_eq_some_iff]

theorem ofString_append (s t : String) : ofString (s ++ t) = ofString s ++ ofString t := by
  rw [← toList_inj, toList_ofString, String.toList_append, List.map_append]
  rfl

/-! ## Texts one after the other -/

@[simp] theorem toList_append (s t : Text) : (s ++ t).toList = s.toList ++ t.toList := rfl

@[simp] theorem append_empty (s : Text) : s ++ "" = s := congrArg ofList (List.append_nil s.toList)

@[simp] theorem empty_append (s : Text) : "" ++ s = s := rfl

theorem append_assoc (s t u : Text) : s ++ t ++ u = s ++ (t ++ u) :=
  congrArg ofList (List.append_assoc s.toList t.toList u.toList)

theorem append_right_inj (s : Text) {t u : Text} : s ++ t = s ++ u ↔ t = u := by
  rw [← toList_inj, toList_append, toList_append, List.append_right_inj, toList_inj]

@[simp] theorem toList_join (texts : List Text) : (join texts).toList = texts.flatMap toList := rfl

@[simp] theorem join_nil : join [] = "" := rfl

@[simp] theorem join_cons (s : Text) (texts : List Text) : join (s :: texts) = s ++ join texts := rfl

theorem join_append (texts more : List Text) : join (texts ++ more) = join texts ++ join more :=
  congrArg ofList List.flatMap_append

@[simp] theorem intercalate_singleton (separator s : Text) : intercalate separator [s] = s := by
  rw [← toList_inj, intercalate]
  simp [List.intercalate]

theorem intercalate_cons_cons (separator s t : Text) (texts : List Text) :
    intercalate separator (s :: t :: texts) =
      s ++ separator ++ intercalate separator (t :: texts) := by
  rw [← toList_inj]
  simp [intercalate, List.intercalate]

end Text

end SmallLisp
