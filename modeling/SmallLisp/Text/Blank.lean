import SmallLisp.Text

/-!
# `SmallLisp.Text.Blank`: characters that only separate

A blank ends an atom and is dropped from both ends of a line or a setting. The class is that of all
scripts: the ASCII controls from tab to carriage return, the four information separators, the
space, and the other spaces and line ends.
-/

namespace SmallLisp.Text

/-- Does the code point separate atoms? -/
def isBlank (c : CodePoint) : Bool :=
  let code := c.toNat
  (0x09 ≤ code && code ≤ 0x0D) || (0x1C ≤ code && code ≤ 0x20) || code == 0x85 || code == 0xA0 ||
    code == 0x1680 || (0x2000 ≤ code && code ≤ 0x200A) || code == 0x2028 || code == 0x2029 ||
    code == 0x202F || code == 0x205F || code == 0x3000

/-- The list without the members at its two ends that satisfy `drop`. -/
def stripBy {α : Type} (drop : α → Bool) (items : List α) : List α :=
  ((items.dropWhile drop).reverse.dropWhile drop).reverse

/-- The text without the blanks at its two ends. -/
def strip (s : Text) : Text := ofList (stripBy isBlank s.toList)

/-- A code point, in lower case if it is an ASCII letter. -/
def toLower : CodePoint → CodePoint
  | .char c => .char c.toLower
  | .lone unit => .lone unit

/-- Is the text `word`, read without regard to case? The word is in ASCII lower case and has no
`k`, the one letter that another script's letter has as its lower case. -/
def isWord (word s : Text) : Bool := s.toList.map toLower == word.toList

end SmallLisp.Text
