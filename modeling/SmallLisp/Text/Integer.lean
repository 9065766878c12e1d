import SmallLisp.Host
import SmallLisp.Text.Blank
import SmallLisp.Text.Digit

/-!
# `SmallLisp.Text.Integer`: whole numbers in settings and options

Blanks may stand around the number, one sign before it, and a single underscore between two of its
digits, which may be those of any script. Numbers of more than `maxIntegerDigits` digits are refused.
-/

namespace SmallLisp.Text

/-- The blanks around a number; the information separators are not among them. -/
def Integer.isMargin (c : Char) : Bool := isBlank c && !(0x1C ≤ c.toNat && c.toNat ≤ 0x1F)

/-- The number that digits spell. -/
def natOfDigits (digits : List Nat) : Nat := digits.foldl (fun n digit => 10 * n + digit) 0

/-- Digits with single underscores between them; `afterDigit` says that an underscore may come. -/
def Integer.digits? (afterDigit : Bool) : List Char → Option (List Nat)
  | [] => if afterDigit then some [] else none
  | '_' :: rest => if afterDigit then Integer.digits? false rest else none
  | c :: rest => (digit? c).bind fun digit => (Integer.digits? true rest).map (digit :: ·)

/-- Reads digits as a number, if they are not too many. -/
def Integer.magnitude? (s : List Char) : Option Nat :=
  (Integer.digits? false s).bind fun digits =>
    if digits.length ≤ maxIntegerDigits then some (natOfDigits digits) else none

/-- Reads a whole number. -/
def integer? (s : Text) : Option Int := do
  match stripBy Integer.isMargin (← s.chars?) with
  | '-' :: rest => (Integer.magnitude? rest).map fun n => -(n : Int)
  | '+' :: rest => (Integer.magnitude? rest).map Int.ofNat
  | rest => (Integer.magnitude? rest).map Int.ofNat

end SmallLisp.Text
