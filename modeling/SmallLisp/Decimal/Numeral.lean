import SmallLisp.Decimal.Shortest
import SmallLisp.Text.Integer

/-!
# `SmallLisp.Decimal.Numeral`: decimal numerals

A numeral is an optional sign, digits with at most one point before, between or after them, and an
optional exponent: `e` or `E`, an optional sign, digits. The digits are those of any script.
`Numeral.read?` accepts exactly these texts, and `Numeral.toFloat` is the closest double.
-/

namespace SmallLisp.Decimal

open SmallLisp.Text

/-- A numeral taken apart: sign, the digits without the point, and the power of ten that they are
multiplied by. -/
structure Numeral where
  negative : Bool
  digits : List Nat
  exponent : Int
  deriving DecidableEq, Repr

namespace Numeral

/-- The digits at the front of a text, and what follows them. -/
def splitDigits : List Char → List Nat × List Char
  | [] => ([], [])
  | c :: rest =>
    match digit? c with
    | some digit => let (digits, after) := splitDigits rest; (digit :: digits, after)
    | none => ([], c :: rest)

/-- The sign at the front of a text, true for a minus, and what follows it. -/
def splitSign : List Char → Bool × List Char
  | '-' :: rest => (true, rest)
  | '+' :: rest => (false, rest)
  | rest => (false, rest)

/-- An integer from its sign and its magnitude. -/
def signed (negative : Bool) (n : Nat) : Int := if negative then -n else n

/-- Reads an exponent part, which may be missing, to the end of the text. -/
def readExponent? : List Char → Option Int
  | [] => some 0
  | c :: rest =>
    if c = 'e' ∨ c = 'E' then
      let (negative, rest) := splitSign rest
      match splitDigits rest with
      | (digit :: digits, []) => some (signed negative (natOfDigits (digit :: digits)))
      | _ => none
    else none

/-- The digits before and after the point, and what follows them. -/
def splitPoint (s : List Char) : List Nat × List Nat × List Char :=
  match splitDigits s with
  | (whole, '.' :: rest) => let (fraction, rest) := splitDigits rest; (whole, fraction, rest)
  | (whole, rest) => (whole, [], rest)

/-- Reads a numeral. -/
def read? (s : List Char) : Option Numeral :=
  let (negative, rest) := splitSign s
  let (whole, fraction, rest) := splitPoint rest
  if whole = [] ∧ fraction = [] then none
  else (readExponent? rest).map fun exponent =>
    ⟨negative, whole ++ fraction, exponent - fraction.length⟩

/-- The decimal that a numeral spells, apart from its sign. -/
def scientific (n : Numeral) : Scientific := ⟨natOfDigits n.digits, n.exponent⟩

/-- The magnitude closest to a numeral. The number lies below `10 ^ top` and, unless it is zero, not
below `10 ^ (top - 1)`, which decides the numbers far outside the range of a double at once. -/
def magnitude (n : Numeral) : Nat :=
  let top := ((n.digits.dropWhile (· == 0)).length : Int) + n.exponent
  if n.digits.all (· == 0) then 0
  else if 310 < top then infinity
  else if top < -330 then 0
  else n.scientific.nearest

/-- The double closest to a numeral. -/
def toFloat (n : Numeral) : Float := Binary.toFloat ⟨n.negative, n.magnitude⟩

end Numeral

end SmallLisp.Decimal
