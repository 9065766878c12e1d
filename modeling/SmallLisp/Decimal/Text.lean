import SmallLisp.Decimal.Shortest

/-!
# `SmallLisp.Decimal.Text`: numbers in writing

There are two ways to write a double. A *diagnostic* writes the shortest decimal that reads back, in
the layout `diagnosticLayout`, and tells `0.0` from `-0.0`. The *program text* writes a whole number
as an integer with all its digits, and an infinity by the name under which it is read.
-/

namespace SmallLisp.Decimal

/-- How the digits of a decimal are laid out: which decimal exponents are written by the place of
the point, and how many digits an exponent has at least. -/
structure Layout where
  leastPlain : Int
  greatestPlain : Int
  exponentWidth : Nat

/-- Exponents from `-4` to `15` are written by the place of the point, the others after an `e` with
a sign and two digits at least. -/
def diagnosticLayout : Layout := ⟨-4, 15, 2⟩

/-- The digits of a decimal without zeros at the end. -/
def Scientific.digits (d : Scientific) : List Char :=
  ((Nat.toDigits 10 d.coefficient).reverse.dropWhile (· == '0')).reverse

/-- How many of the digits stand before the point. -/
def Scientific.point (d : Scientific) : Int := (Nat.toDigits 10 d.coefficient).length + d.exponent

/-- Digits with the point after the first `point` of them. -/
def plain (digits : List Char) (point : Int) : List Char :=
  if point ≤ 0 then '0' :: '.' :: List.replicate (-point).toNat '0' ++ digits
  else if point < digits.length then
    digits.take point.toNat ++ '.' :: digits.drop point.toNat
  else digits ++ List.replicate (point.toNat - digits.length) '0' ++ ['.', '0']

/-- Digits with the point after the first of them, and the exponent that this leaves. -/
def withExponent (width : Nat) (digits : List Char) (exponent : Int) : List Char :=
  let fraction := match digits.drop 1 with
    | [] => []
    | rest => '.' :: rest
  let sign := if exponent < 0 then '-' else '+'
  digits.take 1 ++ fraction ++
    'e' :: sign :: (Nat.toDigits 10 exponent.natAbs).leftpad width '0'

/-- A positive decimal in a layout. -/
def Layout.write (layout : Layout) (d : Scientific) : List Char :=
  let exponent := d.point - 1
  if layout.leastPlain ≤ exponent ∧ exponent ≤ layout.greatestPlain then plain d.digits d.point
  else withExponent layout.exponentWidth d.digits exponent

/-- The sign of a number in writing. -/
def signText (negative : Bool) : List Char := if negative then ['-'] else []

/-- A double as a diagnostic shows it. -/
def diagnosticText (x : Float) : String :=
  let b := Binary.ofFloat x
  if infinity < b.magnitude then "nan"
  else String.ofList <| signText b.negative ++
    if b.magnitude = infinity then ['i', 'n', 'f']
    else if b.magnitude = 0 then ['0', '.', '0']
    else diagnosticLayout.write (shortest b.magnitude)

/-- The program text of the infinities. -/
def infinityText (negative : Bool) : String := if negative then "-Infinity" else "Infinity"

/-- A double as program text. -/
def programText (x : Float) : String :=
  let b := Binary.ofFloat x
  if b.magnitude = infinity then infinityText b.negative
  else if b.magnitude < infinity ∧ units b.magnitude % unitsInOne = 0 then
    let whole := units b.magnitude / unitsInOne
    String.ofList (signText (b.negative && whole != 0) ++ Nat.toDigits 10 whole)
  else diagnosticText x

end SmallLisp.Decimal
