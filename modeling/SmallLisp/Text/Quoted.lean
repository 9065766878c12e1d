import SmallLisp.Text.Printable

/-!
# `SmallLisp.Text.Quoted`: a text as diagnostics quote it

The text stands between single quotes, or between double quotes if it holds a single quote and no
double quote. The delimiter and the backslash are escaped by a backslash, and so is everything that
is not printable.
-/

namespace SmallLisp.Text

/-- The lower-case hexadecimal digits of `n`, padded with zeros to `width`. -/
def hex (width n : Nat) : List Char := (Nat.toDigits 16 n).leftpad width '0'

/-- The escape of a code point by its number. -/
def escape (n : Nat) : List Char :=
  if n < 0x100 then '\\' :: 'x' :: hex 2 n
  else if n < 0x10000 then '\\' :: 'u' :: hex 4 n
  else '\\' :: 'U' :: hex 8 n

/-- One code point between quotes. -/
def quotePoint (delimiter c : CodePoint) : List CodePoint :=
  if c = delimiter ∨ c = '\\' then ['\\', c]
  else if c = '\n' then ['\\', 'n']
  else if c = '\r' then ['\\', 'r']
  else if c = '\t' then ['\\', 't']
  else if isPrintable c then [c]
  else (escape c.toNat).map .char

/-- The quote that delimits a text. -/
def quoteDelimiter (s : Text) : CodePoint :=
  if .char '\'' ∈ s.toList ∧ .char '"' ∉ s.toList then '"' else '\''

/-- The text between quotes. -/
def quoted (s : Text) : Text :=
  let delimiter := quoteDelimiter s
  ofList (delimiter :: s.toList.flatMap (quotePoint delimiter) ++ [delimiter])

end SmallLisp.Text
