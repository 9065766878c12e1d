import SmallLisp.Text.Quoted

/-!
# `SmallLisp.Json.Escape`: JSON strings in ASCII

Everything but the printable ASCII characters is escaped: a character past `U+FFFF` as the pair of
surrogates that stands for it, a lone surrogate by itself.
-/

namespace SmallLisp.Json

/-- The letter of a two-character escape. -/
def escapeLetter? (c : Char) : Option Char :=
  match c with
  | '"' => some '"'
  | '\\' => some '\\'
  | '\n' => some 'n'
  | '\r' => some 'r'
  | '\t' => some 't'
  | '\x08' => some 'b'
  | '\x0c' => some 'f'
  | _ => none

/-- The escape of a 16-bit unit. -/
def escapeUnit (unit : Nat) : List Char := '\\' :: 'u' :: Text.hex 4 unit

/-- One character between quotes. -/
def escapeChar (c : Char) : List Char :=
  match escapeLetter? c with
  | some letter => ['\\', letter]
  | none =>
    if 0x20 ≤ c.toNat ∧ c.toNat < 0x7F then [c]
    else if c.toNat < 0x10000 then escapeUnit c.toNat
    else
      let offset := c.toNat - 0x10000
      escapeUnit (0xD800 + offset / 0x400) ++ escapeUnit (0xDC00 + offset % 0x400)

/-- One code point between quotes. -/
def escapePoint : CodePoint → List Char
  | .char c => escapeChar c
  | .lone unit => escapeUnit (0xD800 + unit)

/-- A string between quotes. -/
def quote (s : Text) : String := .ofList ('"' :: s.toList.flatMap escapePoint ++ ['"'])

end SmallLisp.Json
