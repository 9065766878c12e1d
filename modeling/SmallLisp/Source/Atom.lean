import SmallLisp.Decimal.Numeral
import SmallLisp.Value.Basic

/-!
# `SmallLisp.Source.Atom`: what an atom stands for

A numeral or the name of an infinity stands for a number, characters between double quotes for a
text (there are no escapes), `nil` and `t` for the truth values, and any other atom for a symbol.
-/

namespace SmallLisp.Source

/-- The numeral that an atom is. -/
def numeral? (atom : Text) : Option Decimal.Numeral := atom.chars?.bind Decimal.Numeral.read?

/-- The names of the infinities. -/
def infinity? (atom : Text) : Option Float :=
  if atom = "Infinity" ∨ atom = "+Infinity" then some (Decimal.infinite false)
  else if atom = "-Infinity" then some (Decimal.infinite true)
  else none

/-- The characters between the quotes that begin and end an atom. -/
def unquote? (atom : Text) : Option Text :=
  match atom.toList with
  | .char '"' :: rest =>
    if rest.getLast? = some (.char '"') then some (.ofList rest.dropLast) else none
  | _ => none

/-- The value of an atom. -/
def ofAtom (atom : Text) : Value :=
  match numeral? atom with
  | some numeral => .number numeral.toFloat
  | none =>
    match infinity? atom with
    | some x => .number x
    | none =>
      match unquote? atom with
      | some characters => .text characters
      | none =>
        if atom = "nil" then .nil
        else if atom = "t" then .truth true
        else .symbol atom

end SmallLisp.Source
