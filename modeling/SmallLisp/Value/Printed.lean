import SmallLisp.Decimal.Text
import SmallLisp.Host
import SmallLisp.Text.Quoted
import SmallLisp.Value.Basic

/-!
# `SmallLisp.Value.Printed`: values in writing

`render` writes a value as program text: what it writes for a number, a text, a truth value, a
symbol or a list of these is read as that value. `inspect` writes a value for a diagnostic, where
texts are quoted and symbols marked. Both go no deeper into nested lists than a given limit.
-/

namespace SmallLisp

namespace Value

/-- An integer as program text. Only integers that are near a finite double are written. -/
def renderInt (n : Int) : Except HostFault Text :=
  if (Decimal.ofInt? n).isSome then .ok (toString n) else .error .integerTooLarge

/-- An integer as a diagnostic shows it. The host writes out only so many digits. -/
def inspectInt (n : Int) : Except HostFault Text :=
  if n.natAbs < Nat.pow 10 maxIntegerDigits then .ok (toString n) else .error .integerTooLong

/-- The program text of a value. -/
def render : Nat → Value → Except HostFault Text
  | 0, _ => .error .tooDeep
  | depth + 1, v =>
    match v with
    | .number x => .ok (Decimal.programText x)
    | .text s => .ok ("\"" ++ s ++ "\"")
    | .truth b => .ok (if b then "t" else "nil")
    | .symbol name => .ok name
    | .list items => do
      let parts ← items.mapM (render depth)
      return "(" ++ Text.intercalate " " parts ++ ")"
    | .primitive p => .ok ("#<NATIVE-FUNCTION " ++ p.name ++ ">")
    | .special form => .ok ("#<SPECIAL-FORM " ++ form.name ++ ">")
    | .closure formals body _ _ _ => do
      let formals ← render depth (.list formals)
      let body ← render depth (.list body)
      return "#<FUNCTION " ++ formals ++ " " ++ body ++ ">"
    | .embedded (.int n) => renderInt n
    | .embedded (.bool b) => .ok (if b then "t" else "nil")
    | .embedded .nothing => .ok "None"

/-- A value as a diagnostic shows it. -/
def inspect : Nat → Value → Except HostFault Text
  | 0, _ => .error .tooDeep
  | depth + 1, v =>
    match v with
    | .number x => .ok (Decimal.diagnosticText x)
    | .text s => .ok (Text.quoted s)
    | .symbol name => .ok ("Symbol(" ++ Text.quoted name ++ ")")
    | .list items => do
      let parts ← items.mapM (inspect depth)
      return "[" ++ Text.intercalate ", " parts ++ "]"
    | .embedded (.int n) => inspectInt n
    | .embedded (.bool b) => .ok (if b then "True" else "False")
    | .truth _ | .primitive _ | .special _ | .closure .. | .embedded .nothing =>
      render (depth + 1) v

/-- The name that a diagnostic gives to what was looked up: a symbol's or a text's characters. -/
def label (depth : Nat) : Value → Except HostFault Text
  | .symbol name => .ok name
  | .text s => .ok s
  | v => inspect depth v

end Value

end SmallLisp
