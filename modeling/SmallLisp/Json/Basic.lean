import SmallLisp.Decimal.Text
import SmallLisp.Table
import SmallLisp.Text.Quoted

/-!
# `SmallLisp.Json.Basic`: JSON data

Integers are kept apart from doubles, and objects keep the order of their members. `Json.inspect`
writes a value for a diagnostic.
-/

namespace SmallLisp

/-- A JSON value. -/
inductive Json
  | null
  | bool (b : Bool)
  | int (n : Int)
  | double (x : Float)
  | string (s : Text)
  | array (items : List Json)
  | object (members : List (Text × Json))

namespace Json

mutual

/-- A value as a diagnostic shows it. -/
def inspect : Json → Text
  | .null => "None"
  | .bool b => if b then "True" else "False"
  | .int n => toString n
  | .double x => Decimal.diagnosticText x
  | .string s => Text.quoted s
  | .array items => "[" ++ Text.intercalate ", " (inspectItems items) ++ "]"
  | .object members => "\x7b" ++ Text.intercalate ", " (inspectMembers members) ++ "\x7d"

/-- The items of an array as a diagnostic shows them. -/
def inspectItems : List Json → List Text
  | [] => []
  | item :: rest => inspect item :: inspectItems rest

/-- The members of an object as a diagnostic shows them. -/
def inspectMembers : List (Text × Json) → List Text
  | [] => []
  | (key, value) :: rest => (Text.quoted key ++ ": " ++ inspect value) :: inspectMembers rest

end

/-- Is the value this string? -/
def isString (s : Text) : Json → Bool
  | .string t => t == s
  | _ => false

/-- A value in words: a string as it is, anything else as a diagnostic shows it. -/
def label : Json → Text
  | .string s => s
  | value => value.inspect

end Json

end SmallLisp
