import SmallLisp.Decimal.Numeral
import SmallLisp.Host
import SmallLisp.Json.Basic

/-!
# `SmallLisp.Json.Reader`: JSON text as data

`Json.read` reads a document: one value, with nothing but white space around it. Besides the
standard forms it knows `NaN` and the infinities by name. A fault names the place where the text
stops being a document, counted in code points.

Arrays and objects are read by loops that are given a reader for what they hold. Each turn of a loop
takes a code point at least, so the length of the text bounds the turns.
-/

namespace SmallLisp.Json

/-- What is wrong at a place of a text. -/
inductive Defect
  | expectedValue
  | expectedName
  | expectedColon
  | expectedComma
  | extraData
  | unterminated
  | controlCharacter
  | badEscape
  | badUnicodeEscape
  | byteOrderMark
  deriving DecidableEq, Repr

/-- Why a text is not read. -/
inductive ReadFault
  | malformed (defect : Defect) (place : Nat)
  | integerTooLong (digits : Nat)
  | tooDeep
  deriving DecidableEq, Repr

/-- The defect in words. -/
def Defect.text : Defect → String
  | .expectedValue => "Expecting value"
  | .expectedName => "Expecting property name enclosed in double quotes"
  | .expectedColon => "Expecting ':' delimiter"
  | .expectedComma => "Expecting ',' delimiter"
  | .extraData => "Extra data"
  | .unterminated => "Unterminated string starting at"
  | .controlCharacter => "Invalid control character at"
  | .badEscape => "Invalid \\escape"
  | .badUnicodeEscape => "Invalid \\uXXXX escape"
  | .byteOrderMark => "Unexpected UTF-8 BOM (decode using utf-8-sig)"

/-- The defect at a place in words, with the place as line, column and count of characters. -/
def Defect.message (defect : Defect) (text : Text) (place : Nat) : String :=
  let before := text.toList.take place
  let line := before.count (.char '\n') + 1
  let column := (before.reverse.takeWhile (· ≠ .char '\n')).length + 1
  s!"{defect.text}: line {line} column {column} (char {place})"

/-- A place in a text: the code points before it, counted, and those after it. -/
structure Cursor where
  place : Nat
  rest : List CodePoint

/-- Reads a value at a cursor, and has the cursor after it. -/
abbrev ValueReader := Cursor → Except ReadFault (Json × Cursor)

/-- The fault of a text that is defective at a place. -/
def fail {α : Type} (defect : Defect) (place : Nat) : Except ReadFault α :=
  .error (.malformed defect place)

/-! ## White space -/

/-- Is the code point white space between the parts of a document? -/
def isSpace (c : CodePoint) : Bool :=
  c == .char ' ' || c == .char '\t' || c == .char '\n' || c == .char '\r'

/-- The cursor after white space. -/
def Cursor.skip (cursor : Cursor) : Cursor :=
  ⟨cursor.place + (cursor.rest.takeWhile isSpace).length, cursor.rest.dropWhile isSpace⟩

/-! ## Strings -/

/-- The character of a two-character escape. -/
def unescapeLetter? (letter : Char) : Option Char :=
  match letter with
  | '"' => some '"'
  | '\\' => some '\\'
  | '/' => some '/'
  | 'b' => some '\x08'
  | 'f' => some '\x0c'
  | 'n' => some '\n'
  | 'r' => some '\r'
  | 't' => some '\t'
  | _ => none

/-- The value of a hexadecimal digit of either case. -/
def hexDigit? (c : Char) : Option Nat :=
  if '0' ≤ c ∧ c ≤ '9' then some (c.toNat - '0'.toNat)
  else if 'a' ≤ c ∧ c ≤ 'f' then some (c.toNat - 'a'.toNat + 10)
  else if 'A' ≤ c ∧ c ≤ 'F' then some (c.toNat - 'A'.toNat + 10)
  else none

/-- The 16-bit unit that four hexadecimal digits spell. -/
def unit? (a b c d : CodePoint) : Option Nat := do
  let a ← a.char?.bind hexDigit?
  let b ← b.char?.bind hexDigit?
  let c ← c.char?.bind hexDigit?
  let d ← d.char?.bind hexDigit?
  return ((16 * a + b) * 16 + c) * 16 + d

/-- Is the unit the first of a pair of surrogates? -/
def isHighSurrogate (unit : Nat) : Bool := 0xD800 ≤ unit && unit < 0xDC00

/-- Is the unit the second of a pair of surrogates? -/
def isLowSurrogate (unit : Nat) : Bool := 0xDC00 ≤ unit && unit < 0xE000

/-- The character that a pair of surrogates stands for. -/
def joinSurrogates (high low : Nat) : Char :=
  Char.ofNat (0x10000 + (high - 0xD800) * 0x400 + (low - 0xDC00))

/-- What a string is made of: code points that stand for themselves, and escaped 16-bit units. -/
inductive Piece
  | point (c : CodePoint)
  | unit (code : Nat)
  deriving DecidableEq, Repr

/-- The code points of pieces, where two units that are a pair of surrogates are one character. -/
def points : List Piece → List CodePoint
  | [] => []
  | .unit high :: .unit low :: rest =>
    if isHighSurrogate high && isLowSurrogate low then joinSurrogates high low :: points rest
    else .ofNat high :: points (.unit low :: rest)
  | .unit code :: rest => .ofNat code :: points rest
  | .point c :: rest => c :: points rest

/-- Reads the rest of a string whose opening quote is at `opening`; `pieces` are those before, in
reverse. The text has to go on after a Unicode escape. -/
def readString (opening : Nat) (pieces : List Piece) (place : Nat) :
    List CodePoint → Except ReadFault (Text × Cursor)
  | [] => fail .unterminated opening
  | .char '"' :: rest => .ok (.ofList (points pieces.reverse), ⟨place + 1, rest⟩)
  | .char '\\' :: .char 'u' :: a :: b :: c :: d :: rest =>
    match unit? a b c d with
    | some unit =>
      if rest.isEmpty then fail .badUnicodeEscape (place + 1)
      else readString opening (.unit unit :: pieces) (place + 6) rest
    | none => fail .badUnicodeEscape (place + 1)
  | .char '\\' :: letter :: rest =>
    if letter = 'u' then fail .badUnicodeEscape (place + 1)
    else
      match letter.char?.bind unescapeLetter? with
      | some c => readString opening (.point c :: pieces) (place + 2) rest
      | none => fail .badEscape place
  | [.char '\\'] => fail .unterminated opening
  | c :: rest =>
    if c.toNat < 0x20 then fail .controlCharacter place
    else readString opening (.point c :: pieces) (place + 1) rest

/-! ## Numbers and names -/

/-- Is the code point an ASCII digit? -/
def isDigit (c : CodePoint) : Bool := c.char?.any Char.isDigit

/-- The ASCII digits at the front of a text, and what follows them. -/
def splitDigits : List CodePoint → List Nat × List CodePoint
  | [] => ([], [])
  | c :: rest =>
    if isDigit c then
      let (digits, after) := splitDigits rest
      ((c.toNat - '0'.toNat) :: digits, after)
    else ([], c :: rest)

/-- The digits before the point: a zero alone, or digits that do not begin with one. -/
def splitWhole? : List CodePoint → Option (List Nat × List CodePoint)
  | .char '0' :: rest => some ([0], rest)
  | rest =>
    match splitDigits rest with
    | ([], _) => none
    | split => some split

/-- The digits after a point; none if no digit follows a point. -/
def splitFraction : List CodePoint → List Nat × List CodePoint
  | .char '.' :: rest =>
    match splitDigits rest with
    | ([], _) => ([], '.' :: rest)
    | split => split
  | rest => ([], rest)

/-- The sign at the front of a text, true for a minus, and what follows it. -/
def splitSign : List CodePoint → Bool × List CodePoint
  | .char '-' :: rest => (true, rest)
  | .char '+' :: rest => (false, rest)
  | rest => (false, rest)

/-- The exponent; none if there is none or it has no digit. -/
def splitExponent (s : List CodePoint) : Option Int × List CodePoint :=
  match s with
  | [] => (none, [])
  | c :: rest =>
    if c = 'e' ∨ c = 'E' then
      let (negative, after) := splitSign rest
      match splitDigits after with
      | ([], _) => (none, s)
      | (digits, after) =>
        (some (Decimal.Numeral.signed negative (Text.natOfDigits digits)), after)
    else (none, s)

/-- Reads the longest number at the front of a text: an integer if it has neither a fraction nor an
exponent. -/
def readNumber : ValueReader := fun cursor =>
  let (negative, body) := match cursor.rest with
    | .char '-' :: rest => (true, rest)
    | rest => (false, rest)
  match splitWhole? body with
  | none => fail .expectedValue cursor.place
  | some (whole, rest) =>
    let (fraction, rest) := splitFraction rest
    let (exponent, rest) := splitExponent rest
    let after : Cursor := ⟨cursor.place + (cursor.rest.length - rest.length), rest⟩
    if fraction = [] ∧ exponent = none then
      if maxIntegerDigits < whole.length then .error (.integerTooLong whole.length)
      else .ok (.int (Decimal.Numeral.signed negative (Text.natOfDigits whole)), after)
    else
      let numeral : Decimal.Numeral :=
        ⟨negative, whole ++ fraction, exponent.getD 0 - fraction.length⟩
      .ok (.double numeral.toFloat, after)

/-- The values that are written as names. -/
def names : List (Text × Json) :=
  [("null", .null), ("true", .bool true), ("false", .bool false), ("NaN", .double (0.0 / 0.0)),
    ("Infinity", .double (Decimal.infinite false)),
    ("-Infinity", .double (Decimal.infinite true))]

/-- Reads a name. -/
def readName? (cursor : Cursor) : Option (Json × Cursor) :=
  names.findSome? fun (name, value) =>
    (List.isPrefixOf? name.toList cursor.rest).map fun rest =>
      (value, ⟨cursor.place + name.toList.length, rest⟩)

/-! ## Arrays, objects, documents -/

/-- Reads the items of an array from the first one on; `items` are those before, in reverse. -/
def readItems (readItem : ValueReader) (items : List Json) : Nat → ValueReader
  | 0, cursor => fail .expectedValue cursor.place
  | turns + 1, cursor => do
    let (item, cursor) ← readItem cursor
    let cursor := cursor.skip
    match cursor.rest with
    | .char ']' :: rest => .ok (.array (item :: items).reverse, ⟨cursor.place + 1, rest⟩)
    | .char ',' :: rest =>
      readItems readItem (item :: items) turns (Cursor.mk (cursor.place + 1) rest).skip
    | _ => fail .expectedComma cursor.place

/-- Reads the members of an object from the first name on; `members` are those before. -/
def readMembers (readItem : ValueReader) (members : List (Text × Json)) : Nat → ValueReader
  | 0, cursor => fail .expectedName cursor.place
  | turns + 1, cursor =>
    match cursor.rest with
    | .char '"' :: rest => do
      let (key, cursor) ← readString cursor.place [] (cursor.place + 1) rest
      let cursor := cursor.skip
      match cursor.rest with
      | .char ':' :: rest =>
        let (value, cursor) ← readItem (Cursor.mk (cursor.place + 1) rest).skip
        let members := Table.put key value members
        let cursor := cursor.skip
        match cursor.rest with
        | .char '\x7d' :: rest => .ok (.object members, ⟨cursor.place + 1, rest⟩)
        | .char ',' :: rest => readMembers readItem members turns (Cursor.mk (cursor.place + 1) rest).skip
        | _ => fail .expectedComma cursor.place
      | _ => fail .expectedColon cursor.place
    | _ => fail .expectedName cursor.place

/-- Reads a value in which arrays and objects are nested at most `depth` deep. -/
def readValue (depth : Nat) : ValueReader := fun cursor =>
    match cursor.rest with
    | .char '"' :: rest => do
      let (s, cursor) ← readString cursor.place [] (cursor.place + 1) rest
      return (.string s, cursor)
    | .char '[' :: rest =>
      match depth with
      | 0 => .error .tooDeep
      | depth + 1 =>
        let cursor := (Cursor.mk (cursor.place + 1) rest).skip
        match cursor.rest with
        | .char ']' :: rest => .ok (.array [], ⟨cursor.place + 1, rest⟩)
        | _ => readItems (readValue depth) [] (cursor.rest.length + 1) cursor
    | .char '\x7b' :: rest =>
      match depth with
      | 0 => .error .tooDeep
      | depth + 1 =>
        let cursor := (Cursor.mk (cursor.place + 1) rest).skip
        match cursor.rest with
        | .char '\x7d' :: rest => .ok (.object [], ⟨cursor.place + 1, rest⟩)
        | _ => readMembers (readValue depth) [] (cursor.rest.length + 1) cursor
    | _ =>
      match readName? cursor with
      | some reading => .ok reading
      | none => readNumber cursor

/-- Reads a document. -/
def read (depth : Nat) (text : Text) : Except ReadFault Json :=
  if text.toList.head? = some (.char '\uFEFF') then fail .byteOrderMark 0
  else do
    let (value, cursor) ← readValue depth (Cursor.mk 0 text.toList).skip
    let cursor := cursor.skip
    if cursor.rest.isEmpty then .ok value else fail .extraData cursor.place

end SmallLisp.Json
