import SmallLisp.Text.Integer
import SmallLisp.Text.Quoted

/-!
# `SmallLisp.CommandLine.Options`: the words of a command line

Options come in any order. A long option may be cut short as long as only one option begins that
way, and its value is the next word or follows an equals sign; the value of a short option may also
follow at once. A word that looks like an option is never the next word's value: only a lone dash,
a negative number and a word with a space in it may begin with a dash and be one.

All words are looked at first (`Word.ofText`), then the options act from left to right
(`parse`): the request for help or for the version ends the reading, and words that belong to
nothing are refused at the end.
-/

namespace SmallLisp.CommandLine

/-- The options. -/
inductive OptionName
  | help
  | eval
  | serve
  | host
  | port
  | session
  | strictArity
  | logLevel
  | version
  deriving DecidableEq, Repr

namespace OptionName

/-- How an option is spelled. -/
def spellings : OptionName → List Text
  | .help => ["-h", "--help"]
  | .eval => ["-e", "--eval"]
  | .serve => ["--serve"]
  | .host => ["--host"]
  | .port => ["--port"]
  | .session => ["--session"]
  | .strictArity => ["--strict-arity"]
  | .logLevel => ["--log-level"]
  | .version => ["--version"]

/-- All options, in the order in which they are listed. -/
def all : List OptionName :=
  [.help, .eval, .serve, .host, .port, .session, .strictArity, .logLevel, .version]

/-- All spellings with their options. -/
def table : List (Text × OptionName) :=
  all.flatMap fun option => option.spellings.map (·, option)

/-- The option as a fault names it. -/
def label (option : OptionName) : Text := Text.intercalate "/" option.spellings

end OptionName

/-- Why a command line is refused. -/
inductive UsageFault
  | ambiguous (word : Text) (candidates : List Text)
  | valueMissing (option : OptionName)
  | valueIgnored (option : OptionName) (value : Text)
  | badPort (value : Text)
  | unrecognized (words : List Text)
  deriving DecidableEq, Repr

/-- The fault in words. -/
def UsageFault.message : UsageFault → Text
  | .ambiguous word candidates =>
    "ambiguous option: " ++ word ++ " could match " ++ Text.intercalate ", " candidates
  | .valueMissing option => "argument " ++ option.label ++ ": expected one argument"
  | .valueIgnored option value =>
    "argument " ++ option.label ++ ": ignored explicit argument " ++ Text.quoted value
  | .badPort value =>
    "argument " ++ OptionName.port.label ++ ": invalid int value: " ++ Text.quoted value
  | .unrecognized words => "unrecognized arguments: " ++ Text.intercalate " " words

/-! ## Words -/

/-- What a word is; an option may have its value attached to it. -/
inductive Word
  | value
  | option (name : OptionName) (attached : Option Text)
  | unknown
  deriving DecidableEq, Repr

/-- Does a letter after one dash spell the option of a word, and not a name after two? -/
def isShort (text : Text) : Bool := !([.char '-', .char '-'].isPrefixOf text.toList)

/-- A word before and after its first equals sign. -/
def splitEquals (s : Text) : Text × Option Text :=
  match s.toList.dropWhile (· ≠ .char '=') with
  | [] => (s, none)
  | _ :: value => (.ofList (s.toList.takeWhile (· ≠ .char '=')), some (.ofList value))

/-- Is the code point a decimal digit? -/
def isDigit (c : CodePoint) : Bool := c.char?.any Text.isDigit

/-- Is the word, after its dash, a number? A line feed may follow it. -/
def isNumber (s : List CodePoint) : Bool :=
  let s := if s.getLast? = some (.char '\n') then s.dropLast else s
  match s.dropWhile isDigit with
  | [] => !s.isEmpty
  | .char '.' :: fraction => !fraction.isEmpty && fraction.all isDigit
  | _ => false

/-- The options that a word could mean if it is not spelled in full. -/
def candidates (text : Text) : List (Text × Word) :=
  match text.toList with
  | .char '-' :: .char '-' :: _ =>
    let (name, attached) := splitEquals text
    (OptionName.table.filter fun (spelling, _) => name.toList.isPrefixOf spelling.toList).map
      fun (spelling, option) => (spelling, .option option attached)
  | .char '-' :: letter :: value =>
    (OptionName.table.filter fun (spelling, _) => spelling.toList = [.char '-', letter]).map
      fun (spelling, option) => (spelling, .option option (some (.ofList value)))
  | _ => []

/-- What a word of the command line is. -/
def Word.ofText (text : Text) : Except UsageFault Word :=
  match text.toList with
  | .char '-' :: first :: rest =>
    let (spelling, attached) := splitEquals text
    match OptionName.table.lookup text, OptionName.table.lookup spelling with
    | some name, _ => .ok (.option name none)
    | none, some name => .ok (.option name attached)
    | none, none =>
      match candidates text with
      | [(_, word)] => .ok word
      | [] =>
        .ok (if isNumber (first :: rest) || text.toList.contains (.char ' ') then .value else .unknown)
      | several => .error (.ambiguous text (several.map (·.1)))
  | _ => .ok .value

/-! ## Options -/

/-- What the options ask for. -/
structure Options where
  source : Option Text
  serve : Bool
  host : Option Text
  port : Option Int
  session : Bool
  strictArity : Bool
  logLevel : Option Text
  deriving DecidableEq, Repr

/-- No option. -/
def Options.none : Options := ⟨.none, false, .none, .none, false, false, .none⟩

/-- What a command line asks for. -/
inductive Command
  | run (options : Options)
  | help
  | version
  deriving DecidableEq, Repr

/-- Checks the letters after `-h`, all of which have to be short options: more requests for help, or
`e` with its value. That is the rest of the word, or the next word, if that can be a value
(`valueNext`). -/
def checkLetters (valueNext : Bool) : List CodePoint → Except UsageFault Unit
  | [] => .ok ()
  | letter :: rest =>
    if letter = 'h' then checkLetters valueNext rest
    else if letter = 'e' then
      if rest.isEmpty && !valueNext then .error (.valueMissing .eval) else .ok ()
    else .error (.valueIgnored .help (Text.ofList (letter :: rest)))

/-- Checks what is attached to the request for help in a word. The letter `h` may be followed by
other letters, with or without an equals sign between, the name `help` by nothing. -/
def checkHelp (text : Text) (valueNext : Bool) : Option Text → Except UsageFault Unit
  | none => .ok ()
  | some letters =>
    if isShort text ∧ letters ≠ "" then checkLetters valueNext letters.toList
    else .error (.valueIgnored .help letters)

/-- The options with one more that has no value. -/
def Options.switch (options : Options) : OptionName → Options
  | .serve => { options with serve := true }
  | .session => { options with session := true }
  | .strictArity => { options with strictArity := true }
  | _ => options

/-- The options with one more that has a value. -/
def Options.assign (options : Options) (name : OptionName) (value : Text) :
    Except UsageFault Options :=
  match name with
  | .host => .ok { options with host := value }
  | .logLevel => .ok { options with logLevel := value }
  | .port =>
    match Text.integer? value with
    | some port => .ok { options with port }
    | .none => .error (.badPort value)
  | _ => .ok { options with source := value }

/-- Lets the words act from left to right; `strays` are the words before that belong to nothing, in
reverse. -/
def act (options : Options) (strays : List Text) :
    List (Text × Word) → Except UsageFault Command
  | [] => if strays.isEmpty then .ok (.run options) else .error (.unrecognized strays.reverse)
  | (text, .value) :: rest | (text, .unknown) :: rest => act options (text :: strays) rest
  | (text, .option name attached) :: rest =>
    match name with
    | .help =>
      let valueNext := (rest.head?.map (·.2)) == some .value
      (checkHelp text valueNext attached).map fun _ => .help
    | .serve | .session | .strictArity | .version =>
      match attached with
      | some value => .error (.valueIgnored name value)
      | none => if name = .version then .ok .version else act (options.switch name) strays rest
    | .eval | .host | .port | .logLevel =>
      match attached, rest with
      | some value, rest =>
        (options.assign name value).bind (act · strays rest)
      | none, (value, .value) :: rest => (options.assign name value).bind (act · strays rest)
      | none, _ => .error (.valueMissing name)

/-- What the words of a command line ask for. -/
def parse (words : List Text) : Except UsageFault Command := do
  let kinds ← words.mapM Word.ofText
  act .none [] (words.zip kinds)

end SmallLisp.CommandLine
