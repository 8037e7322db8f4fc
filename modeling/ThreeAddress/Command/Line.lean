import ThreeAddress.Command.Value

/-!
# Command lines

A command line is a list of words.  Options may stand anywhere among the others: `--name value`,
`--name=value`, or a dash and single letters.  A switch takes no word after it.  Letters from
`test.` on are passed over, since they are meant for a test runner.  After `--` nothing is an option
any more.
-/

namespace ThreeAddress

/-- An option that a command knows. -/
structure OptionSpec where
  name : Text
  kind : OptionKind
  /-- What the option is for. -/
  purpose : Text := []
  letter : Option Char := none
deriving Repr

/-- Why a command line cannot be read. -/
inductive LineError where
  | malformed (word : Text)
  | unknown (name : Text)
  | unknownLetter (letter : UInt8) (letters : Text)
  | noValue (word : Text)
  | noValueOfLetter (letter : UInt8) (letters : Text)
  | badValue (option : OptionSpec) (value : Text) (error : ValueError)
deriving Repr

namespace LineError

/-- The names of an option. -/
def names (o : OptionSpec) : Text :=
  let letter : Text := match o.letter with
    | some c => "-" ++ [Text.byte c] ++ ", "
    | none => []
  letter ++ "--" ++ o.name

/-- The code of the character that a message shows for a letter: the letter itself, or outside of
ASCII the first byte of its character. -/
def shownCode (letter : UInt8) : Nat := ((Text.ofCode letter.toNat).headD letter).toNat

/-- The wording of an error. -/
def message : LineError → Text
  | malformed word => "bad flag syntax: " ++ word
  | unknown name => "unknown flag: --" ++ name
  | unknownLetter letter letters =>
    "unknown shorthand flag: " ++ Text.quotedCode (shownCode letter) ++ " in -" ++ letters
  | noValue word => "flag needs an argument: " ++ word
  | noValueOfLetter letter letters =>
    "flag needs an argument: " ++ Text.quotedCode (shownCode letter) ++ " in -" ++ letters
  | badValue option value error =>
    "invalid argument " ++ value.quoted ++ " for " ++ (names option).quoted ++ " flag: " ++
      error.message

end LineError

/-- A command line that was read: the options that were given, the last first, and the other
words. -/
structure CommandLine where
  options : List (Text × OptionValue) := []
  words : List Text := []
deriving Repr

namespace CommandLine

/-- Whether an option was given. -/
def isGiven (l : CommandLine) (name : Text) : Bool := (l.options.lookup name).isSome

/-- The text of an option, if it was given. -/
def text? (l : CommandLine) (name : Text) : Option Text :=
  match l.options.lookup name with
  | some (.text t) => some t
  | _ => none

/-- The text of an option, empty if it was not given. -/
def text (l : CommandLine) (name : Text) : Text := (l.text? name).getD []

/-- Whether a switch is on. -/
def switch (l : CommandLine) (name : Text) : Bool := l.options.lookup name == some (.switch true)

/-- The number of an option, if it was given. -/
def integer? (l : CommandLine) (name : Text) : Option Int :=
  match l.options.lookup name with
  | some (.integer n) => some n
  | _ => none

/-- Sets an option. -/
def set (l : CommandLine) (o : OptionSpec) (value : Text) : Except LineError CommandLine :=
  match o.kind.read value with
  | .ok v => .ok { l with options := (o.name, v) :: l.options }
  | .error e => .error (.badValue o value e)

/-- Adds a word that is no option. -/
def addWord (l : CommandLine) (word : Text) : CommandLine := { l with words := l.words ++ [word] }

/-- What a switch without a value is set to. -/
def on : Text := "true"

/-- A word at an equals sign: what is before it, and what is after it if there is one. -/
def splitEquals (t : Text) : Text × Option Text :=
  match t.dropWhile (· != Text.byte '=') with
  | [] => (t, none)
  | _ :: value => (t.takeWhile (· != Text.byte '='), some value)

/-- Reads an option by its name.  The second result tells whether it took the next word. -/
def readLong (specs : List OptionSpec) (l : CommandLine) (word : Text) (next? : Option Text) :
    Except LineError (CommandLine × Bool) :=
  let body := word.drop 2
  if body.head? == some (Text.byte '-') || body.head? == some (Text.byte '=') then
    .error (.malformed word)
  else
    let (name, value?) := splitEquals body
    match specs.find? (·.name == name), value?, next? with
    | none, _, _ => .error (.unknown name)
    | some o, some value, _ => return (← l.set o value, false)
    | some o, none, next? =>
      if o.kind = .switch then return (← l.set o on, false)
      else match next? with
        | some value => return (← l.set o value, true)
        | none => .error (.noValue word)

/-- The front of letters that are meant for a test runner. -/
def testMark : Text := "test."

/-- Reads options by their letters.  The second result tells whether the last of them took the next
word. -/
def readLetters (specs : List OptionSpec) (l : CommandLine) (next? : Option Text) :
    Text → Except LineError (CommandLine × Bool)
  | [] => .ok (l, false)
  | c :: rest =>
    if testMark.isPrefixOf (c :: rest) then .ok (l, false)
    else match specs.find? (fun o => (o.letter.map Text.byte) == some c) with
    | none => .error (.unknownLetter c (c :: rest))
    | some o =>
      match rest with
      | 61 :: v :: value => return (← l.set o (v :: value), false)
      | rest =>
        if o.kind = .switch then do readLetters specs (← l.set o on) next? rest
        else if !rest.isEmpty then return (← l.set o rest, false)
        else match next? with
          | some value => return (← l.set o value, true)
          | none => .error (.noValueOfLetter c (c :: rest))

/-- Reads words into a command line. -/
def readFrom (specs : List OptionSpec) (l : CommandLine) : List Text → Except LineError CommandLine
  | [] => .ok l
  | word :: rest =>
    match word with
    | [45, 45] => .ok (rest.foldl addWord l)
    | 45 :: c :: letters => do
      let (l, took) ←
        if c = 45 then readLong specs l word rest.head?
        else readLetters specs l rest.head? (c :: letters)
      match took, rest with
      | true, _ :: rest => readFrom specs l rest
      | _, rest => readFrom specs l rest
    | word => readFrom specs (l.addWord word) rest

/-- Reads the words of a command line. -/
def read (specs : List OptionSpec) (words : List Text) : Except LineError CommandLine :=
  readFrom specs {} words

end CommandLine

end ThreeAddress
