import ThreeAddress.Command.Target

/-!
# Completing command lines

A shell asks for proposals by the words of a command line, of which the last is only begun.
Proposed are the commands or the options that go on with the begun word.  A word that is the value
of an option gets no proposals, and the shell may complete it as a file name.
-/

namespace ThreeAddress

/-- What a shell is proposed. -/
structure Proposals where
  /-- The words, each with what it is for. -/
  items : List (Text × Text) := []
  /-- Whether names of files come into question too. -/
  files : Bool := false
  problem : Option Text := none
deriving DecidableEq, Repr

namespace Proposals

/-- Sorts by the given text. -/
def sortedBy {α : Type} (key : α → Text) (l : List α) : List α :=
  l.mergeSort fun a b => decide (key a ≤ key b)

/-- No proposals. -/
def nothing : Proposals := {}

/-- No proposals because of a problem. -/
def stopped (problem : Text) : Proposals := { files := true, problem := some problem }

/-- Words as a problem shows them. -/
def shownWords (words : List Text) : Text := "[" ++ Text.join " " words ++ "]"

/-- The words that can come right after a target, with what they are for. -/
def subcommands : Target → List (Text × Text)
  | .program =>
    let others : List (Text × Text) :=
      [(Target.completionName, "Generate the autocompletion script for the specified shell"),
        (Target.helpName, "Help about any command")]
    sortedBy Prod.fst (Command.all.map (fun c => (c.name, c.summary)) ++ others)
  | .completion none =>
    Target.shells.map fun s => (s, "Generate the autocompletion script for " ++ s)
  | _ => []

/-- The proposals among some that go on with a word. -/
def goingOn (typed : Text) (items : List (Text × Text)) : List (Text × Text) :=
  items.filter fun i => typed.isPrefixOf i.1

/-- How an option can be written, with what it is for. -/
def spellings (o : OptionSpec) : List (Text × Text) :=
  ("--" ++ o.name, o.purpose) ::
    (o.letter.map fun c => (("-" ++ [Text.byte c] : Text), o.purpose)).toList

/-- The options of a target that were not given yet and go on with a word.  Those that every command
knows come first, except where a target has one of the same name. -/
def optionItems (t : Target) (given : CommandLine) (typed : Text) : List (Text × Text) :=
  let others := Command.shared.filter fun o => !t.own.any (·.name == o.name)
  let groups := match t with
    | .program => [t.options]
    | _ => [others, t.own]
  let options := groups.flatMap (sortedBy OptionSpec.name)
  goingOn typed ((options.filter fun o => !given.isGiven o.name).flatMap spellings)

/-! ### Values of options -/

/-- The option of a name or of a single letter. -/
def optionOf? (t : Target) (name : Text) : Option OptionSpec :=
  match name with
  | [c] => t.options.find? fun o => (o.letter.map Text.byte) == some c
  | name => t.options.find? (·.name == name)

/-- A begun word: the option whose value it is, the words before it without that option, and the
part to complete.  An unknown option is told by its name. -/
structure Begun where
  option : Option OptionSpec := none
  words : List Text
  typed : Text
  unknown : Option Text := none

namespace Begun

/-- The name of the option that a word ends in: all after two dashes, or else the last letter. -/
def optionName (word : Text) : Text :=
  match word with
  | 45 :: 45 :: name => name
  | word => word.drop (word.length - 1)

/-- A begun word that follows an option in a word of its own.  A switch has no value. -/
def afterOption (t : Target) (words : List Text) (whole typed : Text) (joined : Bool) : Begun :=
  match words.getLast? with
  | some (45 :: b :: rest) =>
    let word := 45 :: b :: rest
    if word == "--" || word.contains (Text.byte '=') then { words, typed }
    else match optionOf? t (optionName word) with
      | none => { words, typed := whole, unknown := some (optionName word) }
      | some o =>
        if !joined && o.kind = .switch then { words, typed }
        else { option := some o, words := words.dropLast, typed }
  | _ => { words, typed }

/-- What a begun word completes. -/
def of (t : Target) (words : List Text) (typed : Text) : Begun :=
  if typed.head? != some (Text.byte '-') then afterOption t words typed typed false
  else match CommandLine.splitEquals typed with
    | (_, none) => { words, typed }
    | (front, some value) =>
      if (optionName front).isEmpty then afterOption t words typed value true
      else match optionOf? t (optionName front) with
        | none => { words, typed, unknown := some (optionName front) }
        | some o => { option := some o, words, typed := value }

end Begun

/-! ### Proposals -/

/-- The proposals that a target makes for the words after it, if it makes any. -/
def ownItems? (t : Target) (given : CommandLine) (typed : Text) : Option Proposals :=
  match t with
  | .help =>
    match Target.find given.words with
    | .error _ => some nothing
    | .ok (topic, _) => some { items := goingOn typed (subcommands topic) }
  | .completion _ => some nothing
  | _ => none

/-- The names of commands that go on with a word, if it can be one of them. -/
def commandItems (t : Target) (given : CommandLine) (typed : Text) : Proposals :=
  let items := subcommands t
  if given.words.isEmpty && !items.isEmpty then { items := goingOn typed items }
  else { files := true }

/-- The proposals for a word that is no option. -/
def wordItems (t : Target) (given : CommandLine) (typed : Text) : Proposals :=
  let p := commandItems t given typed
  match ownItems? t given typed with
  | none => p
  | some q => { q with items := p.items ++ q.items }

/-- The proposals for a word that is begun after the words of a target. -/
def forTarget (t : Target) (words : List Text) (typed : Text) : Proposals :=
  let begun := Begun.of t words typed
  let isDash := begun.typed.head? == some (Text.byte '-') && !begun.typed.contains (Text.byte '=')
  match CommandLine.read t.options begun.words with
  | .error e =>
    stopped ("Error while parsing flags from args " ++ shownWords begun.words ++ ": " ++ e.message)
  | .ok given =>
    let stillOptions :=
      match CommandLine.read t.options (begun.words ++ [Text.ofString "--"]) with
      | .ok marked => marked.words.length == given.words.length
      | .error _ => true
    match stillOptions, begun.unknown with
    | true, some name =>
      stopped ("Subcommand '" ++ t.name ++ "' does not support flag '" ++ name ++ "'")
    | _, _ =>
      if given.isGiven "help" || given.isGiven "version" then nothing
      else match stillOptions, begun.option with
        | true, some _ => { files := true }
        | false, some _ => (ownItems? t given begun.typed).getD { files := true }
        | true, none =>
          if isDash then { items := optionItems t given begun.typed }
          else wordItems t given begun.typed
        | false, none => wordItems t given begun.typed

/-- The proposals for a request, whose words are not read as options. -/
def forRequest (t : Target) (typed : Text) : Proposals :=
  if typed.head? == some (Text.byte '-') && !typed.contains (Text.byte '=') then
    { items := optionItems t {} typed }
  else { files := true }

/-- The proposals for a command line whose last word is begun. -/
def of (words : List Text) : Proposals :=
  let typed := words.getLastD []
  match Target.find words.dropLast with
  | .error _ =>
    stopped ("unable to find a command for arguments: " ++ shownWords words.dropLast)
  | .ok (.request described, _) => forRequest (.request described) typed
  | .ok (t, rest) => forTarget t rest typed

/-! ### Output -/

/-- The lines for the shell: the proposals, then a number that is zero if files come into
question. -/
def shown (p : Proposals) (described : Bool) : Text :=
  let item (i : Text × Text) : Text := if described then i.1 ++ [9] ++ i.2 else i.1
  let ending : Text := if p.files then ":0" else ":4"
  Text.lines (p.items.map item ++ [ending])

/-- The lines for a person who looks on. -/
def remarks (p : Proposals) : Text :=
  let problem (t : Text) : Text := "[Debug] [Error] " ++ t
  let ending : Text :=
    "Completion ended with directive: ShellCompDirective" ++
      (if p.files then "Default" else "NoFileComp" : String)
  Text.lines ((p.problem.map problem).toList ++ [ending])

end Proposals

end ThreeAddress
