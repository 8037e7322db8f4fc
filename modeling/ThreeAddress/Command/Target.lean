import ThreeAddress.Command.Name
import ThreeAddress.Text.Case
import ThreeAddress.Text.Distance

/-!
# What a command line asks for

A command line asks for the command that its first word names, where options and their values do not
count as words.  Besides the commands there are words for how to use the program, and for shells
that complete command lines.
-/

namespace ThreeAddress

/-- What a command line asks for: the program itself, one of its commands, how to use it, a script
that completes command lines in a shell, or proposals for such a script. -/
inductive Target where
  | program
  | command (c : Command)
  | help
  | completion (shell : Option Text)
  | request (described : Bool)
deriving DecidableEq, Repr

namespace Target

/-- The name of a target. -/
def name : Target → Text
  | program => programName
  | command c => c.name
  | help => "help"
  | completion none => "completion"
  | completion (some shell) => shell
  | request _ => "__complete"

/-- The switch that asks for help. -/
def helpOption (t : Target) : OptionSpec :=
  { name := "help", kind := .switch, purpose := "help for " ++ t.name, letter := some 'h' }

/-- The switch that asks for the version of the program. -/
def versionOption : OptionSpec :=
  { name := "version", kind := .switch, purpose := "version for " ++ programName
    letter := some 'v' }

/-- The options that only this target knows. -/
def own (t : Target) : List OptionSpec :=
  match t with
  | program => [t.helpOption, versionOption]
  | command c => t.helpOption :: c.own
  | completion (some _) =>
    [t.helpOption, Command.switchOption "no-descriptions" "disable completion descriptions"]
  | _ => [t.helpOption]

/-- The options that can be given.  An option of the target's own comes before a shared one of the
same name. -/
def options (t : Target) : List OptionSpec := t.own ++ Command.shared

/-! ### Finding the target -/

/-- What a word in front of the command is. -/
inductive Role where
  | stop
  | optionWithValue
  | option
  | word
deriving DecidableEq, Repr

/-- The role of a word.  An option that is not a known switch and has no value of its own takes the
next word, whatever it is. -/
def role (t : Text) : Role :=
  let bare := !t.contains (Text.byte '=')
  match t with
  | [45, 45] => .stop
  | 45 :: 45 :: name =>
    let isSwitch := Command.shared.any fun o => o.name == name && o.kind == .switch
    if bare && !isSwitch then .optionWithValue else .option
  | [45, _] => if bare then .optionWithValue else .option
  | 45 :: _ :: _ => .option
  | _ => .word

/-- The words that are neither options nor their values.  An option that would take the last word
ends them. -/
def plainWords : List Text → List Text
  | [] => []
  | t :: rest =>
    match role t with
    | .stop => []
    | .option => plainWords rest
    | .word => if t.isEmpty then plainWords rest else t :: plainWords rest
    | .optionWithValue =>
      match rest with
      | _ :: next :: more => plainWords (next :: more)
      | _ => []

/-- The words without the first plain one that is `name`. -/
def without (name : Text) : List Text → List Text
  | [] => []
  | t :: rest =>
    match role t with
    | .stop => t :: rest
    | .option => t :: without name rest
    | .word => if t = name then rest else t :: without name rest
    | .optionWithValue =>
      match rest with
      | value :: more => t :: value :: without name more
      | [] => [t]

/-- The name of the scripts for shells. -/
def completionName : Text := "completion"

/-- The shells that have a script. -/
def shells : List Text := ["bash", "fish", "powershell", "zsh"]

/-- The command that shows how to use the program. -/
def helpName : Text := "help"

/-- The name of a request for proposals. -/
def requestName : Text := "__complete"

/-- The name of a request for proposals without what they are for. -/
def plainRequestName : Text := "__completeNoDesc"

/-- How far a name may be from a command to be taken for a slip. -/
def slip : Nat := 2

/-- The commands that may have been meant. -/
def suggestions (typed : Text) : List Text :=
  (Command.all.map Command.name ++ [completionName]).filter fun c =>
    Text.distance typed.lower c ≤ slip || typed.lower.isPrefixOf c

/-- The script that words ask for, with the other words. -/
def findScript (words : List Text) : Target × List Text :=
  match (plainWords words).head?.filter shells.contains with
  | some shell => (.completion shell, without shell words)
  | none => (.completion none, words)

/-- What words ask for, with the other words; an error is a first word that names no command. -/
def find (words : List Text) : Except Text (Target × List Text) :=
  match plainWords words with
  | [] => .ok (.program, words)
  | first :: _ =>
    let rest := without first words
    match Command.all.find? (·.name == first) with
    | some c => .ok (.command c, rest)
    | none =>
      if first == helpName then .ok (.help, rest)
      else if first == completionName then .ok (findScript rest)
      else if first == requestName then .ok (.request true, rest)
      else if first == plainRequestName then .ok (.request false, rest)
      else .error first

/-- How to use the program. -/
def usage : Text :=
  let line (c : Command) : Text := "  " ++ c.name ++ Text.blanks (10 - c.name.length) ++ c.summary
  Text.lines ([("usage: " ++ programName ++ " <command> [flags] [file]" : Text), []] ++
    Command.all.map line)

end Target

end ThreeAddress
