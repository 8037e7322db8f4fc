import ThreeAddress.Command.Build
import ThreeAddress.Command.Complete

/-!
# Performing command lines

A command line is read, its command is found and performed, and the session is brought to its end.
-/

namespace ThreeAddress

namespace Action

variable {m : Type → Type} [Monad m] (host : CommandHost m)

/-! ### Versions -/

/-- The motto of the program. -/
def tagline : Text := "three addresses, no waiting"

/-- What is known, or that nothing is. -/
def orUnknown (t : Text) : Text := if t.isEmpty then "unknown" else t

/-- The `version` command. -/
def showVersion (l : CommandLine) : Action m Unit := do
  let b := host.build.normalize
  let format := (l.text? "format").getD "pretty"
  let wants (name : Text) : Bool := l.switch name || l.switch "full"
  let details : List (Text × Text × Text) :=
    [("hash", "commit: ", b.commit), ("message", "message: ", b.message),
      ("date", "built:  ", b.date)]
  let wanted := details.filter (wants ·.1)
  if format.lower == "json" then
    let known (name value : Text) : Text := if wants name then orUnknown value else []
    let shown : BuildInfo :=
      { b with
        commit := known "hash" b.commit
        message := known "message" b.message
        date := known "date" b.date }
    print (Json.record [
      [("tool", .string programName), ("tagline", .string tagline)], shown.fields]).document
  else if format.lower == "pretty" then
    let color ← ofExcept (Choice.read "color" (l.text "color"))
    let shown := b.coloured (color.decide host.outIsTerminal)
    print (programName ++ " " ++ shown ++ ": " ++ tagline ++ "\n")
    if wanted.isEmpty then
      print "set --hash, --message, --date, or --full for more build trivia\n"
    else print (wanted.flatMap fun (_, label, value) => label ++ orUnknown value ++ "\n")
  else throw (.unknownVersionFormat format)

/-! ### Command lines -/

/-- Performs a command with the words that it takes. -/
def perform (c : Command) (l : CommandLine) : Action m Unit :=
  let path := l.words.headD []
  match c with
  | .tokenize => tokenizeFile host l path
  | .parse => parseFile host l path
  | .ir => inspectStage host l path .tac (codeShown host)
  | .cfg => inspectStage host l path .cfg fun p => graphShown host p (l.switch "dot")
  | .regalloc =>
    inspectStage host l path .regalloc fun p =>
      allocationShown host p (l.switch "steps") (l.switch "step")
  | .cpu => inspectStage host l path .cpu (machineShown host)
  | .run => runFile host l path
  | .build => buildPath host l path
  | .examples => buildSample host l l.words.head?
  | .version => showVersion host l

/-- Shows a shell how a command line can go on. -/
def showProposals (words : List Text) (described : Bool) : Action m Unit := do
  if words.isEmpty then throw .nothingToComplete
  let p := Proposals.of words
  print (p.shown described)
  printError p.remarks

/-- Performs what the words after its name ask of a target. -/
def performTarget (target : Target) (words : List Text) : Action m Unit := do
  let l ← ofExcept ((CommandLine.read target.options words).mapError .line)
  if l.switch "help" then print Target.usage
  else match target with
    | .program =>
      if l.switch "version" then
        print (programName ++ " version " ++ host.build.normalize.version ++ "\n")
      else print Target.usage
    | .command c =>
      let expected := Command.words c
      if !expected.admits l.words.length then throw (.wordCount expected l.words.length)
      startTrace host l
      startProfiles host l
      perform host c l
    | .completion (some shell) =>
      match l.words with
      | word :: _ => throw (.unknownPart word (programName ++ " completion " ++ shell))
      | [] =>
        startTrace host l
        startProfiles host l
        print Target.usage
    | _ => print Target.usage

/-- Performs a command line. -/
def performLine (words : List Text) : Action m Unit := do
  match Target.find words with
  | .error word => throw (.unknownCommand word)
  | .ok (.request described, rest) => showProposals rest described
  | .ok (target, rest) => performTarget host target rest

end Action

/-- Performs a command line from beginning to end. -/
def performCommand {m : Type → Type} [Monad m] (host : CommandHost m) (words : List Text) :
    m CommandOutcome := do
  let (result, session) ← StateT.run (ExceptT.run (Action.performLine host words)) {}
  session.finish host result

end ThreeAddress
