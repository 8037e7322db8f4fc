import ThreeAddress.Command.Line

/-!
# Commands

The commands of the program, and the options that each of them knows.
-/

namespace ThreeAddress

/-- The name of the program. -/
def programName : Text := "tacc"

/-- A command. -/
inductive Command where
  | tokenize | parse | ir | cfg | regalloc | cpu | run | build | examples | version
deriving DecidableEq, Repr

/-- How many words a command takes. -/
inductive WordCount where
  | exactly (n : Nat)
  | atMost (n : Nat)
  | any
deriving DecidableEq, Repr

/-- Whether so many words are taken. -/
def WordCount.admits : WordCount → Nat → Bool
  | exactly n, k => k == n
  | atMost n, k => k ≤ n
  | any, _ => true

/-- How many words are taken, in words. -/
def WordCount.wording : WordCount → Text
  | exactly n => "accepts " ++ Text.ofNat n ++ " arg(s)"
  | atMost n => "accepts at most " ++ Text.ofNat n ++ " arg(s)"
  | any => "accepts any arg(s)"

namespace Command

/-- All commands. -/
def all : List Command :=
  [tokenize, parse, ir, cfg, regalloc, cpu, run, build, examples, version]

/-- The name of a command. -/
def name : Command → Text
  | tokenize => "tokenize"
  | parse => "parse"
  | ir => "ir"
  | cfg => "cfg"
  | regalloc => "regalloc"
  | cpu => "cpu"
  | run => "run"
  | build => "build"
  | examples => "examples"
  | version => "version"

/-- What a command does. -/
def summary : Command → Text
  | tokenize => "Tokenize a source file"
  | parse => "Parse a source file and print its syntax tree"
  | ir => "Print the symbol table and three-address code"
  | cfg => "Build the control flow graph of a program"
  | regalloc => "Allocate registers by coloring the interference graph"
  | cpu => "Emit code for the abstract CPU"
  | run => "Execute a program with the interpreter"
  | build => "Run the whole pipeline and print every stage"
  | examples => "List the built-in example programs or compile one of them"
  | version => "Show tacc build fingerprints"

/-- How many words a command takes. -/
def words : Command → WordCount
  | examples => .atMost 1
  | version => .any
  | _ => .exactly 1

/-- A text option. -/
def textOption (name purpose : Text) : OptionSpec := { name, kind := .text, purpose }

/-- A switch. -/
def switchOption (name purpose : Text) : OptionSpec := { name, kind := .switch, purpose }

/-- An option that takes an integer. -/
def integerOption (name purpose : Text) : OptionSpec := { name, kind := .integer, purpose }

/-- An option that takes a duration. -/
def durationOption (name purpose : Text) : OptionSpec := { name, kind := .duration, purpose }

/-- The options that every command knows. -/
def shared : List OptionSpec :=
  [textOption "format" "output format (pretty|json)",
    textOption "color" "colorize output (auto|on|off)",
    switchOption "quiet" "suppress non-essential output",
    switchOption "timings" "show timing information",
    integerOption "max-diagnostics" "maximum number of diagnostics to show",
    textOption "trace" "write trace events to file (- for stderr)",
    textOption "trace-level" "trace level (off|error|phase|detail|debug)",
    textOption "trace-mode" "trace storage (stream|ring|both)",
    textOption "trace-format" "trace format (auto|text|ndjson|chrome)",
    integerOption "trace-ring-size" "events kept by the ring tracer",
    durationOption "trace-heartbeat" "emit a heartbeat event at this interval (0=off)",
    textOption "cpu-profile" "write a CPU profile to file",
    textOption "mem-profile" "write a heap profile to file",
    textOption "runtime-trace" "write a Go runtime trace to file"]

/-- The option that sets the number of registers. -/
def registersOption : OptionSpec := integerOption "registers" "number of physical registers"

/-- The options of a command's own.  One of them may have the name of an option that every command
knows. -/
def own : Command → List OptionSpec
  | parse => [textOption "format" "output format (pretty|tree|json)"]
  | cfg => [switchOption "dot" "print the graph in Graphviz dot syntax"]
  | regalloc =>
    [registersOption, switchOption "steps" "print the coloring log",
      switchOption "step" "open the interactive step viewer"]
  | cpu | examples => [registersOption]
  | run =>
    [integerOption "max-steps" "stop after this many statements (0 = manifest or default)"]
  | build =>
    [registersOption, switchOption "run" "execute the program after compiling",
      integerOption "jobs" "max parallel workers for directory builds (0=auto)",
      switchOption "no-cache" "neither read nor write the artifact cache",
      switchOption "clean-cache" "drop every cached artifact before building",
      textOption "ui" "progress UI for directory builds (auto|on|off)"]
  | version =>
    [switchOption "hash" "include git commit hash",
      switchOption "message" "include git commit message",
      switchOption "date" "include build timestamp",
      switchOption "full" "show every recorded bit of build metadata",
      textOption "format" "output format (pretty|json)"]
  | _ => []

end Command

end ThreeAddress
