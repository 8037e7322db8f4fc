import ThreeAddress.Command.Error
import ThreeAddress.Pipeline.Compile

/-!
# Preferences

What a command goes by: the settings of the project that its file belongs to, with the options of
the command line on top.
-/

namespace ThreeAddress

/-- Whether something is wanted, unwanted, or left to the circumstances. -/
inductive Choice where
  | auto | on | off
deriving DecidableEq, Repr

namespace Choice

/-- Reads a choice in any case; no word leaves it open. -/
def ofWord? (t : Text) : Option Choice :=
  let word := t.lower.trim
  if word.isEmpty || word == "auto" then some auto
  else if word == "on" then some on
  else if word == "off" then some off
  else none

/-- Reads the choice of an option. -/
def read (option value : Text) : Except CommandError Choice :=
  match ofWord? value with
  | some c => .ok c
  | none => .error (.unknownChoice option value)

/-- The decision, where `usual` is what the circumstances suggest. -/
def decide (c : Choice) (usual : Bool) : Bool :=
  match c with
  | auto => usual
  | on => true
  | off => false

end Choice

/-- What a command goes by. -/
structure Preferences where
  settings : Settings := {}
  format : Text := "pretty"
  color : Choice := .auto
  quiet : Bool := false
  timings : Bool := false
  maxDiagnostics : Int := 100

namespace Preferences

/-- The formats that every command has. -/
def formats : List Text := ["pretty", "json"]

/-- The settings with the options of a command line on top. -/
def settingsWith (l : CommandLine) (s : Settings) : Except CommandError Settings := do
  let registers ← match l.integer? "registers" with
    | none => .ok s.registers
    | some n => if n ≤ 0 then .error (.noRegisters n) else .ok n
  return { s with
    registers
    format := (l.text? "format").getD s.format
    color := (l.text? "color").getD s.color
    jobs := (l.integer? "jobs").getD s.jobs
    cache := s.cache && !l.switch "no-cache" }

/-- The preferences of a command line and a project. -/
def ofSettings (l : CommandLine) (known : List Text) (s : Settings) :
    Except CommandError Preferences := do
  let settings ← settingsWith l s
  let format := settings.format.trim.lower
  if !known.contains format then .error (.unknownFormat format known)
  let color ← Choice.read "color" settings.color
  return {
    settings, format, color
    quiet := l.switch "quiet"
    timings := l.switch "timings"
    maxDiagnostics := (l.integer? "max-diagnostics").getD 100 }

/-- Whether reports are for programs. -/
def isJson (p : Preferences) : Bool := p.format == "json"

/-- The register file asked for. -/
def registers (p : Preferences) : RegisterFile := ⟨p.settings.registers, p.settings.stem⟩

/-- The options of a compilation up to a stage. -/
def compileOptions (p : Preferences) (last : Option Stage) : CompileOptions :=
  { maxDiagnostics := p.maxDiagnostics
    registers := p.registers
    last
    maxSteps := p.settings.maxSteps
    timings := p.timings }

end Preferences

end ThreeAddress
