import ThreeAddress.Text.Blank
import ThreeAddress.Text.Quoted
import ThreeAddress.Toml.Document

/-!
# Project settings

The settings of a project, read from a document with one table for each concern.  A setting that
the document does not give keeps its default.  A name in another case is taken for the setting when
kinds of values are checked and when unknown keys are listed, but it sets nothing.
-/

namespace ThreeAddress

/-- The settings of a project.  No number of jobs means one for each processor. -/
structure Settings where
  registers : Int := 8
  stem : Text := "r"
  color : Text := "auto"
  format : Text := "pretty"
  jobs : Int := 0
  cache : Bool := true
  maxSteps : Int := 1000000
deriving Repr

/-- The kinds of settings. -/
inductive SettingKind where
  | integer | string | boolean
deriving DecidableEq, Repr

namespace SettingKind

/-- The name of a kind. -/
def name : SettingKind → Text
  | integer => "integer"
  | string => "string"
  | boolean => "boolean"

/-- How the values of a kind are stored. -/
def store : SettingKind → Text
  | integer => "int64"
  | string => "string"
  | boolean => "bool"

/-- Whether a value is of a kind. -/
def admits : SettingKind → Toml.Value → Bool
  | integer, .integer _ => true
  | string, .string _ => true
  | boolean, .boolean _ => true
  | _, _ => false

end SettingKind

/-- A setting: its key in the document, the name of its field, and its kind. -/
structure Setting where
  key : Text
  field : Text
  kind : SettingKind
deriving DecidableEq, Repr

namespace Setting

/-- The field of a setting, with its key. -/
def shown (s : Setting) : Text :=
  s.field ++ " " ++ s.kind.store ++ " " ++ ("toml:" ++ s.key.quoted : Text).quoted

/-- The fields of a table of settings. -/
def shownAll (table : List Setting) : Text :=
  "struct \x7b " ++ Text.join "; " (table.map shown) ++ " \x7d"

end Setting

/-- Why a document holds no settings. -/
inductive SettingsError where
  | document (problem : Toml.Problem)
  | wrongKind (key : Toml.Key) (line : Nat) (found expected : Text)
  | notTable (key : Toml.Key) (line : Nat) (table : List Setting) (found : Text)
  | notPositive (setting : Text) (value : Int)
  | blank (setting : Text)
  | notOneOf (setting choices value : Text)
deriving Repr

namespace SettingsError

/-- Where the document disagrees with the settings; a key without a line has line zero. -/
def place (key : Toml.Key) (line : Nat) : Text :=
  let line : Text := if line = 0 then "" else "line " ++ Text.ofNat line ++ " "
  "toml: " ++ line ++ "(last key " ++ key.shown.quoted ++ "): "

/-- The wording of an error. -/
def message : SettingsError → Text
  | document p => "failed to parse TOML: toml: " ++ p.message
  | wrongKind key line found expected =>
    "failed to parse TOML: " ++ place key line ++ "incompatible types: TOML value has type " ++
      found ++ "; destination has type " ++ expected
  | notTable key line table found =>
    "failed to parse TOML: " ++ place key line ++ "type mismatch for " ++ Setting.shownAll table ++
      ": expected table but found " ++ found
  | notPositive setting value => setting ++ " must be positive, got " ++ Text.ofInt value
  | blank setting => setting ++ " must not be empty"
  | notOneOf setting choices value => setting ++ " must be " ++ choices ++ ", got " ++ value.quoted

/-- Whether the document itself is at fault and not the value of a setting. -/
def isDocumentError : SettingsError → Bool
  | document _ | wrongKind .. | notTable .. => true
  | _ => false

end SettingsError

namespace Settings

/-- The tables of the document with their settings. -/
def layout : List (Text × List Setting) :=
  [("alloc", [⟨"registers", "Registers", .integer⟩, ⟨"prefix", "Prefix", .string⟩]),
    ("output", [⟨"color", "Color", .string⟩, ⟨"format", "Format", .string⟩]),
    ("build", [⟨"jobs", "Jobs", .integer⟩, ⟨"cache", "Cache", .boolean⟩]),
    ("run", [⟨"max_steps", "MaxSteps", .integer⟩])]

/-- A name without regard to case.  Besides capitals the long s and the sign for kelvin stand for
small letters. -/
def folded : Text → Text
  | 0xC5 :: 0xBF :: t => Text.byte 's' :: folded t
  | 0xE2 :: 0x84 :: 0xAA :: t => Text.byte 'k' :: folded t
  | b :: t => Text.lowerAscii [b] ++ folded t
  | [] => []

/-- The entry whose key is the name, or else one whose key differs from it only in case. -/
def entryOf? {α : Type} (key : α → Text) (entries : List α) (name : Text) : Option α :=
  match entries.find? (key · == name) with
  | some e => some e
  | none => entries.find? (key · == folded name)

/-- The line of a key. -/
def lineOf (d : Toml.Document) (key : Toml.Key) : Nat := (d.lines.lookup key).getD 0

/-- Checks the values of a table, and gives the keys that are settings. -/
def checkTable (d : Toml.Document) (table : Text) (fields : List Setting)
    (entries : Toml.Table) : Except SettingsError (List Toml.Key) :=
  entries.foldlM (fun known (name, v) =>
    let key : Toml.Key := [table, name]
    match entryOf? Setting.key fields name with
    | none => .ok known
    | some s =>
      if s.kind.admits v then .ok (key :: known)
      else .error (.wrongKind key (lineOf d key) v.kind s.kind.name)) []

/-- Checks the kinds of all values, and gives the keys that are tables of settings or settings. -/
def check (d : Toml.Document) : Except SettingsError (List Toml.Key) :=
  d.root.foldlM (fun known (name, v) =>
    match entryOf? Prod.fst layout name, v with
    | none, _ => .ok known
    | some (_, fields), .table entries => do
      return [name] :: (← checkTable d name fields entries) ++ known
    | some (_, fields), v => .error (.notTable [name] (lineOf d [name]) fields v.kind)) []

/-- The keys of a document that are no settings, in order. -/
def unknownKeys (d : Toml.Document) (known : List Toml.Key) : List Toml.Key :=
  d.order.filter (! known.contains ·)

/-- The value of a setting, if the document gives it. -/
def find? (d : Toml.Document) (table name : Text) : Option Toml.Value :=
  match d.root.lookup table with
  | some (.table entries) => entries.lookup name
  | _ => none

/-- A positive integer. -/
def positive (d : Toml.Document) (table name : Text) (usual : Int) : Except SettingsError Int :=
  match find? d table name with
  | some (.integer n) =>
    if n ≤ 0 then .error (.notPositive ("[" ++ table ++ "]." ++ name) n) else .ok n
  | _ => .ok usual

/-- One of several words. -/
def choice (d : Toml.Document) (table name : Text) (choices : List String) (usual : Text) :
    Except SettingsError Text :=
  match find? d table name with
  | some (.string t) =>
    if choices.any fun c => Text.ofString c == t then .ok t
    else .error (.notOneOf ("[" ++ table ++ "]." ++ name) (String.intercalate "|" choices) t)
  | _ => .ok usual

/-- The settings of a checked document.  The first setting that is wrong is reported. -/
def ofChecked (d : Toml.Document) : Except SettingsError Settings := do
  let usual : Settings := {}
  let registers ← positive d "alloc" "registers" usual.registers
  let stem ← match find? d "alloc" "prefix" with
    | some (.string t) => if t.trim.isEmpty then .error (.blank "[alloc].prefix") else .ok t
    | _ => .ok usual.stem
  let color ← choice d "output" "color" ["auto", "on", "off"] usual.color
  let format ← choice d "output" "format" ["pretty", "json"] usual.format
  let jobs ← match find? d "build" "jobs" with
    | some (.integer 0) => .ok 0
    | _ => positive d "build" "jobs" usual.jobs
  let cache := match find? d "build" "cache" with
    | some (.boolean b) => b
    | _ => usual.cache
  let maxSteps ← positive d "run" "max_steps" usual.maxSteps
  return { registers, stem, color, format, jobs, cache, maxSteps }

/-- The settings that a text describes, whatever else it holds. -/
def ofText (t : Text) : Except SettingsError Settings := do
  match Toml.Document.ofText t with
  | .error p => .error (.document p)
  | .ok d =>
    let _ ← check d
    ofChecked d

end Settings

end ThreeAddress
