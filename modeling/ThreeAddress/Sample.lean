import ThreeAddress.Text.Quoted

/-!
# Sample programs

Small programs that show the language.
-/

namespace ThreeAddress

/-- A sample program. -/
structure Sample where
  name : Text
  title : Text
  source : Text
deriving Repr

namespace Sample

/-- The name of the file that holds a sample. -/
def fileName (s : Sample) : Text := s.name ++ ".tac"

/-- All samples. -/
def all : List Sample :=
  [{ name := "calculator"
     title := "Simple Calculator"
     source := Text.lines ["let x = 10", "let y = 5", "let result = x + y * 2", "print result"] },
   { name := "conditional"
     title := "Conditional Logic"
     source := Text.lines [
       "let age = 18",
       "if (age >= 18) \x7b",
       "    print \"Adult\"",
       "\x7d else \x7b",
       "    print \"Minor\"",
       "\x7d"] },
   { name := "loop"
     title := "Loop Example"
     source := Text.lines [
       "let i = 0",
       "while (i < 5) \x7b",
       "    print i",
       "    i = i + 1",
       "\x7d"] },
   { name := "function"
     title := "Function Definition"
     source := Text.lines [
       "function add(a, b) \x7b",
       "    return a + b",
       "\x7d",
       "let sum = add(3, 4)",
       "print sum"] }]

/-- The names of all samples. -/
def names : Text := Text.join ", " (all.map (·.name))

/-- The sample of a name; without one, the reason. -/
def ofName (name : Text) : Except Text Sample :=
  match all.find? (·.name == name) with
  | some s => .ok s
  | none => .error ("unknown example " ++ name.quoted ++ " (have " ++ names ++ ")")

end Sample

end ThreeAddress
