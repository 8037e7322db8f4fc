import ThreeAddress.Code.Instr

/-!
# Well-formed programs

The check of a program's structure: labels are unique, functions are properly bracketed, every
operand that a kind needs is there, and every jump names a label.  Whether the label exists is not
checked here.
-/

namespace ThreeAddress

/-- What is wrong with a program, at the instruction `at_` where there is one. -/
inductive CodeProblem where
  | duplicateLabel (at_ : Nat) (label : Text) (first : Nat)
  | strayEnd (at_ : Nat)
  | emptyOperand (at_ : Nat) (kind : InstrKind)
  | noTarget (at_ : Nat) (kind : InstrKind)
  | unterminated
deriving DecidableEq, Repr

namespace CodeProblem

/-- The wording of the problem. -/
def message : CodeProblem → Text
  | duplicateLabel i label first =>
    "instr " ++ Text.ofNat i ++ ": label " ++ label ++ " already defined at " ++ Text.ofNat first
  | strayEnd i => "instr " ++ Text.ofNat i ++ ": FUNCTION_END without FUNCTION_START"
  | emptyOperand i kind =>
    "instr " ++ Text.ofNat i ++ ": " ++ kind.name ++ " has an empty operand"
  | noTarget i kind => "instr " ++ Text.ofNat i ++ ": " ++ kind.name ++ " without target"
  | unterminated => "unterminated function"

end CodeProblem

namespace Instr

/-- What is wrong with an instruction's own slots. -/
def slotProblems (at_ : Nat) (i : Instr) : List CodeProblem :=
  (if i.operands.all (·.isPresent) then [] else [.emptyOperand at_ i.kind]) ++
    if i.kind.isJump && i.label.isEmpty then [.noTarget at_ i.kind] else []

end Instr

namespace Program

/-- The problems of the instructions from place `at_` on, where `seen` are the labels before, the
newest first, and `depth` functions are open. -/
def problemsFrom (at_ : Nat) (seen : List (Text × Nat)) (depth : Nat) : Program → List CodeProblem
  | [] => if depth = 0 then [] else [.unterminated]
  | i :: rest =>
    match i.kind with
    | .label =>
      ((seen.lookup i.label).map (CodeProblem.duplicateLabel at_ i.label ·)).toList ++
        problemsFrom (at_ + 1) ((i.label, at_) :: seen) depth rest
    | .functionStart => i.slotProblems at_ ++ problemsFrom (at_ + 1) seen (depth + 1) rest
    | .functionEnd =>
      if depth = 0 then .strayEnd at_ :: problemsFrom (at_ + 1) seen depth rest
      else problemsFrom (at_ + 1) seen (depth - 1) rest
    | _ => i.slotProblems at_ ++ problemsFrom (at_ + 1) seen depth rest

/-- The problems of a program. -/
def problems (p : Program) : List CodeProblem := problemsFrom 0 [] 0 p

end Program

/-- The problems of a program as one message, if there are any. -/
def Program.check? (p : Program) : Option Text :=
  match p.problems with
  | [] => none
  | ps => some (Text.join "\n" (ps.map CodeProblem.message))

end ThreeAddress
