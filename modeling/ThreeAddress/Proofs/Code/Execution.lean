import Mathlib.Logic.Function.Basic
import Mathlib.Logic.Relation
import ThreeAddress.Code.Instr
import ThreeAddress.Proofs.Code.Labels
import ThreeAddress.Proofs.Fallible
import ThreeAddress.Run.Eval

/-!
# Executing code

Three-address code is executed by a machine with a place in the program, a store and an output.  The
store maps variables and temporaries to values.  What a literal, an operator or a condition means,
and how a value is printed, is what it is for the statements of the language.  `Program.step?`
executes the instruction at the current place, `Program.Reaches` any number of instructions.
-/

namespace ThreeAddress

/-- What a store keeps values for. -/
inductive Slot where
  | var (name : Text)
  | temp (n : Int)
deriving DecidableEq

/-- The values of variables and temporaries, where they have one. -/
abbrev Store := Slot → Option Value

/-- The result of a computation of the evaluator that does not depend on the state of the run. -/
def Run.value? {α : Type} (m : Run α) : Option α :=
  match (m.run {}).1 with
  | .ok a => some a
  | .error _ => none

namespace Operand

/-- The slot that a variable or temporary stands for. -/
def slot? (x : Operand) : Option Slot :=
  match x.kind with
  | .var => some (.var x.text)
  | .temp => some (.temp x.temp)
  | _ => none

/-- The value of an operand. -/
def value? (store : Store) (x : Operand) : Option Value :=
  match x.kind with
  | .literal => (literalValue {} x.lit x.text).value?
  | _ => x.slot?.bind store

end Operand

/-- A state of the machine. -/
structure CodeState where
  place : Nat := 0
  store : Store := fun _ => none
  output : Text := []

namespace CodeState

/-- Goes on with the next instruction. -/
def next (m : CodeState) : CodeState := { m with place := m.place + 1 }

/-- Writes a value and goes on. -/
def write? (m : CodeState) (x : Operand) (v : Value) : Option CodeState :=
  x.slot?.map fun slot => { m.next with store := Function.update m.store slot (some v) }

/-- Prints a line and goes on. -/
def print (m : CodeState) (v : Value) : CodeState :=
  { m.next with output := m.output ++ (v.shown ++ [10]) }

/-- Goes on at a label. -/
def jump? (m : CodeState) (p : Program) (label : Text) : Option CodeState :=
  (p.labelIndex? label).map fun n => { m with place := n }

end CodeState

namespace Program

/-- Executes the instruction at the current place.  There is no next state at the end of the
program, if an operand or an operator has no value, and for what belongs to calls. -/
def step? (p : Program) (m : CodeState) : Option CodeState := do
  let i ← p[m.place]?
  match i.kind with
  | .assign =>
    let v ← i.source.value? m.store
    m.write? i.target v
  | .binary op =>
    let l ← i.left.value? m.store
    let r ← i.right.value? m.store
    let v ← (binaryValue {} op l r).value?
    m.write? i.target v
  | .unary op =>
    let x ← i.source.value? m.store
    let v ← (unaryValue {} op x).value?
    m.write? i.target v
  | .label => return m.next
  | .jump => m.jump? p i.label
  | .jumpIfFalse =>
    let c ← i.cond.value? m.store
    if c.truthy then return m.next else m.jump? p i.label
  | .jumpIfTrue =>
    let c ← i.cond.value? m.store
    if c.truthy then m.jump? p i.label else return m.next
  | .print =>
    let v ← i.source.value? m.store
    return m.print v
  | _ => none

/-- The program leads from one state to another in any number of steps. -/
def Reaches (p : Program) : CodeState → CodeState → Prop :=
  Relation.ReflTransGen fun m m' => p.step? m = some m'

/-- The code `c` stands in the program `p` from place `n` on. -/
def HoldsAt (p : Program) (n : Nat) (c : Program) : Prop := c <+: p.drop n

theorem holdsAt_self (p : Program) :
  p.HoldsAt 0 p
  := List.prefix_refl p

theorem HoldsAt.append {p : Program} {n : Nat} {c c' : Program} (h : p.HoldsAt n (c ++ c')) :
  p.HoldsAt n c ∧ p.HoldsAt (n + c.length) c'
  := by
  obtain ⟨rest, h⟩ := h
  constructor
  · use c' ++ rest
    rw [← h, List.append_assoc]
  · use rest
    rw [← List.drop_drop, ← h, List.append_assoc, List.drop_left]

theorem HoldsAt.cons {p : Program} {n : Nat} {i : Instr} {c : Program} (h : p.HoldsAt n (i :: c)) :
  p[n]? = some i ∧ p.HoldsAt (n + 1) c
  := by
  obtain ⟨rest, h⟩ := h
  constructor
  · rw [← List.head?_drop, ← h]
    rfl
  · use rest
    rw [← List.drop_drop, ← h]
    rfl

theorem HoldsAt.labelAt {p : Program} {n : Nat} {label : Text} {c : Program}
    (h : p.HoldsAt n ({ kind := .label, label := label } :: c)) :
  p.LabelAt label n
  := ⟨_, h.cons.1, rfl, rfl⟩

end Program

/-! ### One step for each kind of instruction -/

namespace Program

variable {p : Program} {m : CodeState} {x y t : Operand} {slot : Slot} {u v w : Value} {label : Text}

theorem step?_assign (hi : p[m.place]? = some { kind := .assign, target := t, source := x })
    (ht : t.slot? = some slot) (hx : x.value? m.store = some v) :
  p.step? m = some { m.next with store := Function.update m.store slot (some v) }
  := by
  simp [step?, hi, hx, CodeState.write?, ht]

theorem step?_binary {op : BinaryOp}
    (hi : p[m.place]? = some { kind := .binary op, target := t, left := x, right := y })
    (ht : t.slot? = some slot) (hx : x.value? m.store = some u) (hy : y.value? m.store = some w)
    (hv : (binaryValue {} op u w).value? = some v) :
  p.step? m = some { m.next with store := Function.update m.store slot (some v) }
  := by
  simp [step?, hi, hx, hy, hv, CodeState.write?, ht]

theorem step?_unary {op : UnaryOp}
    (hi : p[m.place]? = some { kind := .unary op, target := t, source := x })
    (ht : t.slot? = some slot) (hx : x.value? m.store = some u)
    (hv : (unaryValue {} op u).value? = some v) :
  p.step? m = some { m.next with store := Function.update m.store slot (some v) }
  := by
  simp [step?, hi, hx, hv, CodeState.write?, ht]

theorem step?_label (hi : p[m.place]? = some { kind := .label, label := label }) :
  p.step? m = some m.next
  := by
  simp [step?, hi]

theorem step?_jump {n : Nat} (hi : p[m.place]? = some { kind := .jump, label := label })
    (hn : p.labelIndex? label = some n) :
  p.step? m = some { m with place := n }
  := by
  simp [step?, hi, CodeState.jump?, hn]

theorem step?_jumpIfFalse_of_truthy
    (hi : p[m.place]? = some { kind := .jumpIfFalse, cond := x, label := label })
    (hx : x.value? m.store = some v) (hv : v.truthy) :
  p.step? m = some m.next
  := by
  simp [step?, hi, hx, hv]

theorem step?_jumpIfFalse_of_not_truthy {n : Nat}
    (hi : p[m.place]? = some { kind := .jumpIfFalse, cond := x, label := label })
    (hx : x.value? m.store = some v) (hv : ¬ v.truthy) (hn : p.labelIndex? label = some n) :
  p.step? m = some { m with place := n }
  := by
  simp [step?, hi, hx, hv, CodeState.jump?, hn]

theorem step?_print (hi : p[m.place]? = some { kind := .print, source := x })
    (hx : x.value? m.store = some v) :
  p.step? m = some (m.print v)
  := by
  simp [step?, hi, hx]

end Program

/-! ### The evaluator's own results -/

namespace Run

open Fallible

/-- A fault is not a result. -/
theorem fail_ok {α : Type} {cause : FaultCause} {span : Span} {r r' : RunState} {a : α} :
  ¬ (fail cause span : Run α).run r = (.ok a, r')
  := by
  intro h
  rw [fail, run_bind_ok] at h
  obtain ⟨s, r₁, -, h⟩ := h
  cases run_throw_ok h

theorem value?_pure {α : Type} (a : α) :
  (pure a : Run α).value? = some a
  := rfl

end Run

section Values

open Fallible

variable {r r' : RunState} {v : Value} {span : Span} (span' : Span)

/-- The value of a literal depends on its text only. -/
theorem literalValue_ok {kind : LiteralKind} {text : Text}
    (h : (literalValue span kind text).run r = (.ok v, r')) :
  r' = r ∧ (literalValue span' kind text).value? = some v
  := by
  cases kind with
  | number =>
      simp only [literalValue] at h ⊢
      split at h
      · obtain ⟨rfl, rfl⟩ := run_pure_ok.1 h
        use rfl
        apply Run.value?_pure
      · cases Run.fail_ok h
  | string | boolean =>
      obtain ⟨rfl, rfl⟩ := run_pure_ok.1 h
      use rfl
      apply Run.value?_pure
  | other code => cases Run.fail_ok h

/-- The value of a unary operator depends on its operand only. -/
theorem unaryValue_ok {op : UnaryOp} {x : Value} (h : (unaryValue span op x).run r = (.ok v, r')) :
  r' = r ∧ (unaryValue span' op x).value? = some v
  := by
  unfold unaryValue at h ⊢
  split at h
  · obtain ⟨rfl, rfl⟩ := run_pure_ok.1 h
    use rfl
    apply Run.value?_pure
  · obtain ⟨rfl, rfl⟩ := run_pure_ok.1 h
    use rfl
    apply Run.value?_pure
  · cases Run.fail_ok h
  · cases Run.fail_ok h

/-- The value of a binary operator depends on its operands only. -/
theorem binaryValue_ok {op : BinaryOp} {x y : Value}
    (h : (binaryValue span op x y).run r = (.ok v, r')) :
  r' = r ∧ (binaryValue span' op x y).value? = some v
  := by
  unfold binaryValue at h ⊢
  split at h
  · obtain ⟨rfl, rfl⟩ := run_pure_ok.1 h
    use rfl
    apply Run.value?_pure
  · cases Run.fail_ok h

end Values

end ThreeAddress
