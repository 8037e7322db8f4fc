import ThreeAddress.Code.Instr
import ThreeAddress.Json

/-!
# Instructions as JSON

Kinds are written as numbers, and slots that are empty are left out.
-/

namespace ThreeAddress

/-- The object of an operand. -/
def Operand.json (o : Operand) : Json :=
  .record [
    [("kind", .nat o.kind.toNumber), ("text", .string o.text)],
    if o.temp = 0 then [] else [("temp", .int o.temp)],
    Json.natField "lit" o.lit.toNumber]

namespace Instr

/-- The field of an operand slot, left out if the slot is empty. -/
def operandField (key : Text) (o : Operand) : List (Text × Json) :=
  if o = {} then [] else [(key, o.json)]

/-- The object of an instruction. -/
def json (i : Instr) : Json :=
  .record [
    [("type", .nat i.kind.toNumber)],
    operandField "target" i.target,
    operandField "left" i.left,
    operandField "right" i.right,
    operandField "source" i.source,
    operandField "condition" i.cond,
    Json.textField "label" i.label,
    Json.textField "function" i.func,
    Json.listField "args" (i.args.map Operand.json),
    Json.listField "params" (i.params.map .string),
    Json.flagField "hasValue" i.hasValue]

end Instr

namespace Program

/-- The list of a program's instructions; an empty program is absent. -/
def json (p : Program) : Json := .arrayOrNull (p.map Instr.json)

end Program

end ThreeAddress
