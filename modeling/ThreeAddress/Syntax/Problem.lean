import ThreeAddress.Diagnostic.Basic
import ThreeAddress.Token.Basic

/-!
# Syntax errors

What can be wrong with a sequence of tokens, with the code and the wording of each finding.
-/

namespace ThreeAddress

/-- What the parser missed. -/
inductive SyntaxProblem where
  | variableName
  | assignSign
  | assignTarget
  | functionName
  | paramsOpen
  | paramName
  | paramsClose
  | condOpen (keyword : Text)
  | condClose
  | blockOpen
  | blockClose
  | expression (got : Token)
  | groupClose
  | argsClose
deriving DecidableEq, Repr

namespace SyntaxProblem

/-- The code of the finding. -/
def code : SyntaxProblem → Code
  | variableName | functionName | paramName => .expectIdentifier
  | assignSign | assignTarget | paramsOpen | condOpen _ => .unexpectedToken
  | paramsClose | condClose | groupClose | argsClose => .unclosedParen
  | blockOpen => .expectBlock
  | blockClose => .unclosedBrace
  | expression _ => .expectExpression

/-- A token as it is named in a message. -/
def describe (t : Token) : Text :=
  if t.kind = .eof then "end of file" else "'" ++ t.text ++ "'"

/-- The wording of the finding. -/
def message : SyntaxProblem → Text
  | variableName => "expected variable name after 'let'"
  | assignSign => "expected '=' after variable name"
  | assignTarget => "assignment target must be a variable name"
  | functionName => "expected function name"
  | paramsOpen => "expected '(' after function name"
  | paramName => "expected parameter name"
  | paramsClose => "expected ')' after parameters"
  | condOpen keyword => "expected '(' after '" ++ keyword ++ "'"
  | condClose => "expected ')' after condition"
  | blockOpen => "expected '\x7b'"
  | blockClose => "expected '\x7d' to close block"
  | expression got => "expected expression, got " ++ describe got
  | groupClose => "expected ')' to close parenthesized expression"
  | argsClose => "expected ')' after call arguments"

end SyntaxProblem

end ThreeAddress
