import ThreeAddress.Source.Span

/-!
# Tokens

A token is a classified piece of source text with the span it was read from.
-/

namespace ThreeAddress

/-- The classes of tokens. -/
inductive TokenKind where
  | invalid | eof | ident | number | string
  | kwLet | kwIf | kwElse | kwWhile | kwFunction | kwReturn | kwPrint | kwTrue | kwFalse
  | eqEq | bangEq | ltEq | gtEq | lt | gt | andAnd | orOr
  | plus | minus | star | slash | percent | bang | assign
  | lparen | rparen | lbrace | rbrace | semicolon | comma
deriving DecidableEq, Repr, Inhabited

namespace TokenKind

/-- All kinds, in the order of their numbers. -/
def all : List TokenKind := [
  invalid, eof, ident, number, string,
  kwLet, kwIf, kwElse, kwWhile, kwFunction, kwReturn, kwPrint, kwTrue, kwFalse,
  eqEq, bangEq, ltEq, gtEq, lt, gt, andAnd, orOr,
  plus, minus, star, slash, percent, bang, assign,
  lparen, rparen, lbrace, rbrace, semicolon, comma]

/-- The kind of a number. -/
def ofNumber? (n : Nat) : Option TokenKind := all[n]?

/-- The name shown in token listings. -/
def name : TokenKind → Text
  | invalid => "Invalid"
  | eof => "EOF"
  | ident => "Identifier"
  | number => "NumberLiteral"
  | string => "StringLiteral"
  | kwLet => "Let"
  | kwIf => "If"
  | kwElse => "Else"
  | kwWhile => "While"
  | kwFunction => "Function"
  | kwReturn => "Return"
  | kwPrint => "Print"
  | kwTrue | kwFalse => "BooleanLiteral"
  | eqEq => "Equal"
  | bangEq => "NotEqual"
  | ltEq => "LessEqual"
  | gtEq => "GreaterEqual"
  | lt => "Less"
  | gt => "Greater"
  | andAnd => "And"
  | orOr => "Or"
  | plus => "Plus"
  | minus => "Minus"
  | star => "Mult"
  | slash => "Div"
  | percent => "Mod"
  | bang => "Not"
  | assign => "Assign"
  | lparen => "LParen"
  | rparen => "RParen"
  | lbrace => "LBrace"
  | rbrace => "RBrace"
  | semicolon => "Semicolon"
  | comma => "Comma"

/-- The name of kind number `n`, also of numbers that are no kind. -/
def nameOfNumber (n : Nat) : Text := ((ofNumber? n).map name).getD "Kind(?)"

/-- Number, string and boolean literals. -/
def isLiteral : TokenKind → Bool
  | number | string | kwTrue | kwFalse => true
  | _ => false

/-- Words of the language. -/
def isKeyword : TokenKind → Bool
  | kwLet | kwIf | kwElse | kwWhile | kwFunction | kwReturn | kwPrint | kwTrue | kwFalse => true
  | _ => false

/-- Whether an expression can start with a token of this kind. -/
def startsExpr : TokenKind → Bool
  | ident | number | string | kwTrue | kwFalse | lparen | bang | minus => true
  | _ => false

/-- The words of the language. -/
def keywords : List (String × TokenKind) := [
  ("let", kwLet), ("if", kwIf), ("else", kwElse), ("while", kwWhile), ("function", kwFunction),
  ("return", kwReturn), ("print", kwPrint), ("true", kwTrue), ("false", kwFalse)]

/-- The kind of a word of the language. -/
def ofWord? (word : Text) : Option TokenKind :=
  (keywords.find? fun (w, _) => Text.ofString w == word).map (·.2)

end TokenKind

/-- A classified piece of source text. -/
structure Token where
  kind : TokenKind
  span : Span
  text : Text
deriving DecidableEq, Repr, Inhabited

end ThreeAddress
