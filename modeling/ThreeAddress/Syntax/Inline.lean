import ThreeAddress.Syntax.Expr

/-!
# Expressions on one line

An expression is written with parentheses around every binary operation, so that the precedence
it was parsed with shows: `x + y * 2` is written `(x + (y * 2))`.  Parentheses of the source are
left out.
-/

namespace ThreeAddress

namespace Expr

mutual

/-- The expression on one line. -/
def inline : Expr → Text
  | ident _ name => name
  | literal _ _ value => value
  | binary _ op left right => "(" ++ left.inline ++ " " ++ op.text ++ " " ++ right.inline ++ ")"
  | unary _ op operand => op.text ++ operand.inline
  | call _ name _ args => name ++ "(" ++ inlineArgs args ++ ")"
  | group _ inner => inner.inline
  | unknown _ _ => "<?>"
  | missing _ => "<nil>"

/-- Arguments on one line, separated by commas. -/
def inlineArgs : List Expr → Text
  | [] => []
  | [e] => e.inline
  | e :: rest => e.inline ++ ", " ++ inlineArgs rest

end

end Expr

end ThreeAddress
