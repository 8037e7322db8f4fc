import ThreeAddress.Diagnostic.Basic
import ThreeAddress.Text.Quoted
import ThreeAddress.Token.Basic
import ThreeAddress.Token.Cursor

/-!
# Reading tokens

Between tokens stand blanks and comments, which run from `//` to the end of the line.  A token is
the longest piece of its class at the cursor: a word, a run of digits, a string, or an operator.
Whatever fits no class becomes an invalid token together with the problem that made it one.  A
lexer remembers one token of look-ahead.
-/

namespace ThreeAddress

/-- What is wrong with an invalid token. -/
inductive LexProblem where
  | unknownChar (code : Nat)
  | newlineInString
  | unterminatedString
  | badNumber (digits : Text)
deriving DecidableEq, Repr

namespace LexProblem

/-- The code of the finding. -/
def code : LexProblem → Code
  | unknownChar _ => .unknownChar
  | newlineInString | unterminatedString => .unterminatedString
  | badNumber _ => .badNumber

/-- The wording of the finding. -/
def message : LexProblem → Text
  | unknownChar c => "unknown character " ++ Text.quotedCode c
  | newlineInString => "newline in string literal"
  | unterminatedString => "unterminated string literal"
  | badNumber digits => "malformed number literal " ++ digits

/-- The finding about the token at `span`. -/
def diagnostic (p : LexProblem) (span : Span) : Diagnostic := .error p.code span p.message

end LexProblem

/-- A token with the problem that made it invalid, if any. -/
structure Lexed where
  token : Token
  problem : Option LexProblem := none
deriving DecidableEq, Repr

/-- The finding about a token's problem. -/
def Lexed.diagnostic? (l : Lexed) : Option Diagnostic :=
  l.problem.map (·.diagnostic l.token.span)

/-! ### Classes of bytes -/

/-- Letters and the underscore. -/
def isWordStart (b : UInt8) : Bool := b == 95 || (65 ≤ b && b ≤ 90) || (97 ≤ b && b ≤ 122)

/-- Decimal digits. -/
def isDigitByte (b : UInt8) : Bool := 48 ≤ b && b ≤ 57

/-- Letters, the underscore and digits. -/
def isWordByte (b : UInt8) : Bool := isWordStart b || isDigitByte b

/-- Blanks, tabs, newlines and carriage returns. -/
def isBlankByte (b : UInt8) : Bool := b == 32 || b == 9 || b == 10 || b == 13

/-! ### Between tokens -/

/-- The number of bytes of a comment's text, up to the end of the line. -/
def commentLength (t : Text) : Nat := (t.takeWhile (· != 10)).length

/-- The number of blank and comment bytes at the front of a text. -/
def triviaLength : Text → Nat
  | [] => 0
  | b :: rest =>
    if isBlankByte b then 1 + triviaLength rest
    else match b, rest with
      | 47, 47 :: body =>
        let n := commentLength body
        2 + n + triviaLength (body.drop n)
      | _, _ => 0
termination_by t => t.length
decreasing_by
  all_goals simp only [List.length_drop, List.length_cons]
  all_goals omega

/-! ### Tokens -/

/-- A piece of source text: its class, its length in bytes, its problem. -/
structure Lexeme where
  kind : TokenKind
  size : Nat
  problem : Option LexProblem := none
deriving DecidableEq, Repr

/-- Operators of two bytes. -/
def pairOperators : List ((UInt8 × UInt8) × TokenKind) := [
  ((38, 38), .andAnd), ((124, 124), .orOr), ((61, 61), .eqEq), ((33, 61), .bangEq),
  ((60, 61), .ltEq), ((62, 61), .gtEq)]

/-- Operators and punctuation of one byte. -/
def singleOperators : List (UInt8 × TokenKind) := [
  (43, .plus), (45, .minus), (42, .star), (47, .slash), (37, .percent), (61, .assign),
  (33, .bang), (60, .lt), (62, .gt), (59, .semicolon), (44, .comma), (40, .lparen),
  (41, .rparen), (123, .lbrace), (125, .rbrace)]

namespace Lexeme

/-- A word starting with `b`. -/
def word (b : UInt8) (rest : Text) : Lexeme :=
  let w := b :: rest.takeWhile isWordByte
  ⟨(TokenKind.ofWord? w).getD .ident, w.length, none⟩

/-- A run of digits starting with `b`; a letter must not follow it directly. -/
def number (b : UInt8) (rest : Text) : Lexeme :=
  let digits := rest.takeWhile isDigitByte
  let after := rest.drop digits.length
  if after.headD 0 |> isWordStart then
    let all := b :: (digits ++ after.takeWhile isWordByte)
    ⟨.invalid, all.length, some (.badNumber all)⟩
  else ⟨.number, 1 + digits.length, none⟩

/-- A string whose opening quote stands before `rest`. -/
def string (rest : Text) : Lexeme :=
  let body := rest.takeWhile fun b => b != 34 && b != 10
  match rest.drop body.length with
  | 34 :: _ => ⟨.string, body.length + 2, none⟩
  | _ :: _ => ⟨.invalid, body.length + 1, some .newlineInString⟩
  | [] => ⟨.invalid, body.length + 1, some .unterminatedString⟩

/-- An operator starting with `b`, or an unknown character. -/
def operator (b : UInt8) (rest : Text) : Lexeme :=
  match rest.head?.bind fun c => pairOperators.lookup (b, c) with
  | some kind => ⟨kind, 2, none⟩
  | none =>
    match singleOperators.lookup b with
    | some kind => ⟨kind, 1, none⟩
    | none =>
      let g := Glyph.first b rest
      ⟨.invalid, g.bytes.length, some (.unknownChar g.code)⟩

/-- The piece at the front of a text that starts with `b`. -/
def first (b : UInt8) (rest : Text) : Lexeme :=
  if isWordStart b then word b rest
  else if isDigitByte b then number b rest
  else if b = 34 then string rest
  else operator b rest

/-- The text kept in the token: strings are kept in composed form. -/
def keptText [Composing] (l : Lexeme) (source : Text) : Text :=
  if l.kind = .string then source.compose else source

end Lexeme

/-- A lexer: a place in the file and the token that was looked ahead at. -/
structure Lexer where
  cursor : Cursor
  look : Option Lexed := none

variable [Composing]

namespace Lexer

/-- A lexer at the start of a file. -/
def ofFile (f : File) : Lexer := { cursor := Cursor.ofFile f }

/-- Reads the next token at a cursor. -/
def scan (c : Cursor) : Lexed × Cursor :=
  let start := c.skip (triviaLength c.rest)
  match start.rest with
  | [] => (⟨⟨.eof, start.spanFrom start.offset, []⟩, none⟩, start)
  | b :: rest =>
    let l := Lexeme.first b rest
    let stop := start.skip l.size
    (⟨⟨l.kind, stop.spanFrom start.offset, l.keptText (start.rest.take l.size)⟩, l.problem⟩, stop)

/-- Takes the next token. -/
def next (lx : Lexer) : Lexed × Lexer :=
  match lx.look with
  | some l => (l, { lx with look := none })
  | none =>
    let (l, c) := scan lx.cursor
    (l, { lx with cursor := c })

/-- Shows the next token without taking it. -/
def peek (lx : Lexer) : Lexed × Lexer :=
  let (l, lx) := lx.next
  (l, { lx with look := some l })

/-- Takes tokens up to the end of the file, at most `steps` of them. -/
def drain : (steps : Nat) → Lexer → List Lexed × Lexer
  | 0, lx => ([], lx)
  | steps + 1, lx =>
    let (l, lx) := lx.next
    if l.token.kind = .eof then ([l], lx)
    else
      let (ls, lx) := drain steps lx
      (l :: ls, lx)

/-- Takes all tokens that are left, with the end of the file as the last.  Every token but the
last takes at least one byte, and at most one token is looked ahead at. -/
def all (lx : Lexer) : List Lexed × Lexer := drain (lx.cursor.rest.length + 2) lx

end Lexer

/-- The tokens of a file, with the end of the file as the last. -/
def File.lex (f : File) : List Lexed := (Lexer.ofFile f).all.1

end ThreeAddress
