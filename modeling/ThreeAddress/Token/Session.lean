import ThreeAddress.Token.Lexer

/-!
# Lexers in use

A session is a lexer together with what it has reported.  A token is reported when it is read: when
it is taken, or when it is looked ahead at before that.  The calls of a session do to its lexer what
the lexer's own operations do.
-/

namespace ThreeAddress

/-- What can be asked of a lexer. -/
inductive LexerCall where
  | next | peek | all
deriving DecidableEq, Repr

/-- A lexer with its reports so far. -/
structure LexerSession where
  lexer : Lexer
  reported : List Diagnostic := []

namespace LexerSession

variable [Composing]

/-- A session at the start of a file. -/
def ofFile (f : File) : LexerSession := { lexer := .ofFile f }

/-- Takes the next token.  One that was looked ahead at has been reported then. -/
def next (s : LexerSession) : Lexed × LexerSession :=
  let (l, lexer) := s.lexer.next
  match s.lexer.look with
  | some _ => (l, { s with lexer })
  | none => (l, { lexer, reported := s.reported ++ l.diagnostic?.toList })

/-- Shows the next token without taking it. -/
def peek (s : LexerSession) : Lexed × LexerSession :=
  let (l, s) := s.next
  (l, { s with lexer := { s.lexer with look := some l } })

/-- Takes tokens up to the end of the file, at most `steps` of them. -/
def drain : (steps : Nat) → LexerSession → List Lexed × LexerSession
  | 0, s => ([], s)
  | steps + 1, s =>
    let (l, s) := s.next
    if l.token.kind = .eof then ([l], s)
    else
      let (ls, s) := drain steps s
      (l :: ls, s)

/-- Takes all tokens that are left, with the end of the file as the last. -/
def all (s : LexerSession) : List Lexed × LexerSession := s.drain (s.lexer.cursor.rest.length + 2)

/-- What a call answers with. -/
def call (s : LexerSession) : LexerCall → List Lexed × LexerSession
  | .next => let (l, s) := s.next; ([l], s)
  | .peek => let (l, s) := s.peek; ([l], s)
  | .all => s.all

/-- The answers to some calls, one after another. -/
def run (s : LexerSession) : List LexerCall → List (LexerCall × List Lexed) × LexerSession
  | [] => ([], s)
  | c :: cs =>
    let (ls, s) := s.call c
    let (answers, s) := s.run cs
    ((c, ls) :: answers, s)

end LexerSession

end ThreeAddress
