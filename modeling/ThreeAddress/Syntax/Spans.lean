import ThreeAddress.Source.File
import ThreeAddress.Syntax.Expr

/-!
# Spans of statements

The check that the spans of a program fit its file: the program lies within the content, every
statement has a non-empty span of the same file, and it lies inside the statement around it.
-/

namespace ThreeAddress

/-- What is wrong with a span. -/
inductive SpanProblem where
  | noFile
  | programFile (got want : FileId)
  | programEnd (got size : Nat)
  | noStatement (id : StmtId)
  | empty (kind : Text) (span : Span)
  | otherFile (kind : Text) (got want : FileId)
  | outside (kind : Text) (span parent : Span)
deriving DecidableEq, Repr

namespace SpanProblem

/-- The wording of the problem. -/
def message : SpanProblem → Text
  | noFile => "nil builder or file"
  | programFile got want =>
    "program span points to different file id: got=" ++ Text.ofNat got.toNat ++ " want=" ++
      Text.ofNat want.toNat
  | programEnd got size =>
    "program span end beyond content: " ++ Text.ofNat got ++ " > " ++ Text.ofNat size
  | noStatement id => "nil statement for id=" ++ Text.ofNat id
  | empty kind span => "empty " ++ kind ++ " span: " ++ span.text
  | otherFile kind got want =>
    kind ++ " span file mismatch: got=" ++ Text.ofNat got.toNat ++ " want=" ++
      Text.ofNat want.toNat
  | outside kind span parent =>
    kind ++ " span " ++ span.text ++ " is outside parent span " ++ parent.text

end SpanProblem

namespace Stmt

/-- What is wrong with a statement's own span. -/
def spanProblem? (file : FileId) (parent : Span) (s : Stmt) : Option SpanProblem :=
  let sp := s.span
  if sp.stop ≤ sp.start then some (.empty s.kindName sp)
  else if sp.file ≠ file then some (.otherFile s.kindName sp.file file)
  else if sp.start < parent.start || parent.stop < sp.stop then
    some (.outside s.kindName sp parent)
  else none

mutual

/-- The first problem in a statement and the statements inside it. -/
def checkSpans (file : FileId) (parent : Span) : Stmt → Option SpanProblem
  | missing id => some (.noStatement id)
  | s@(ifElse sp _ thenBody elseBody _) =>
    (s.spanProblem? file parent).orElse fun _ =>
      (checkAllSpans file sp thenBody).orElse fun _ => checkAllSpans file sp elseBody
  | s@(.while sp _ body) =>
    (s.spanProblem? file parent).orElse fun _ => checkAllSpans file sp body
  | s@(function sp _ _ _ body) =>
    (s.spanProblem? file parent).orElse fun _ => checkAllSpans file sp body
  | s => s.spanProblem? file parent

/-- The first problem in a list of statements. -/
def checkAllSpans (file : FileId) (parent : Span) : List Stmt → Option SpanProblem
  | [] => none
  | s :: rest => (checkSpans file parent s).orElse fun _ => checkAllSpans file parent rest

end

end Stmt

/-- The first problem with the spans of a program. -/
def Tree.checkSpans (t : Tree) (file : Option File) : Option SpanProblem :=
  match file with
  | none => some .noFile
  | some f =>
    if t.program.isEmpty then none
    else if t.span.file ≠ f.id then some (.programFile t.span.file f.id)
    else if f.content.length < t.span.stop.toNat then
      some (.programEnd t.span.stop.toNat f.content.length)
    else Stmt.checkAllSpans f.id t.span t.statements

end ThreeAddress
