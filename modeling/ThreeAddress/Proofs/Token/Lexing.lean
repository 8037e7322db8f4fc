import Mathlib.Tactic.Common
import ThreeAddress.Token.Lexer

/-!
# Tokens of a file

A token is invalid exactly if the lexer found a problem with it.
-/

namespace ThreeAddress

namespace Lexeme

/-- A piece of text without a problem is of a valid class. -/
def Fine (l : Lexeme) : Prop := l.problem = none → l.kind ≠ .invalid

theorem fine_word (b : UInt8) (rest : Text) :
  (word b rest).Fine
  := by
  intro _
  have hkeywords : ∀ e ∈ TokenKind.keywords, e.2 ≠ .invalid := by decide
  rw [word]
  dsimp only
  cases hword : TokenKind.ofWord? (b :: rest.takeWhile isWordByte) with
  | none => simp
  | some kind =>
      obtain ⟨e, he, rfl⟩ := Option.map_eq_some_iff.mp hword
      apply hkeywords e (List.mem_of_find?_eq_some he)

theorem fine_number (b : UInt8) (rest : Text) :
  (number b rest).Fine
  := by
  intro h
  rw [number] at h ⊢
  dsimp only at h ⊢
  split at h
  · cases h
  · next hafter =>
    rw [if_neg hafter]
    simp

theorem fine_string (rest : Text) :
  (string rest).Fine
  := by
  intro h
  rw [string] at h ⊢
  split at h
  · simp
  · cases h
  · cases h

theorem fine_operator (b : UInt8) (rest : Text) :
  (operator b rest).Fine
  := by
  have hpairs : ∀ e ∈ pairOperators, e.2 ≠ .invalid := by decide
  have hsingles : ∀ e ∈ singleOperators, e.2 ≠ .invalid := by decide
  rw [operator]
  split
  · next kind hkind =>
    obtain ⟨c, -, hlookup⟩ := Option.bind_eq_some_iff.mp hkind
    obtain ⟨l₁, l₂, hsplit, -⟩ := List.lookup_eq_some_iff.mp hlookup
    intro _
    apply hpairs ((b, c), kind)
    simp [hsplit]
  · split
    · next kind hkind =>
      obtain ⟨l₁, l₂, hsplit, -⟩ := List.lookup_eq_some_iff.mp hkind
      intro _
      apply hsingles (b, kind)
      simp [hsplit]
    · intro h
      cases h

theorem fine_first (b : UInt8) (rest : Text) :
  (first b rest).Fine
  := by
  rw [first]
  split
  · apply fine_word
  · split
    · apply fine_number
    · split
      · apply fine_string
      · apply fine_operator

end Lexeme

variable [Composing]

namespace Lexer

/-- A token without a problem is valid. -/
theorem kind_scan_ne (c : Cursor) (h : (scan c).1.problem = none) :
  (scan c).1.token.kind ≠ .invalid
  := by
  rw [scan] at h ⊢
  split at h
  · simp
  · apply Lexeme.fine_first _ _ h

/-- Every token of a file is read at some place. -/
theorem exists_scan_of_mem_drain {steps : Nat} {lx : Lexer} (hlook : lx.look = none) {l : Lexed}
    (h : l ∈ (lx.drain steps).1) :
  ∃ c, l = (scan c).1
  := by
  induction steps generalizing lx with
  | zero => cases h
  | succ steps ih =>
      have hnext : lx.next = ((scan lx.cursor).1, { lx with cursor := (scan lx.cursor).2 }) := by
        rw [next, hlook]
      rw [drain, hnext] at h
      dsimp only at h
      split at h
      · exact ⟨_, List.mem_singleton.mp h⟩
      · obtain rfl | h := List.mem_cons.mp h
        · exact ⟨_, rfl⟩
        · apply ih _ h
          apply hlook

end Lexer

/-- A token of a file without a problem is valid. -/
theorem File.kind_lex_ne {f : File} {l : Lexed} (hl : l ∈ f.lex) (h : l.problem = none) :
  l.token.kind ≠ .invalid
  := by
  obtain ⟨c, rfl⟩ := Lexer.exists_scan_of_mem_drain rfl hl
  apply Lexer.kind_scan_ne c h

/-! ### The same content in another file -/

/-- The token as a token of a file. -/
def Token.inFile (file : FileId) (tok : Token) : Token :=
  { tok with span := { tok.span with file } }

/-- A token read, as a token of a file. -/
def Lexed.inFile (file : FileId) (l : Lexed) : Lexed := { l with token := l.token.inFile file }

/-- The same place in a file with the same content. -/
def Cursor.inFile (file : FileId) (c : Cursor) : Cursor := { c with file }

namespace Lexer

theorem scan_inFile (file : FileId) (c : Cursor) :
  scan (c.inFile file) = ((scan c).1.inFile file, (scan c).2.inFile file)
  := by
  have hstart : ((c.inFile file).skip (triviaLength (c.inFile file).rest))
      = (c.skip (triviaLength c.rest)).inFile file := rfl
  rw [scan, scan, hstart]
  generalize c.skip (triviaLength c.rest) = start
  have hrest : (start.inFile file).rest = start.rest := rfl
  rw [hrest]
  cases start.rest with
  | nil => rfl
  | cons b rest => rfl

theorem drain_inFile (file : FileId) (steps : Nat) (c : Cursor) :
  (drain steps { cursor := c.inFile file }).1
    = (drain steps { cursor := c }).1.map (Lexed.inFile file)
  := by
  induction steps generalizing c with
  | zero => rfl
  | succ steps ih =>
      have hnext : ∀ c : Cursor,
          next { cursor := c } = ((scan c).1, { cursor := (scan c).2 }) := fun _ => rfl
      rw [drain, drain, hnext, hnext, scan_inFile]
      dsimp only
      have hkind : ((scan c).1.inFile file).token.kind = (scan c).1.token.kind := rfl
      rw [hkind]
      split
      · rfl
      · rw [ih]
        rfl

end Lexer

/-- Files with the same content have the same tokens, each in its own file. -/
theorem File.lex_of_content_eq {f f' : File} (h : f'.content = f.content) :
  f'.lex = f.lex.map (Lexed.inFile f'.id)
  := by
  have hcursor : Cursor.ofFile f' = (Cursor.ofFile f).inFile f'.id := by
    rw [Cursor.ofFile, Cursor.ofFile, Cursor.inFile]
    congr 1
  rw [lex, lex, Lexer.all, Lexer.all, Lexer.ofFile, Lexer.ofFile, hcursor, Lexer.drain_inFile]
  rfl

end ThreeAddress
