import ThreeAddress.Proofs.Text.Glyphs
import ThreeAddress.Token.Lexer

/-!
# Pieces of a text

What a token is made of is described by the bytes of the token and the bytes that follow it: a run
of a class of bytes is as long as possible, a string ends at the first quote on its line, and an
operator of two bytes is preferred to one of one byte.  `Piece` lists these descriptions, and
`Lexeme.first` reads from a text the one piece that the text starts with.  In the same way `Trivia`
describes the blanks and comments that `triviaLength` skips.
-/

namespace ThreeAddress

/-! ### Runs -/

/-- The bytes `run` are of a class, and the bytes `rest` do not continue them. -/
structure IsRun (p : UInt8 → Bool) (run rest : Text) : Prop where
  all : ∀ b ∈ run, p b
  ends : ∀ b ∈ rest.head?, p b = false

namespace IsRun

variable {p : UInt8 → Bool} {run rest : Text}

theorem takeWhile_eq (h : IsRun p run rest) :
  (run ++ rest).takeWhile p = run
  := by
  rw [List.takeWhile_append_of_pos h.all]
  cases rest with
  | nil => simp
  | cons b rest => simp [h.ends b rfl]

/-- Every text starts with a run of each class. -/
theorem exists_of_text (p : UInt8 → Bool) (t : Text) :
  ∃ run rest, t = run ++ rest ∧ IsRun p run rest
  := by
  induction t with
  | nil => exact ⟨[], [], rfl, by simp, by simp⟩
  | cons b t ih =>
      cases hb : p b with
      | false => exact ⟨[], b :: t, rfl, by simp, by simp [hb]⟩
      | true =>
          obtain ⟨run, rest, rfl, hrun⟩ := ih
          use b :: run, rest, rfl
          constructor
          · simpa [hb] using hrun.all
          · apply hrun.ends

end IsRun

/-! ### Tokens -/

/-- The bytes `b` and `c` are no operator of two bytes. -/
def NoPair (b : UInt8) (rest : Text) : Prop :=
  ∀ c ∈ rest.head?, ∀ kind, ((b, c), kind) ∉ pairOperators

/-- The bytes of a token, its class and its problem, before the bytes that follow it. -/
inductive Piece : TokenKind → Option LexProblem → Text → Text → Prop
  | word {b : UInt8} {w rest : Text} (hb : isWordStart b) (hw : IsRun isWordByte w rest) :
    Piece ((TokenKind.ofWord? (b :: w)).getD .ident) none (b :: w) rest
  | number {b : UInt8} {w rest : Text} (hb : isDigitByte b) (hw : IsRun isDigitByte w rest)
      (hend : ∀ c ∈ rest.head?, isWordStart c = false) :
    Piece .number none (b :: w) rest
  | badNumber {b c : UInt8} {w v rest : Text} (hb : isDigitByte b) (hw : ∀ d ∈ w, isDigitByte d)
      (hc : isWordStart c) (hv : IsRun isWordByte v rest) :
    Piece .invalid (some (.badNumber (b :: (w ++ c :: v)))) (b :: (w ++ c :: v)) rest
  | string {body rest : Text} (hquote : 34 ∉ body) (hline : 10 ∉ body) :
    Piece .string none (34 :: (body ++ [34])) rest
  | newlineInString {body rest : Text} (hquote : 34 ∉ body) (hline : 10 ∉ body) :
    Piece .invalid (some .newlineInString) (34 :: body) (10 :: rest)
  | unterminatedString {body : Text} (hquote : 34 ∉ body) (hline : 10 ∉ body) :
    Piece .invalid (some .unterminatedString) (34 :: body) []
  | pair {b c : UInt8} {kind : TokenKind} {rest : Text}
      (hpair : ((b, c), kind) ∈ pairOperators) :
    Piece kind none [b, c] rest
  | single {b : UInt8} {kind : TokenKind} {rest : Text} (hsingle : (b, kind) ∈ singleOperators)
      (hpair : NoPair b rest) :
    Piece kind none [b] rest
  | unknownChar {b : UInt8} {t rest : Text} (hword : isWordStart b = false)
      (hdigit : isDigitByte b = false) (hquote : b ≠ 34) (hpair : NoPair b t)
      (hsingle : ∀ kind, (b, kind) ∉ singleOperators)
      (ht : b :: t = (Glyph.first b t).bytes ++ rest) :
    Piece .invalid (some (.unknownChar (Glyph.first b t).code)) (Glyph.first b t).bytes rest

/-! #### The piece at the front of a text -/

/-- A lexeme describes the piece of a text that is as long as it says. -/
def Lexeme.Describes (l : Lexeme) (t : Text) : Prop :=
  ∃ piece rest, t = piece ++ rest ∧ piece.length = l.size ∧ Piece l.kind l.problem piece rest

/-- The bytes of a string between its quotes. -/
theorem exists_body (t : Text) :
  ∃ body rest, t = body ++ rest ∧ 34 ∉ body ∧ 10 ∉ body ∧
    IsRun (fun b => b != 34 && b != 10) body rest
  := by
  obtain ⟨body, rest, rfl, hbody⟩ := IsRun.exists_of_text (fun b => b != 34 && b != 10) t
  refine ⟨body, rest, rfl, ?_, ?_, hbody⟩
  · intro h
    simpa using hbody.all _ h
  · intro h
    simpa using hbody.all _ h

theorem isRun_body {body rest : Text} (hquote : 34 ∉ body) (hline : 10 ∉ body)
    (hrest : ∀ b ∈ rest.head?, b = 34 ∨ b = 10) :
  IsRun (fun b => b != 34 && b != 10) body rest
  := by
  constructor
  · intro b hb
    have h34 : b ≠ 34 := fun h => hquote (h ▸ hb)
    have h10 : b ≠ 10 := fun h => hline (h ▸ hb)
    simp [h34, h10]
  · intro b hb
    obtain rfl | rfl := hrest b hb <;> rfl

/-- In a table where every entry is found under its key, an entry is found exactly if it is
there. -/
theorem lookup_eq_some_iff_mem {α β : Type} [BEq α] [LawfulBEq α] {l : List (α × β)}
    (hl : ∀ e ∈ l, l.lookup e.1 = some e.2) {a : α} {b : β} :
  l.lookup a = some b ↔ (a, b) ∈ l
  := by
  constructor
  · intro h
    obtain ⟨l₁, l₂, rfl, -⟩ := List.lookup_eq_some_iff.mp h
    simp
  · intro h
    apply hl _ h

theorem lookup_pair_iff {b c : UInt8} {kind : TokenKind} :
  pairOperators.lookup (b, c) = some kind ↔ ((b, c), kind) ∈ pairOperators
  := by
  apply lookup_eq_some_iff_mem
  decide

theorem lookup_single_iff {b : UInt8} {kind : TokenKind} :
  singleOperators.lookup b = some kind ↔ (b, kind) ∈ singleOperators
  := by
  apply lookup_eq_some_iff_mem
  decide

theorem noPair_iff {b : UInt8} {rest : Text} :
  (rest.head?.bind fun c => pairOperators.lookup (b, c)) = none ↔ NoPair b rest
  := by
  rw [Option.bind_eq_none_iff]
  simp only [NoPair, ← lookup_pair_iff, Option.eq_none_iff_forall_ne_some, Option.mem_def, ne_eq]

theorem isWordStart_of_isDigitByte {b : UInt8} (h : isDigitByte b) :
  isWordStart b = false
  := by
  simp only [isDigitByte, isWordStart, Bool.and_eq_true, decide_eq_true_eq, Bool.or_eq_false_iff,
    Bool.and_eq_false_iff, decide_eq_false_iff_not, UInt8.le_iff_toNat_le, beq_eq_false_iff_ne,
    ne_eq, ← UInt8.toNat_inj, UInt8.reduceToNat] at h ⊢
  omega

namespace Lexeme

theorem describes_word (b : UInt8) (t : Text) (hb : isWordStart b) :
  (word b t).Describes (b :: t)
  := by
  obtain ⟨w, rest, rfl, hw⟩ := IsRun.exists_of_text isWordByte t
  rw [word, hw.takeWhile_eq]
  exact ⟨b :: w, rest, rfl, rfl, .word hb hw⟩

theorem number_of_isRun {b : UInt8} {w rest : Text} (hw : IsRun isDigitByte w rest)
    (hend : ∀ c ∈ rest.head?, isWordStart c = false) :
  number b (w ++ rest) = ⟨.number, w.length + 1, none⟩
  := by
  have hhead : isWordStart (rest.headD 0) = false := by
    cases rest with
    | nil => rfl
    | cons c rest => exact hend c rfl
  rw [number, hw.takeWhile_eq, List.drop_left]
  dsimp only
  rw [hhead, if_neg Bool.false_ne_true, Nat.add_comm]

theorem number_of_letter {b c : UInt8} {w v rest : Text} (hw : ∀ d ∈ w, isDigitByte d)
    (hc : isWordStart c) (hv : IsRun isWordByte v rest) :
  number b (w ++ c :: (v ++ rest))
    = ⟨.invalid, (b :: (w ++ c :: v)).length, some (.badNumber (b :: (w ++ c :: v)))⟩
  := by
  have hdigits : IsRun isDigitByte w (c :: (v ++ rest)) := by
    refine ⟨hw, ?_⟩
    rintro d ⟨⟩
    cases hd : isDigitByte c with
    | false => rfl
    | true =>
        rw [isWordStart_of_isDigitByte hd] at hc
        cases hc
  have hcword : isWordByte c := by simp [isWordByte, hc]
  rw [number, hdigits.takeWhile_eq, List.drop_left]
  simp [hc, List.takeWhile_cons_of_pos hcword, hv.takeWhile_eq]

theorem describes_number (b : UInt8) (t : Text) (hb : isDigitByte b) :
  (number b t).Describes (b :: t)
  := by
  obtain ⟨w, rest, rfl, hw⟩ := IsRun.exists_of_text isDigitByte t
  by_cases hend : ∀ c ∈ rest.head?, isWordStart c = false
  · rw [number_of_isRun hw hend]
    exact ⟨b :: w, rest, rfl, rfl, .number hb hw hend⟩
  · obtain ⟨c, hhead, hc⟩ : ∃ c ∈ rest.head?, isWordStart c ≠ false := by simpa using hend
    obtain ⟨rest, rfl⟩ := List.head?_eq_some_iff.mp hhead
    obtain ⟨v, rest, rfl, hv⟩ := IsRun.exists_of_text isWordByte rest
    rw [ne_eq, Bool.not_eq_false] at hc
    rw [number_of_letter hw.all hc hv]
    exact ⟨b :: (w ++ c :: v), rest, by simp, rfl, .badNumber hb hw.all hc hv⟩

/-- A string is closed by a quote, and broken off by the end of its line or of the text. -/
theorem string_append (body rest : Text) :
  IsRun (fun b => b != 34 && b != 10) body rest → string (body ++ rest)
    = match rest with
      | 34 :: _ => ⟨.string, body.length + 2, none⟩
      | _ :: _ => ⟨.invalid, body.length + 1, some .newlineInString⟩
      | [] => ⟨.invalid, body.length + 1, some .unterminatedString⟩
  := by
  intro hbody
  rw [string, hbody.takeWhile_eq, List.drop_left]
  rfl

theorem describes_string (t : Text) :
  (string t).Describes (34 :: t)
  := by
  obtain ⟨body, rest, rfl, hquote, hline, hbody⟩ := exists_body t
  rw [string_append body rest hbody]
  cases rest with
  | nil => exact ⟨34 :: body, [], rfl, rfl, .unterminatedString hquote hline⟩
  | cons b rest =>
      have hb := hbody.ends b rfl
      by_cases h34 : b = 34
      · subst h34
        exact ⟨34 :: (body ++ [34]), rest, by simp, by simp, .string hquote hline⟩
      · have h10 : b = 10 := by simpa [h34] using hb
        subst h10
        exact ⟨34 :: body, 10 :: rest, rfl, rfl, .newlineInString hquote hline⟩

theorem describes_operator (b : UInt8) (t : Text) (hword : isWordStart b = false)
    (hdigit : isDigitByte b = false) (hquote : b ≠ 34) :
  (operator b t).Describes (b :: t)
  := by
  rw [operator]
  split
  · next kind hkind =>
    obtain ⟨c, hc, hlookup⟩ := Option.bind_eq_some_iff.mp hkind
    obtain ⟨rest, rfl⟩ := List.head?_eq_some_iff.mp hc
    exact ⟨[b, c], rest, rfl, rfl, .pair (lookup_pair_iff.mp hlookup)⟩
  · next hpair =>
    split
    · next kind hkind =>
      exact ⟨[b], t, rfl, rfl, .single (lookup_single_iff.mp hkind) (noPair_iff.mp hpair)⟩
    · next hsingle =>
      obtain ⟨rest, ht, -⟩ := Glyph.exists_bytes_first b t
      refine ⟨_, rest, ht, rfl, .unknownChar hword hdigit hquote (noPair_iff.mp hpair) ?_ ht⟩
      intro kind hkind
      rw [lookup_single_iff.mpr hkind] at hsingle
      cases hsingle

/-- A text that is not empty starts with the piece that is read from it. -/
theorem describes_first (b : UInt8) (t : Text) :
  (first b t).Describes (b :: t)
  := by
  rw [first]
  split
  · next hb =>
    apply describes_word b t hb
  · next hword =>
    split
    · next hb =>
      apply describes_number b t hb
    · next hdigit =>
      split
      · next hb =>
        subst hb
        apply describes_string
      · next hquote =>
        apply describes_operator b t _ _ hquote
        · simpa using hword
        · simpa using hdigit

theorem first_quote (t : Text) :
  first 34 t = string t
  := rfl

theorem first_operator {b : UInt8} {t : Text}
    (h : b ∈ singleOperators.map (·.1) ∨ b ∈ pairOperators.map (·.1.1)) :
  first b t = operator b t
  := by
  have hsingles : ∀ e ∈ singleOperators,
      isWordStart e.1 = false ∧ isDigitByte e.1 = false ∧ e.1 ≠ 34 := by decide
  have hpairs : ∀ e ∈ pairOperators,
      isWordStart e.1.1 = false ∧ isDigitByte e.1.1 = false ∧ e.1.1 ≠ 34 := by decide
  obtain ⟨hword, hdigit, hquote⟩ : isWordStart b = false ∧ isDigitByte b = false ∧ b ≠ 34 := by
    obtain h | h := h
    · obtain ⟨e, he, rfl⟩ := List.mem_map.mp h
      exact hsingles e he
    · obtain ⟨e, he, rfl⟩ := List.mem_map.mp h
      exact hpairs e he
  simp [first, hword, hdigit, hquote]

theorem operator_of_pair {b c : UInt8} {kind : TokenKind} {rest : Text}
    (h : ((b, c), kind) ∈ pairOperators) :
  operator b (c :: rest) = ⟨kind, 2, none⟩
  := by
  rw [operator, List.head?_cons, Option.bind_some, lookup_pair_iff.mpr h]

theorem operator_of_single {b : UInt8} {kind : TokenKind} {rest : Text}
    (h : (b, kind) ∈ singleOperators) (hpair : NoPair b rest) :
  operator b rest = ⟨kind, 1, none⟩
  := by
  rw [operator, noPair_iff.mpr hpair, lookup_single_iff.mpr h]

theorem operator_of_unknown {b : UInt8} {t : Text} (hpair : NoPair b t)
    (hsingle : ∀ kind, (b, kind) ∉ singleOperators) :
  operator b t
    = ⟨.invalid, (Glyph.first b t).bytes.length, some (.unknownChar (Glyph.first b t).code)⟩
  := by
  have hlookup : singleOperators.lookup b = none := by
    rw [Option.eq_none_iff_forall_ne_some]
    intro kind hkind
    exact hsingle kind (lookup_single_iff.mp hkind)
  rw [operator, noPair_iff.mpr hpair, hlookup]

end Lexeme

namespace Piece

variable {kind : TokenKind} {problem : Option LexProblem} {piece rest : Text}

theorem ne_nil (h : Piece kind problem piece rest) :
  piece ≠ []
  := by
  cases h with
  | unknownChar hword hdigit hquote hpair hsingle ht =>
      obtain ⟨-, -, hbytes⟩ := Glyph.exists_bytes_first _ _
      exact hbytes
  | _ => simp

/-- A piece is invalid exactly if it has a problem, and it is never the end of the file. -/
theorem kind_class (h : Piece kind problem piece rest) :
  (kind = .invalid ↔ problem.isSome) ∧ kind ≠ .eof
  := by
  have hkeywords : ∀ e ∈ TokenKind.keywords, e.2 ≠ .invalid ∧ e.2 ≠ .eof := by decide
  have hpairs : ∀ e ∈ pairOperators, e.2 ≠ .invalid ∧ e.2 ≠ .eof := by decide
  have hsingles : ∀ e ∈ singleOperators, e.2 ≠ .invalid ∧ e.2 ≠ .eof := by decide
  cases h with
  | @word b w rest hb hw =>
      cases hword : TokenKind.ofWord? (b :: w) with
      | none => simp
      | some kind =>
          obtain ⟨e, he, rfl⟩ := Option.map_eq_some_iff.mp hword
          simpa using hkeywords e (List.mem_of_find?_eq_some he)
  | pair hpair => simpa using hpairs _ hpair
  | single hsingle hpair => simpa using hsingles _ hsingle
  | _ => simp

/-- A piece that is a string has quotes around it, and no quote and no newline between them. -/
theorem string_cases (h : Piece kind none piece rest) (hkind : kind = .string) :
  ∃ body : Text, piece = 34 :: (body ++ [34]) ∧ body.Unbroken
  := by
  have hkeywords : ∀ e ∈ TokenKind.keywords, e.2 ≠ .string := by decide
  have hpairs : ∀ e ∈ pairOperators, e.2 ≠ .string := by decide
  have hsingles : ∀ e ∈ singleOperators, e.2 ≠ .string := by decide
  cases h with
  | @word b w _ hb hw =>
      cases hword : TokenKind.ofWord? (b :: w) with
      | none =>
          rw [hword] at hkind
          cases hkind
      | some kind =>
          obtain ⟨e, he, rfl⟩ := Option.map_eq_some_iff.mp hword
          rw [hword] at hkind
          exact absurd hkind (hkeywords e (List.mem_of_find?_eq_some he))
  | number => cases hkind
  | @string body _ hquote hline => exact ⟨body, rfl, hquote, hline⟩
  | pair hpair => exact absurd hkind (hpairs _ hpair)
  | single hsingle hpair => exact absurd hkind (hsingles _ hsingle)

/-- A piece is the same piece before everything that neither continues a word nor makes an operator
of one byte one of two bytes. -/
theorem before {rest' : Text} (h : Piece kind none piece rest)
    (hkind : ∀ b, (b, kind) ∈ singleOperators → NoPair b rest')
    (hrest : ∀ b ∈ rest'.head?, isWordByte b = false) :
  Piece kind none piece rest'
  := by
  have hword : ∀ b, isWordByte b = false → isWordStart b = false ∧ isDigitByte b = false := by
    intro b hb
    simpa [isWordByte] using hb
  cases h with
  | word hb hw => exact .word hb ⟨hw.all, hrest⟩
  | number hb hw hend =>
      refine .number hb ⟨hw.all, ?_⟩ ?_
      · exact fun b hb => (hword b (hrest b hb)).2
      · exact fun b hb => (hword b (hrest b hb)).1
  | string hquote hline => exact .string hquote hline
  | pair hpair => exact .pair hpair
  | single hsingle hpair => exact .single hsingle (hkind _ hsingle)

/-- Before what follows it, a piece is what is read from the text. -/
theorem first_eq {b : UInt8} {t : Text} (h : Piece kind problem piece rest)
    (ht : piece ++ rest = b :: t) :
  Lexeme.first b t = ⟨kind, piece.length, problem⟩
  := by
  cases h with
  | word hb hw =>
      obtain ⟨rfl, rfl⟩ := by simpa using ht
      rw [Lexeme.first, if_pos hb, Lexeme.word, hw.takeWhile_eq]
  | number hb hw hend =>
      obtain ⟨rfl, rfl⟩ := by simpa using ht
      rw [Lexeme.first, if_neg (by simp [isWordStart_of_isDigitByte hb]), if_pos hb,
        Lexeme.number_of_isRun hw hend, List.length_cons]
  | badNumber hb hw hc hv =>
      obtain ⟨rfl, rfl⟩ := by simpa using ht
      rw [Lexeme.first, if_neg (by simp [isWordStart_of_isDigitByte hb]), if_pos hb,
        Lexeme.number_of_letter hw hc hv]
  | string hquote hline =>
      obtain ⟨rfl, rfl⟩ := by simpa using ht
      rw [Lexeme.first_quote, Lexeme.string_append _ _ (isRun_body hquote hline (by simp))]
      simp
  | newlineInString hquote hline =>
      obtain ⟨rfl, rfl⟩ := by simpa using ht
      rw [Lexeme.first_quote, Lexeme.string_append _ _ (isRun_body hquote hline (by simp))]
      rfl
  | unterminatedString hquote hline =>
      obtain ⟨rfl, rfl⟩ := by simpa using ht
      have hbody : IsRun _ _ [] := isRun_body hquote hline (by simp)
      rw [Lexeme.first_quote]
      simpa using Lexeme.string_append _ _ hbody
  | pair hpair =>
      obtain ⟨rfl, rfl⟩ := by simpa using ht
      rw [Lexeme.first_operator (.inr (List.mem_map_of_mem hpair)), Lexeme.operator_of_pair hpair]
      rfl
  | single hsingle hpair =>
      obtain ⟨rfl, rfl⟩ := by simpa using ht
      rw [Lexeme.first_operator (.inl (List.mem_map_of_mem hsingle)),
        Lexeme.operator_of_single hsingle hpair]
      rfl
  | unknownChar hword hdigit hquote hpair hsingle htext =>
      obtain ⟨rfl, rfl⟩ := List.cons.inj (htext.trans ht)
      rw [Lexeme.first]
      simp [hword, hdigit, hquote, Lexeme.operator_of_unknown hpair hsingle]

end Piece

/-! ### Between tokens -/

/-- Blanks and comments before the bytes `after`.  A comment runs up to a newline or up to the end
of the text. -/
inductive Trivia : Text → Text → Prop
  | nil {after : Text} :
    Trivia [] after
  | blank {b : UInt8} {gap after : Text} (hb : isBlankByte b) (hgap : Trivia gap after) :
    Trivia (b :: gap) after
  | comment {body gap after : Text} (hbody : 10 ∉ body)
      (hend : ∀ b ∈ (gap ++ after).head?, b = 10) (hgap : Trivia gap after) :
    Trivia (47 :: 47 :: (body ++ gap)) after

/-- Neither a blank nor a comment stands at the front of a text. -/
structure Solid (t : Text) : Prop where
  blank : ∀ b ∈ t.head?, isBlankByte b = false
  comment : ∀ body, t ≠ 47 :: 47 :: body

theorem Solid.triviaLength_eq {t : Text} (h : Solid t) :
  triviaLength t = 0
  := by
  fun_cases triviaLength t with
  | case1 => rfl
  | case2 b rest hb => simp [h.blank b rfl] at hb
  | case3 body => exact absurd rfl (h.comment _)
  | case4 => rfl

theorem commentLength_append {body rest : Text} (hbody : 10 ∉ body)
    (hend : ∀ b ∈ rest.head?, b = 10) :
  commentLength (body ++ rest) = body.length
  := by
  have hrun : IsRun (· != 10) body rest := by
    constructor
    · intro b hb
      have h10 : b ≠ 10 := fun h => hbody (h ▸ hb)
      simpa using h10
    · intro b hb
      simpa using hend b hb
  rw [commentLength, hrun.takeWhile_eq]

/-- Before a solid text, all blanks and comments are skipped. -/
theorem Trivia.triviaLength_append {gap after : Text} (hgap : Trivia gap after)
    (hafter : Solid after) :
  triviaLength (gap ++ after) = gap.length
  := by
  induction hgap with
  | nil => exact hafter.triviaLength_eq
  | blank hb hgap ih =>
      rw [List.cons_append, triviaLength.eq_def]
      simp only [hb, if_true, ih hafter, List.length_cons]
      omega
  | comment hbody hend hgap ih =>
      simp only [List.cons_append, List.append_assoc]
      rw [triviaLength, if_neg (by decide)]
      simp only [commentLength_append hbody hend, List.drop_left, ih hafter, List.length_cons,
        List.length_append]
      omega

/-- A text starts with blanks and comments, and what follows is solid. -/
theorem exists_trivia (t : Text) :
  ∃ gap after, t = gap ++ after ∧ Trivia gap after ∧ Solid after
  := by
  fun_induction triviaLength t with
  | case1 => exact ⟨[], [], rfl, .nil, by simp, by simp⟩
  | case2 b rest hb ih =>
      obtain ⟨gap, after, rfl, hgap, hafter⟩ := ih
      exact ⟨b :: gap, after, rfl, .blank hb hgap, hafter⟩
  | case3 body n hb ih =>
      obtain ⟨gap, after, hdrop, hgap, hafter⟩ := ih
      obtain ⟨run, rest, rfl, hrun⟩ := IsRun.exists_of_text (· != 10) body
      have hn : n = run.length := by rw [← hrun.takeWhile_eq]; rfl
      rw [hn, List.drop_left] at hdrop
      subst hdrop
      refine ⟨47 :: 47 :: (run ++ gap), after, by simp, .comment ?_ ?_ hgap, hafter⟩
      · intro h
        simpa using hrun.all _ h
      · intro b hb
        simpa using hrun.ends b hb
  | case4 b rest hb hslash =>
      refine ⟨[], b :: rest, rfl, .nil, ?_, ?_⟩
      · simpa using hb
      · intro body h
        obtain ⟨rfl, rfl⟩ := List.cons.inj h
        exact hslash _ rfl rfl

end ThreeAddress
