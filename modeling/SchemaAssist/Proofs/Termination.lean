/-
# SchemaAssist.Proofs.Termination — every text is read to an end

Nothing but the characters and the tokens that are left bounds the reading of a text.

* The lexer takes a piece off the front in every turn (`LexedIn`, which has no bound).  A piece
  has a character and no more than are left, so there are at most as many turns as characters,
  and the last one gives the tokens or an error (`exists_lexedIn`).
* The parser takes a token in every turn of every loop and stops at the end of the tokens.  So
  every bound above their number does, and all such bounds give one answer: blocks up to the end,
  or a refusal in front of some of the tokens (`blocks_answer`).

`parse_concludes` puts them together: a text has a tree or an error, and the words that the
lexer looks up are those that the parser finds in its tokens.
-/
import SchemaAssist.Proofs.EarliestError
import SchemaAssist.Proofs.EditorLines
import SchemaAssist.Proofs.Token.Partition
import SchemaAssist.Proofs.Token.Words

namespace SchemaAssist

set_option autoImplicit false

open Grammar

/-! ## The turns of the lexer -/

/-- The lexer turn by turn: under `depth` open parentheses and brackets, `count` turns from
`mark` on take the text and have that outcome.  A turn takes the characters of one piece. -/
inductive LexedIn : (count depth : Nat) → Mark → List Char →
    Except SyntaxError TokenStream → Prop
  | done {depth : Nat} {mark : Mark} : LexedIn 0 depth mark [] (.ok ⟨[], mark⟩)
  | fault {depth : Nat} {mark : Mark} {c : Char} {tail : List Char} {fault : SyntaxFault} :
      pieceAt depth c tail = .error fault →
      LexedIn 1 depth mark (c :: tail) (.error ⟨fault, mark⟩)
  | piece {count depth : Nat} {mark : Mark} {c : Char} {tail chars rest : List Char}
      {piece : Piece} {outcome : Except SyntaxError TokenStream} :
      pieceAt depth c tail = .ok piece → c :: tail = chars ++ rest → chars.length = piece.length →
      LexedIn count (depthAfter depth piece.lexeme) (mark.behind chars) rest outcome →
      LexedIn (count + 1) depth mark (c :: tail) (outcome.map fun stream =>
        { stream with
          tokens := (Segment.token? ⟨mark, chars, piece.lexeme⟩).toList ++ stream.tokens })

/-- The characters that a turn takes are a segment. -/
theorem front_of_turn {depth : Nat} {c : Char} {tail chars rest : List Char} {piece : Piece}
    (read : pieceAt depth c tail = .ok piece) (shape : c :: tail = chars ++ rest)
    (length : chars.length = piece.length) : Front depth chars piece.lexeme rest := by
  obtain ⟨inner, behind, rfl, size, front⟩ := pieceAt_eq_ok.1 read
  rw [← List.cons_append] at shape
  obtain ⟨rfl, rfl⟩ := List.append_inj shape (by rw [length, size, List.length_cons])
  exact front

namespace LexedIn

variable {count depth : Nat} {mark : Mark} {text : List Char}
  {outcome : Except SyntaxError TokenStream}

/-- The turns come to the outcome of the lexer. -/
theorem outcome_eq (lexed : LexedIn count depth mark text outcome) :
    outcome = lexFrom depth mark 0 text := by
  induction lexed with
  | done => rfl
  | fault failed => rw [lexFrom, failed]
  | piece read shape length _ ih =>
      rw [shape, lexFrom_front (front_of_turn read shape length), ← ih]

/-- A turn takes at least one character. -/
theorem count_le (lexed : LexedIn count depth mark text outcome) : count ≤ text.length := by
  induction lexed with
  | done => exact Nat.le_refl _
  | fault _ => exact Nat.le_add_left _ _
  | piece read shape length _ ih =>
      obtain ⟨d, inner, rfl⟩ := (front_of_turn read shape length).cons
      rw [shape, List.length_append, List.length_cons]
      omega

/-- There is one way to take the turns. -/
theorem count_unique {other : Nat} {outcome' : Except SyntaxError TokenStream}
    (lexed : LexedIn count depth mark text outcome)
    (lexed' : LexedIn other depth mark text outcome') : count = other := by
  induction lexed generalizing other outcome' with
  | done =>
      cases lexed' with
      | done => rfl
  | fault failed =>
      cases lexed' with
      | fault _ => rfl
      | piece read _ _ _ => cases failed.symm.trans read
  | piece read shape length _ ih =>
      cases lexed' with
      | fault failed => cases failed.symm.trans read
      | piece read' shape' length' onward =>
          obtain rfl := Except.ok.inj (read.symm.trans read')
          obtain ⟨rfl, rfl⟩ := List.append_inj (shape.symm.trans shape')
            (length.trans length'.symm)
          rw [ih onward]

end LexedIn

/-- **The turns of the lexer come to an end.** -/
theorem exists_lexedIn (depth : Nat) (mark : Mark) (text : List Char) :
    ∃ count, LexedIn count depth mark text (lexFrom depth mark 0 text) := by
  induction depth, mark, text using front_induction with
  | done depth mark => exact ⟨0, .done⟩
  | fault depth mark c tail fault read =>
      have ends : LexedIn 1 depth mark (c :: tail) _ := .fault read
      exact ⟨1, ends.outcome_eq ▸ ends⟩
  | segment depth mark chars lexeme rest front ih =>
      obtain ⟨count, onward⟩ := ih
      obtain ⟨c, inner, rfl⟩ := front.cons
      have read : pieceAt depth c (inner ++ rest) = .ok ⟨lexeme, inner.length + 1⟩ :=
        pieceAt_eq_ok.2 ⟨inner, rest, rfl, rfl, front⟩
      have turn := LexedIn.piece read rfl rfl onward
      exact ⟨count + 1, turn.outcome_eq ▸ turn⟩

/-! ## The answer of the parser -/

/-- Blocks are read to the end of the tokens. -/
theorem blocks_done_rest {bound : Nat} {tokens rest : List Token} {list : List Block}
    (read : Reader.blocks bound tokens = .done list rest) (enough : tokens.length < bound) :
    rest = [] := by
  have derived := blocks_sound bound read
  cases derived with
  | intro allEnds isBlocks =>
      rw [List.length_append] at enough
      have whole := blocks_complete isBlocks allEnds bound (by omega)
      exact (Reading.done.inj (read.symm.trans whole)).2

/-- **Every bound above the number of tokens is enough**: the blocks are read to the end of the
tokens, or refused in front of some of them, and the tree or the error says which. -/
theorem blocks_answer (stream : TokenStream) {bound : Nat} (enough : stream.tokens.length < bound) :
    (∃ blocks, Reader.blocks bound stream.tokens = .done blocks [] ∧
      Schema.ofTokens stream = .ok ⟨blocks⟩) ∨
    ∃ why read rest, stream.tokens = read ++ rest ∧
      Reader.blocks bound stream.tokens = .refused why rest ∧
      Schema.ofTokens stream = .error (why.error stream.stop rest) := by
  obtain ⟨left, ended, -⟩ := ends_blocks stream.tokens.length stream.tokens (Nat.le_refl _)
  have same := blocks_bound enough
  cases reading : Reader.blocks (stream.tokens.length + 1) stream.tokens with
  | exhausted => simp [reading, Reading.rest?] at ended
  | done blocks rest =>
      obtain rfl := blocks_done_rest reading (Nat.lt_succ_self _)
      exact .inl ⟨blocks, same.trans reading, by rw [Schema.ofTokens, reading]⟩
  | refused why rest =>
      obtain ⟨read, shape, -⟩ := blocks_refused reading
      exact .inr ⟨why, read, rest, shape, same.trans reading, by rw [Schema.ofTokens, reading]⟩

/-! ## Texts -/

/-- The reading of a text comes to an end, with a tree or with an error. -/
structure Concludes (text : String) : Prop where
  /-- The lexer takes so many turns and no others, at most one for a character, and ends with the
  tokens of the text or with an error. -/
  lexer : ∃ turns, turns ≤ text.toList.length ∧ ∀ count outcome,
    LexedIn count 0 .start text.toList outcome ↔ count = turns ∧ outcome = TokenStream.ofText text
  /-- A name that the parser meets is a word of the text, and it is a block keyword exactly if
  the look-up of that word finds a kind of block, the same one. -/
  words : ∀ stream, TokenStream.ofText text = .ok stream → ∀ token ∈ stream.tokens, ∀ word,
    token.lexeme.name? = some word →
    word.toList <+: text.toList.drop (token.offsetIn text.toList) ∧
    ∀ kind, token.lexeme = .keyword kind ↔ BlockKind.ofKeyword? word = some kind
  /-- An error of the lexer is the error of the text. -/
  unlexed : ∀ error, TokenStream.ofText text = .error error → Schema.parse text = .error error
  /-- With every bound above the number of tokens the parser comes to the end of the tokens and
  gives the tree, or stops in front of some of them and gives an error. -/
  parser : ∀ stream, TokenStream.ofText text = .ok stream →
    ∀ bound, stream.tokens.length < bound →
      (∃ blocks, Reader.blocks bound stream.tokens = .done blocks [] ∧
        Schema.parse text = .ok ⟨blocks⟩) ∨
      ∃ why read rest, stream.tokens = read ++ rest ∧
        Reader.blocks bound stream.tokens = .refused why rest ∧
        Schema.parse text = .error (why.error stream.stop rest)

/-- **Every text is read to an end, with a tree or with an error.** -/
theorem parse_concludes (text : String) : Concludes text := by
  refine ⟨?_, ?_, ?_, ?_⟩
  · obtain ⟨turns, lexed⟩ := exists_lexedIn 0 .start text.toList
    refine ⟨turns, lexed.count_le, fun count outcome => ⟨fun other => ?_, ?_⟩⟩
    · exact ⟨other.count_unique lexed, other.outcome_eq⟩
    · rintro ⟨rfl, rfl⟩
      exact lexed
  · intro stream lexed token isIn word named
    obtain ⟨segments, segmented, rfl⟩ := ofText_eq_ok.1 lexed
    obtain ⟨front, chars, rest, depth, shape, place, isFront⟩ := segmented.exists_at isIn
    have offset : token.offsetIn text.toList = front.length := by
      rw [Token.offsetIn, place, shape, Mark.offsetIn_behind]
    refine ⟨?_, fun kind => ?_⟩
    · rw [offset, shape, List.drop_left, (isFront.name named).1]
      exact List.prefix_append _ _
    · rw [isFront.eq_wordLexeme named, wordLexeme_eq_keyword]
  · intro error failed
    rw [Schema.parse, failed]
  · intro stream lexed bound enough
    rw [Schema.parse, lexed]
    exact blocks_answer stream enough

end SchemaAssist
