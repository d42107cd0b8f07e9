/-
# SchemaAssist.Proofs.Token.Segments — a text as a row of segments

The lexer walks character by character; here the same text is cut into segments,
each a gap or the spelling of one lexeme with the place where it starts.

`Front depth chars lexeme rest` is the lexical grammar: `chars` is the segment at the
front of `chars ++ rest`.  It looks at `rest` for its first character only, and that
a line feed or the end of the text never prolongs a segment (`Front.retail`) is the
one fact about look-ahead that the rest of the theory uses.

`Segmented` cuts a whole text, `front_induction` takes its segments off one by one,
`ofText_eq_ok` says that its lexemes are the tokens of the text, and
`Segmented.append_iff` that a text may be cut anew in front of any line feed where a
segment ends.
-/
import SchemaAssist.Token.Lexer
import SchemaAssist.Proofs.Grammar.Relocation
import Mathlib.Tactic.Common

namespace SchemaAssist

set_option autoImplicit false

open Text

/-! ## Fronts -/

/-- The body of a string as it is written, and its text. -/
inductive Quoted : List Char → List Char → Prop
  | done : Quoted [] []
  | escaped {c : Char} {body text : List Char} :
      Quoted body text → Quoted ('\\' :: c :: body) (unescape c :: text)
  | plain {c : Char} {body text : List Char} :
      c ≠ '"' → c ≠ '\n' → c ≠ '\\' → Quoted body text → Quoted (c :: body) (c :: text)

theorem ne_slash_of_rest {c : Char} {rest : List Char} (noEnd : c = '\\' → rest = [] → False)
    (noEscape : ∀ d behind, c = '\\' → rest = d :: behind → False) : c ≠ '\\' := by
  intro slash
  cases rest with
  | nil => exact noEnd slash rfl
  | cons d behind => exact noEscape d behind slash rfl

theorem stringBody_plain {c : Char} (noQuote : c ≠ '"') (noFeed : c ≠ '\n') (noSlash : c ≠ '\\')
    (rest : List Char) :
    stringBody (c :: rest) =
      (stringBody rest).map fun (text, length) => (c :: text, length + 1) := by
  rw [stringBody]
  · exact noQuote
  · exact noFeed
  · exact fun slash => absurd slash noSlash
  · exact fun _ _ slash => absurd slash noSlash

theorem stringBody_append {body text : List Char} (quoted : Quoted body text)
    (rest : List Char) : stringBody (body ++ '"' :: rest) = some (text, body.length + 1) := by
  induction quoted with
  | done => simp [stringBody]
  | escaped _ ih => simp [stringBody, ih]
  | plain noQuote noFeed noSlash _ ih =>
      simp [stringBody_plain noQuote noFeed noSlash, ih]

theorem stringBody_eq_some {tail text : List Char} {length : Nat}
    (read : stringBody tail = some (text, length)) :
    ∃ body rest, tail = body ++ '"' :: rest ∧ Quoted body text ∧ length = body.length + 1 := by
  fun_induction stringBody tail generalizing text length with
  | case1 => simp at read
  | case2 rest =>
      simp only [Option.some.injEq, Prod.mk.injEq] at read
      obtain ⟨rfl, rfl⟩ := read
      exact ⟨[], rest, rfl, .done, rfl⟩
  | case3 => simp at read
  | case4 => simp at read
  | case5 c rest ih =>
      obtain ⟨⟨text', length'⟩, found, same⟩ := Option.map_eq_some_iff.1 read
      obtain ⟨rfl, rfl⟩ := Prod.mk.inj same
      obtain ⟨body, behind, rfl, quoted, rfl⟩ := ih found
      exact ⟨'\\' :: c :: body, behind, rfl, .escaped quoted, rfl⟩
  | case6 c rest noQuote noFeed noEnd noSlash ih =>
      have notSlash := ne_slash_of_rest noEnd noSlash
      obtain ⟨⟨text', length'⟩, found, same⟩ := Option.map_eq_some_iff.1 read
      obtain ⟨rfl, rfl⟩ := Prod.mk.inj same
      obtain ⟨body, behind, rfl, quoted, rfl⟩ := ih found
      exact ⟨c :: body, behind, rfl, .plain noQuote noFeed notSlash quoted, rfl⟩

/-- What is left of a text where a string has been broken off: nothing but perhaps a backslash, or
the rest behind the end of the line. -/
def BreaksOff (rest : List Char) : Prop :=
  rest = [] ∨ rest = ['\\'] ∨ rest.head? = some '\n'

/-- A string has no end if it is broken off, and only then. -/
theorem stringBody_eq_none {tail : List Char} :
    stringBody tail = none ↔
      ∃ body text rest, tail = body ++ rest ∧ Quoted body text ∧ BreaksOff rest := by
  constructor
  · intro unread
    fun_induction stringBody tail with
    | case1 => exact ⟨[], [], [], rfl, .done, .inl rfl⟩
    | case2 => cases unread
    | case3 rest => exact ⟨[], [], '\n' :: rest, rfl, .done, .inr (.inr rfl)⟩
    | case4 => exact ⟨[], [], ['\\'], rfl, .done, .inr (.inl rfl)⟩
    | case5 c rest ih =>
        obtain ⟨body, text, behind, rfl, quoted, ends⟩ := ih (Option.map_eq_none_iff.1 unread)
        exact ⟨'\\' :: c :: body, _, behind, rfl, .escaped quoted, ends⟩
    | case6 c rest noQuote noFeed noEnd noSlash ih =>
        have notSlash := ne_slash_of_rest noEnd noSlash
        obtain ⟨body, text, behind, rfl, quoted, ends⟩ := ih (Option.map_eq_none_iff.1 unread)
        exact ⟨c :: body, _, behind, rfl, .plain noQuote noFeed notSlash quoted, ends⟩
  · rintro ⟨body, text, rest, rfl, quoted, ends⟩
    induction quoted with
    | done =>
        rcases ends with rfl | rfl | feed
        · rfl
        · rfl
        · obtain ⟨behind, rfl⟩ := List.head?_eq_some_iff.1 feed
          rfl
    | escaped _ ih => simp [stringBody, ih]
    | plain noQuote noFeed noSlash _ ih =>
        simp [stringBody_plain noQuote noFeed noSlash, ih]

def feedLexeme (depth : Nat) : Option Lexeme := if depth = 0 then some .newline else none

def StartsNumber (c : Char) (rest : List Char) : Prop :=
  isDigit c = true ∨ c = '-' ∧ rest.head?.any isDigit = true

/-- The segment at the front of `chars ++ rest`. -/
inductive Front (depth : Nat) : List Char → Option Lexeme → List Char → Prop
  | blank {c : Char} {rest : List Char} :
      c = ' ' ∨ c = '\t' ∨ c = '\r' → Front depth [c] none rest
  | comment {body rest : List Char} :
      '\n' ∉ body → rest.head? = none ∨ rest.head? = some '\n' →
      Front depth ('/' :: '/' :: body) none rest
  | feed {rest : List Char} : Front depth ['\n'] (feedLexeme depth) rest
  | string {body text rest : List Char} :
      Quoted body text →
      Front depth ('"' :: body ++ ['"']) (some (.string (String.ofList text))) rest
  | number {c : Char} {inner rest : List Char} :
      StartsNumber c inner → inner.all isNumberChar = true →
      rest.head?.any isNumberChar = false →
      Front depth (c :: inner) (some (.number (String.ofList (c :: inner)))) rest
  | word {c : Char} {inner rest : List Char} :
      isWordStart c = true → isDigit c = false → inner.all isWordChar = true →
      rest.head?.any isWordChar = false →
      Front depth (c :: inner) (some (wordLexeme (String.ofList (c :: inner)))) rest
  | doubleAt {rest : List Char} : Front depth ['@', '@'] (some (.punct .doubleAt)) rest
  | atSign {rest : List Char} :
      rest.head? ≠ some '@' → Front depth ['@'] (some (.punct .atSign)) rest
  | sign {c : Char} {p : Punct} {rest : List Char} :
      Punct.ofChar? c = some p → Front depth [c] (some (.punct p)) rest

/-- What comes behind a segment matters through its first character only, and a line
feed prolongs no segment, just as the end of the text does not. -/
theorem Front.retail {depth : Nat} {chars rest other : List Char} {lexeme : Option Lexeme}
    (front : Front depth chars lexeme rest)
    (same : other.head? = rest.head? ∨ other.head? = none ∨ other.head? = some '\n') :
    Front depth chars lexeme other := by
  have feedNumber : isNumberChar '\n' = false := by decide
  have feedWord : isWordChar '\n' = false := by decide
  cases front with
  | blank isBlank => exact .blank isBlank
  | comment noFeed ends =>
      refine .comment noFeed ?_
      rcases same with same | same
      · rwa [same]
      · exact same
  | feed => exact .feed
  | string quoted => exact .string quoted
  | number starts inner ends =>
      refine .number starts inner ?_
      rcases same with same | same | same <;> simp [same, ends, feedNumber]
  | word starts noDigit inner ends =>
      refine .word starts noDigit inner ?_
      rcases same with same | same | same <;> simp [same, ends, feedWord]
  | doubleAt => exact .doubleAt
  | atSign ends =>
      refine .atSign ?_
      rcases same with same | same | same <;> simp [same, ends]
  | sign isSign => exact .sign isSign

theorem takeWhile_eq_self_append {q : Char → Bool} {inner rest : List Char}
    (all : inner.all q = true) (ends : rest.head?.any q = false) :
    (inner ++ rest).takeWhile q = inner := by
  rw [List.takeWhile_append_of_pos (by simpa using all)]
  cases rest with
  | nil => simp
  | cons c rest => simp_all

/-- A text is split in one way behind the longest run at its front. -/
theorem append_inj_of_run {q : Char → Bool} {first second rest₁ rest₂ : List Char}
    (all₁ : first.all q = true) (ends₁ : rest₁.head?.any q = false) (all₂ : second.all q = true)
    (ends₂ : rest₂.head?.any q = false) (same : first ++ rest₁ = second ++ rest₂) :
    first = second ∧ rest₁ = rest₂ := by
  obtain rfl : first = second := by
    rw [← takeWhile_eq_self_append all₁ ends₁, same, takeWhile_eq_self_append all₂ ends₂]
  exact ⟨rfl, List.append_cancel_left same⟩

theorem exists_takeWhile_append (q : Char → Bool) (tail : List Char) :
    ∃ inner rest, tail = inner ++ rest ∧ tail.takeWhile q = inner ∧
      inner.all q = true ∧ rest.head?.any q = false := by
  refine ⟨tail.takeWhile q, tail.dropWhile q, (List.takeWhile_append_dropWhile).symm, rfl,
    List.all_takeWhile, ?_⟩
  have behind := List.head?_dropWhile_not q tail
  cases head : (tail.dropWhile q).head? with
  | none => rfl
  | some c => simpa [head] using behind

theorem ne_of_apply {q : Char → Bool} {c d : Char} (yes : q c = true) (no : q d = false) :
    c ≠ d := by
  rintro rfl
  simp [yes] at no

theorem front_of_pieceAt {depth : Nat} {c : Char} {tail : List Char} {piece : Piece}
    (read : pieceAt depth c tail = .ok piece) :
    ∃ inner rest, tail = inner ++ rest ∧ piece.length = inner.length + 1 ∧
      Front depth (c :: inner) piece.lexeme rest := by
  unfold pieceAt at read
  split at read
  · rename_i isBlank
    cases read
    exact ⟨[], tail, rfl, rfl, .blank isBlank⟩
  split at read
  · rename_i isComment
    obtain ⟨rfl, slash⟩ := isComment
    cases read
    cases tail with
    | nil => simp at slash
    | cons d others =>
        obtain rfl : d = '/' := by simpa using slash
        obtain ⟨body, rest, rfl, taken, all, ends⟩ := exists_takeWhile_append (· != '\n') others
        refine ⟨'/' :: body, rest, rfl, by simp [taken], .comment ?_ ?_⟩
        · intro isIn
          have other := List.all_eq_true.1 all '\n' isIn
          simp at other
        · cases rest with
          | nil => exact .inl rfl
          | cons e rest => exact .inr (by simpa using ends)
  split at read
  · rename_i isFeed
    subst isFeed
    cases read
    exact ⟨[], tail, rfl, rfl, .feed⟩
  split at read
  · rename_i isQuote
    subst isQuote
    split at read
    · rename_i text length found
      cases read
      obtain ⟨body, rest, rfl, quoted, rfl⟩ := stringBody_eq_some found
      exact ⟨body ++ ['"'], rest, by simp, by simp, .string quoted⟩
    · cases read
  split at read
  · rename_i starts
    cases read
    obtain ⟨inner, rest, rfl, taken, all, ends⟩ := exists_takeWhile_append isNumberChar tail
    refine ⟨inner, rest, rfl, by simp [taken], ?_⟩
    rw [taken]
    refine .number ?_ all ends
    rcases starts with isDigit | ⟨rfl, isDigit⟩
    · exact .inl isDigit
    · refine .inr ⟨rfl, ?_⟩
      cases inner with
      | nil =>
          cases rest with
          | nil => simp at isDigit
          | cons d rest =>
              simp only [List.nil_append, List.head?_cons, Option.any_some] at isDigit
              simp [isNumberChar, isDigit] at ends
      | cons d inner => simpa using isDigit
  split at read
  · rename_i noNumber starts
    cases read
    obtain ⟨inner, rest, rfl, taken, all, ends⟩ := exists_takeWhile_append isWordChar tail
    refine ⟨inner, rest, rfl, by simp [taken], ?_⟩
    rw [taken]
    exact .word starts (by simpa using fun h => noNumber (.inl h)) all ends
  split at read
  · rename_i isAt
    subst isAt
    split at read
    · rename_i double
      cases read
      cases tail with
      | nil => simp at double
      | cons d rest =>
          obtain rfl : d = '@' := by simpa using double
          exact ⟨['@'], rest, rfl, rfl, .doubleAt⟩
    · rename_i single
      cases read
      exact ⟨[], tail, rfl, rfl, .atSign single⟩
  · split at read
    · rename_i p isSign
      cases read
      exact ⟨[], tail, rfl, rfl, .sign isSign⟩
    · cases read

theorem pieceAt_of_front {depth : Nat} {c : Char} {inner rest : List Char} {piece : Piece}
    (front : Front depth (c :: inner) piece.lexeme rest)
    (length : piece.length = inner.length + 1) :
    pieceAt depth c (inner ++ rest) = .ok piece := by
  obtain ⟨lexeme, size⟩ := piece
  obtain rfl : size = inner.length + 1 := length
  generalize shape : c :: inner = chars at front
  cases front with
  | blank isBlank =>
      obtain ⟨rfl, rfl⟩ := List.cons.inj shape
      simp [pieceAt, isBlank]
  | @comment body _ noFeed ends =>
      obtain ⟨rfl, rfl⟩ := List.cons.inj shape
      have taken : (body ++ rest).takeWhile (· != '\n') = body := by
        refine takeWhile_eq_self_append ?_ ?_
        · simpa using fun x isIn => ne_of_mem_of_not_mem isIn noFeed
        · rcases ends with ends | ends <;> simp [ends]
      simp [pieceAt, taken]
  | feed =>
      obtain ⟨rfl, rfl⟩ := List.cons.inj shape
      rfl
  | string quoted =>
      obtain ⟨rfl, rfl⟩ := List.cons.inj shape
      simp [pieceAt, stringBody_append quoted]
  | number starts all ends =>
      obtain ⟨rfl, rfl⟩ := List.cons.inj shape
      have other : ∀ d, isDigit d = false → d ≠ '-' → c ≠ d := by
        rintro d noDigit noMinus rfl
        rcases starts with isDigit | ⟨rfl, -⟩
        · simp [isDigit] at noDigit
        · exact noMinus rfl
      have noBlank := other ' ' (by decide) (by decide)
      have noTab := other '\t' (by decide) (by decide)
      have noReturn := other '\r' (by decide) (by decide)
      have noSlash := other '/' (by decide) (by decide)
      have noFeed := other '\n' (by decide) (by decide)
      have noQuote := other '"' (by decide) (by decide)
      have starts' : isDigit c = true ∨ c = '-' ∧ (inner ++ rest).head?.any isDigit = true := by
        refine starts.imp_right fun ⟨minus, isDigit⟩ => ⟨minus, ?_⟩
        cases inner with
        | nil => simp at isDigit
        | cons d inner => simpa using isDigit
      simp only [pieceAt, noBlank, noTab, noReturn, noSlash, noFeed, noQuote, or_self, false_and,
        if_false, if_pos starts', takeWhile_eq_self_append all ends]
  | word starts noDigit all ends =>
      obtain ⟨rfl, rfl⟩ := List.cons.inj shape
      have other : ∀ d, isWordStart d = false → c ≠ d := fun d => ne_of_apply starts
      have noBlank := other ' ' (by decide)
      have noTab := other '\t' (by decide)
      have noReturn := other '\r' (by decide)
      have noSlash := other '/' (by decide)
      have noFeed := other '\n' (by decide)
      have noQuote := other '"' (by decide)
      have noMinus := other '-' (by decide)
      simp [pieceAt, noBlank, noTab, noReturn, noSlash, noFeed, noQuote, noMinus, noDigit, starts,
        takeWhile_eq_self_append all ends]
  | doubleAt =>
      obtain ⟨rfl, rfl⟩ := List.cons.inj shape
      rfl
  | atSign single =>
      obtain ⟨rfl, rfl⟩ := List.cons.inj shape
      have noDigit : isDigit '@' = false := by decide
      have noWord : isWordStart '@' = false := by decide
      simp [pieceAt, noDigit, noWord, single]
  | sign isSign =>
      obtain ⟨rfl, rfl⟩ := List.cons.inj shape
      unfold Punct.ofChar? at isSign
      split at isSign <;> cases isSign <;> rfl

/-- The lexer reads exactly the lexical grammar. -/
theorem pieceAt_eq_ok {depth : Nat} {c : Char} {tail : List Char} {piece : Piece} :
    pieceAt depth c tail = .ok piece ↔
      ∃ inner rest, tail = inner ++ rest ∧ piece.length = inner.length + 1 ∧
        Front depth (c :: inner) piece.lexeme rest :=
  ⟨front_of_pieceAt, fun ⟨_, _, shape, length, front⟩ => shape ▸ pieceAt_of_front front length⟩

/-- A text has one front. -/
theorem Front.unique {depth : Nat} {chars chars' rest rest' : List Char}
    {lexeme lexeme' : Option Lexeme} (h₁ : Front depth chars lexeme rest)
    (h₂ : Front depth chars' lexeme' rest') (same : chars ++ rest = chars' ++ rest') :
    chars = chars' ∧ lexeme = lexeme' ∧ rest = rest' := by
  obtain ⟨c, inner, rfl⟩ : ∃ c inner, chars = c :: inner := by cases h₁ <;> exact ⟨_, _, rfl⟩
  obtain ⟨c', inner', rfl⟩ : ∃ c inner, chars' = c :: inner := by cases h₂ <;> exact ⟨_, _, rfl⟩
  rw [List.cons_append, List.cons_append, List.cons.injEq] at same
  obtain ⟨rfl, tails⟩ := same
  have read₁ : pieceAt depth c (inner ++ rest) = .ok ⟨lexeme, inner.length + 1⟩ :=
    pieceAt_eq_ok.2 ⟨inner, rest, rfl, rfl, h₁⟩
  have read₂ : pieceAt depth c (inner' ++ rest') = .ok ⟨lexeme', inner'.length + 1⟩ :=
    pieceAt_eq_ok.2 ⟨inner', rest', rfl, rfl, h₂⟩
  rw [tails, read₂] at read₁
  obtain ⟨rfl, lengths⟩ := Piece.mk.inj (Except.ok.inj read₁)
  obtain ⟨rfl, rfl⟩ := List.append_inj tails (by omega)
  exact ⟨rfl, rfl, rfl⟩

/-! ## Segments -/

/-- A stretch of a text: where it starts, its characters, and the lexeme that they
spell; a gap spells none. -/
structure Segment where
  mark : Mark
  chars : List Char
  lexeme : Option Lexeme
  deriving DecidableEq

def Segment.token? (segment : Segment) : Option Token :=
  segment.lexeme.map (⟨·, segment.mark⟩)

def tokensOf (segments : List Segment) : List Token := segments.filterMap Segment.token?

@[simp] theorem tokensOf_nil : tokensOf [] = [] := rfl

@[simp] theorem tokensOf_append (first second : List Segment) :
    tokensOf (first ++ second) = tokensOf first ++ tokensOf second :=
  List.filterMap_append

theorem tokensOf_cons (segment : Segment) (segments : List Segment) :
    tokensOf (segment :: segments) = segment.token?.toList ++ tokensOf segments := by
  cases found : segment.token? <;> simp [tokensOf, found]

@[simp] theorem tokensOf_gap (mark : Mark) (chars : List Char) (segments : List Segment) :
    tokensOf (⟨mark, chars, none⟩ :: segments) = tokensOf segments := rfl

@[simp] theorem tokensOf_token (mark : Mark) (chars : List Char) (lexeme : Lexeme)
    (segments : List Segment) :
    tokensOf (⟨mark, chars, some lexeme⟩ :: segments) = ⟨lexeme, mark⟩ :: tokensOf segments := rfl

def Mark.behind (mark : Mark) (chars : List Char) : Mark := chars.foldl Mark.after mark

@[simp] theorem Mark.behind_nil (mark : Mark) : mark.behind [] = mark := rfl

@[simp] theorem Mark.behind_cons (mark : Mark) (c : Char) (chars : List Char) :
    mark.behind (c :: chars) = (mark.after c).behind chars := rfl

@[simp] theorem Mark.behind_append (mark : Mark) (first second : List Char) :
    mark.behind (first ++ second) = (mark.behind first).behind second :=
  List.foldl_append

/-- The segments of a text that starts at `mark`, under `depth` open parentheses and
brackets. -/
inductive Segmented : Nat → Mark → List Char → List Segment → Prop
  | done {depth : Nat} {mark : Mark} : Segmented depth mark [] []
  | cons {depth : Nat} {mark : Mark} {chars rest : List Char} {lexeme : Option Lexeme}
      {segments : List Segment} :
      Front depth chars lexeme rest →
      Segmented (depthAfter depth lexeme) (mark.behind chars) rest segments →
      Segmented depth mark (chars ++ rest) (⟨mark, chars, lexeme⟩ :: segments)

theorem Front.cons {depth : Nat} {chars rest : List Char} {lexeme : Option Lexeme}
    (front : Front depth chars lexeme rest) : ∃ c inner, chars = c :: inner := by
  cases front <;> exact ⟨_, _, rfl⟩

/-- Nothing of the text is lost. -/
theorem Segmented.flatten {depth : Nat} {mark : Mark} {text : List Char}
    {segments : List Segment} (segmented : Segmented depth mark text segments) :
    segments.flatMap (·.chars) = text := by
  induction segmented with
  | done => rfl
  | cons _ _ ih => rw [List.flatMap_cons, ih]

/-- A text has one list of segments. -/
theorem Segmented.unique {depth : Nat} {mark : Mark} {text : List Char}
    {first second : List Segment} (h₁ : Segmented depth mark text first)
    (h₂ : Segmented depth mark text second) : first = second := by
  induction h₁ generalizing second with
  | done =>
      generalize shape : ([] : List Char) = text at h₂
      cases h₂ with
      | done => rfl
      | cons front _ =>
          obtain ⟨c, inner, rfl⟩ := front.cons
          cases shape
  | @cons depth mark chars rest lexeme segments front _ ih =>
      generalize shape : chars ++ rest = text at h₂
      cases h₂ with
      | done =>
          obtain ⟨c, inner, rfl⟩ := front.cons
          cases shape
      | cons front' others =>
          obtain ⟨rfl, rfl, rfl⟩ := front.unique front' shape
          rw [ih others]

/-! ## The lexer -/

theorem lexFrom_owed (depth : Nat) (mark : Mark) (owed rest : List Char) :
    lexFrom depth mark owed.length (owed ++ rest) = lexFrom depth (mark.behind owed) 0 rest := by
  induction owed generalizing mark with
  | nil => rfl
  | cons c owed ih => simp [lexFrom, ih]

theorem lexFrom_front {depth : Nat} {chars rest : List Char} {lexeme : Option Lexeme}
    (front : Front depth chars lexeme rest) (mark : Mark) :
    lexFrom depth mark 0 (chars ++ rest) =
      (lexFrom (depthAfter depth lexeme) (mark.behind chars) 0 rest).map fun stream =>
        { stream with
          tokens := (Segment.token? ⟨mark, chars, lexeme⟩).toList ++ stream.tokens } := by
  obtain ⟨c, inner, rfl⟩ := front.cons
  have read : pieceAt depth c (inner ++ rest) = .ok ⟨lexeme, inner.length + 1⟩ :=
    pieceAt_eq_ok.2 ⟨inner, rest, rfl, rfl, front⟩
  have owed := fun depth => lexFrom_owed depth (mark.after c) inner rest
  cases lexeme with
  | none =>
      rw [List.cons_append, lexFrom, read]
      simp only [Nat.add_sub_cancel, owed, Mark.behind_cons, Segment.token?, Option.map_none,
        Option.toList_none, List.nil_append]
      show lexFrom depth _ 0 rest = _
      cases found : lexFrom (depthAfter depth none) ((mark.after c).behind inner) 0 rest <;>
        exact found
  | some lexeme =>
      rw [List.cons_append, lexFrom, read]
      simp only [Nat.add_sub_cancel, owed, Mark.behind_cons]
      cases lexFrom (depthAfter depth (some lexeme)) ((mark.after c).behind inner) 0 rest <;> rfl

/-- **Texts are read front by front**: a text is empty, starts with a fault, or goes on behind a
segment.  What holds in these cases, and in the last one if it holds behind the segment, holds of
every text. -/
@[elab_as_elim]
theorem front_induction {motive : Nat → Mark → List Char → Prop}
    (done : ∀ depth mark, motive depth mark [])
    (fault : ∀ depth mark c tail fault, pieceAt depth c tail = .error fault →
      motive depth mark (c :: tail))
    (segment : ∀ depth mark chars lexeme rest, Front depth chars lexeme rest →
      motive (depthAfter depth lexeme) (mark.behind chars) rest →
      motive depth mark (chars ++ rest))
    (depth : Nat) (mark : Mark) (text : List Char) : motive depth mark text := by
  induction size : text.length using Nat.strongRecOn generalizing depth mark text with
  | _ size ih =>
      cases text with
      | nil => exact done depth mark
      | cons c tail =>
          cases read : pieceAt depth c tail with
          | error cause => exact fault depth mark c tail cause read
          | ok piece =>
              obtain ⟨inner, rest, rfl, -, front⟩ := pieceAt_eq_ok.1 read
              have shorter : rest.length < (c :: (inner ++ rest)).length := by
                rw [List.length_cons, List.length_append]
                omega
              exact segment depth mark (c :: inner) piece.lexeme rest front
                (ih _ (size ▸ shorter) _ _ rest rfl)

theorem segmented_of_lexFrom {depth : Nat} {mark : Mark} {text : List Char}
    {stream : TokenStream} (lexed : lexFrom depth mark 0 text = .ok stream) :
    ∃ segments, Segmented depth mark text segments ∧
      stream = ⟨tokensOf segments, mark.behind text⟩ := by
  induction depth, mark, text using front_induction generalizing stream with
  | done depth mark =>
      cases lexed
      exact ⟨[], .done, rfl⟩
  | fault depth mark c tail fault read =>
      rw [lexFrom, read] at lexed
      cases lexed
  | segment depth mark chars lexeme rest front ih =>
      rw [lexFrom_front front] at lexed
      cases others : lexFrom (depthAfter depth lexeme) (mark.behind chars) 0 rest with
      | error error =>
          rw [others] at lexed
          cases lexed
      | ok behind =>
          obtain ⟨segments, segmented, rfl⟩ := ih others
          rw [others] at lexed
          cases lexed
          refine ⟨_, .cons front segmented, ?_⟩
          rw [tokensOf_cons, Mark.behind_append]

/-- An error of the lexer stands where no segment starts. -/
theorem exists_fault_of_lexFrom {depth : Nat} {mark : Mark} {text : List Char} {error : SyntaxError}
    (failed : lexFrom depth mark 0 text = .error error) :
    ∃ front under c tail, text = front ++ c :: tail ∧
      pieceAt under c tail = .error error.fault ∧ error.mark = mark.behind front := by
  induction depth, mark, text using front_induction with
  | done depth mark => cases failed
  | fault depth mark c tail fault read =>
      rw [lexFrom, read] at failed
      cases failed
      exact ⟨[], depth, c, tail, rfl, read, rfl⟩
  | segment depth mark chars lexeme rest front ih =>
      rw [lexFrom_front front] at failed
      cases others : lexFrom (depthAfter depth lexeme) (mark.behind chars) 0 rest with
      | ok stream =>
          rw [others] at failed
          cases failed
      | error inside =>
          rw [others] at failed
          cases failed
          obtain ⟨behind, under, c, tail, rfl, read, place⟩ := ih others
          exact ⟨chars ++ behind, under, c, tail, by simp, read, by rw [place, Mark.behind_append]⟩

theorem lexFrom_of_segmented {depth : Nat} {mark : Mark} {text : List Char}
    {segments : List Segment} (segmented : Segmented depth mark text segments) :
    lexFrom depth mark 0 text = .ok ⟨tokensOf segments, mark.behind text⟩ := by
  induction segmented with
  | done => rfl
  | cons front _ ih =>
      rw [lexFrom_front front, ih, tokensOf_cons, Mark.behind_append]
      rfl

/-- **The tokens of a text are the lexemes of its segments**, and a text that has no
tokens has no segments either. -/
theorem ofText_eq_ok {text : String} {stream : TokenStream} :
    TokenStream.ofText text = .ok stream ↔
      ∃ segments, Segmented 0 .start text.toList segments ∧
        stream = ⟨tokensOf segments, Mark.start.behind text.toList⟩ := by
  constructor
  · exact segmented_of_lexFrom
  · rintro ⟨segments, segmented, rfl⟩
    exact lexFrom_of_segmented segmented

/-! ## Cutting a text in two -/

/-- The text is empty or starts with a line feed: no segment before it is prolonged. -/
def EndsSegment (text : List Char) : Prop := text.head? = none ∨ text.head? = some '\n'

theorem depthBehind_token? (depth : Nat) (segment : Segment) :
    Grammar.depthBehind depth segment.token?.toList = depthAfter depth segment.lexeme := by
  cases found : segment.lexeme with
  | none =>
      rw [Segment.token?, found]
      rfl
  | some lexeme => simp [Segment.token?, found]

theorem Segmented.append {depth : Nat} {mark : Mark} {first second : List Char}
    {before behind : List Segment} (h₁ : Segmented depth mark first before)
    (h₂ : Segmented (Grammar.depthBehind depth (tokensOf before)) (mark.behind first) second behind)
    (ends : EndsSegment second) : Segmented depth mark (first ++ second) (before ++ behind) := by
  induction h₁ with
  | done => exact h₂
  | cons front _ ih =>
      rw [tokensOf_cons, Grammar.depthBehind_append, depthBehind_token?, Mark.behind_append] at h₂
      rw [List.append_assoc, List.cons_append]
      refine .cons (front.retail ?_) (ih h₂)
      rename_i rest _ _ _
      cases rest with
      | nil => exact .inr ends
      | cons c rest => exact .inl rfl

/-- Behind the segments of a text, those of what follows can be taken off and put
on. -/
theorem Segmented.append_iff {depth : Nat} {mark : Mark} {first second : List Char}
    {before segments : List Segment} (segmented : Segmented depth mark first before)
    (ends : EndsSegment second) :
    Segmented depth mark (first ++ second) segments ↔
      ∃ behind, segments = before ++ behind ∧
        Segmented (Grammar.depthBehind depth (tokensOf before)) (mark.behind first) second
          behind := by
  constructor
  · intro whole
    induction segmented generalizing segments with
    | done => exact ⟨segments, rfl, whole⟩
    | @cons depth mark chars rest lexeme others front _ ih =>
        have here : Front depth chars lexeme (rest ++ second) := by
          apply front.retail
          cases rest with
          | nil => exact .inr ends
          | cons c rest => exact .inl rfl
        generalize shape : chars ++ rest ++ second = text at whole
        cases whole with
        | done =>
            obtain ⟨c, inner, rfl⟩ := front.cons
            cases shape
        | cons front' remaining =>
            rw [List.append_assoc] at shape
            obtain ⟨rfl, rfl, rfl⟩ := here.unique front' shape
            obtain ⟨behind, rfl, segmented⟩ := ih remaining
            refine ⟨behind, rfl, ?_⟩
            rwa [tokensOf_cons, Grammar.depthBehind_append, depthBehind_token?,
              Mark.behind_append]
  · rintro ⟨behind, rfl, segmented'⟩
    exact segmented.append segmented' ends

/-- A text can be cut behind any of its segments. -/
theorem Segmented.cut {depth : Nat} {mark : Mark} {text : List Char} {before others : List Segment}
    (segmented : Segmented depth mark text (before ++ others)) :
    ∃ rest, text = before.flatMap (·.chars) ++ rest ∧
      Segmented (Grammar.depthBehind depth (tokensOf before))
        (mark.behind (before.flatMap (·.chars))) rest others := by
  induction before generalizing depth mark text with
  | nil => exact ⟨text, rfl, segmented⟩
  | cons first before ih =>
      cases segmented with
      | cons front onward =>
          obtain ⟨rest, rfl, behind⟩ := ih onward
          refine ⟨rest, by simp, ?_⟩
          rw [tokensOf_cons, Grammar.depthBehind_append, depthBehind_token?, List.flatMap_cons,
            Mark.behind_append]
          exact behind

/-- Behind any of its segments, a text can go on in another way that starts with the same
character. -/
theorem Segmented.splice {depth : Nat} {mark : Mark} {front rest rest' : List Char}
    {before others others' : List Segment}
    (segmented : Segmented depth mark (front ++ rest) (before ++ others))
    (shape : before.flatMap (·.chars) = front) (same : rest'.head? = rest.head?)
    (onward : Segmented (Grammar.depthBehind depth (tokensOf before)) (mark.behind front) rest'
      others') : Segmented depth mark (front ++ rest') (before ++ others') := by
  subst shape
  induction before generalizing depth mark with
  | nil => exact onward
  | cons first before ih =>
      rw [tokensOf_cons, Grammar.depthBehind_append, depthBehind_token?, List.flatMap_cons,
        Mark.behind_append] at onward
      rw [List.flatMap_cons, List.append_assoc] at segmented ⊢
      generalize text : first.chars ++ (before.flatMap (·.chars) ++ rest) = whole at segmented
      cases segmented with
      | @cons _ _ chars behind lexeme _ here others =>
          obtain rfl := List.append_cancel_left text
          have kept : Front depth chars lexeme (before.flatMap (·.chars) ++ rest') := by
            refine here.retail (.inl ?_)
            rw [List.head?_append, List.head?_append, same]
          exact .cons kept (ih others onward)

/-! ## Moving a text -/

def Mark.down (lines : Nat) (mark : Mark) : Mark := ⟨mark.line + lines, mark.column⟩

theorem Mark.after_down (lines : Nat) (mark : Mark) (c : Char) :
    (mark.down lines).after c = (mark.after c).down lines := by
  unfold Mark.after Mark.down
  split
  · simp [Nat.add_right_comm]
  · rfl

theorem Mark.behind_down (lines : Nat) (mark : Mark) (chars : List Char) :
    (mark.down lines).behind chars = (mark.behind chars).down lines := by
  induction chars generalizing mark with
  | nil => rfl
  | cons c chars ih => rw [Mark.behind_cons, Mark.after_down, ih, Mark.behind_cons]

def Segment.down (lines : Nat) (segment : Segment) : Segment :=
  { segment with mark := segment.mark.down lines }

theorem Segmented.down {depth : Nat} {mark : Mark} {text : List Char}
    {segments : List Segment} (segmented : Segmented depth mark text segments) (lines : Nat) :
    Segmented depth (mark.down lines) text (segments.map (·.down lines)) := by
  induction segmented with
  | done => exact .done
  | cons front _ ih =>
      refine .cons front ?_
      rw [Mark.behind_down]
      exact ih

/-- Whether a text has segments does not depend on where it starts. -/
theorem Segmented.anywhere {depth : Nat} {mark : Mark} {text : List Char}
    {segments : List Segment} (segmented : Segmented depth mark text segments) (other : Mark) :
    ∃ moved, Segmented depth other text moved := by
  induction segmented generalizing other with
  | done => exact ⟨[], .done⟩
  | cons front _ ih =>
      obtain ⟨moved, segmented⟩ := ih (other.behind _)
      exact ⟨_, .cons front segmented⟩

theorem tokensOf_down (segments : List Segment) (lines : Nat) :
    tokensOf (segments.map (·.down lines)) =
      (tokensOf segments).map (·.relocate (Mark.down lines)) := by
  simp only [tokensOf, List.filterMap_map, List.map_filterMap]
  congr 1
  funext segment
  cases found : segment.lexeme <;>
    simp [Segment.token?, Segment.down, Token.relocate, found]

theorem Mark.line_behind (mark : Mark) (chars : List Char) :
    (mark.behind chars).line = mark.line + chars.count '\n' := by
  induction chars generalizing mark with
  | nil => simp
  | cons c chars ih =>
      rw [Mark.behind_cons, ih, Mark.after]
      by_cases feed : c = '\n'
      · simp [feed, Nat.add_assoc, Nat.add_comm 1]
      · simp [feed]

/-- A place is on the row whose number is that of the line feeds before it. -/
theorem Mark.row_behind_start (chars : List Char) :
    (Mark.start.behind chars).row = chars.count '\n' := by
  have first : Mark.start.line = 1 := rfl
  rw [Mark.row, Mark.line_behind, first]
  omega

end SchemaAssist
