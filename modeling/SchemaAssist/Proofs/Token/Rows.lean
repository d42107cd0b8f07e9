/-
# SchemaAssist.Proofs.Token.Rows — the segments of one line

Where every line feed is a segment of its own, the segments of a text fall apart into
the segments of its lines.  A line that is cut out of its text is segmented as it was
there: no segment looks over a line end, and the open parentheses and brackets matter
at line feeds only.  The carriage return that an editor takes off a line belongs to a
gap (`Segmented.dropReturn`).

`exists_row` is the result: the tokens of a line, as an editor shows it, are the
tokens that the text has on that line.
-/
import SchemaAssist.Proofs.Token.Segments
import SchemaAssist.Proofs.Text.Lines

namespace SchemaAssist

set_option autoImplicit false

open Text

/-! ## Segments without line feeds -/

theorem Front.anyDepth {depth : Nat} {chars rest : List Char} {lexeme : Option Lexeme}
    (front : Front depth chars lexeme rest) (noFeed : '\n' ∉ chars) (other : Nat) :
    Front other chars lexeme rest := by
  cases front with
  | blank isBlank => exact .blank isBlank
  | comment inBody ends => exact .comment inBody ends
  | feed => exact absurd (List.mem_singleton_self _) noFeed
  | string quoted => exact .string quoted
  | number starts inner ends => exact .number starts inner ends
  | word starts noDigit inner ends => exact .word starts noDigit inner ends
  | doubleAt => exact .doubleAt
  | atSign ends => exact .atSign ends
  | sign isSign => exact .sign isSign

/-- On one line, the open parentheses and brackets make no difference. -/
theorem Segmented.anyDepth {depth : Nat} {mark : Mark} {text : List Char}
    {segments : List Segment} (segmented : Segmented depth mark text segments)
    (noFeed : '\n' ∉ text) (other : Nat) : Segmented other mark text segments := by
  induction segmented generalizing other with
  | done => exact .done
  | cons front _ ih =>
      rw [List.mem_append, not_or] at noFeed
      exact .cons (front.anyDepth noFeed.1 other) (ih noFeed.2 _)

theorem Segmented.exists_front {depth : Nat} {mark : Mark} {text : List Char}
    {segments : List Segment} (segmented : Segmented depth mark text segments)
    {segment : Segment} (isIn : segment ∈ segments) :
    ∃ under rest, Front under segment.chars segment.lexeme rest := by
  induction segmented with
  | done => cases isIn
  | cons front _ ih =>
      rcases List.mem_cons.1 isIn with rfl | isIn
      · exact ⟨_, _, front⟩
      · exact ih isIn

theorem isWordChar_of_isWordStart {c : Char} (starts : isWordStart c = true) :
    isWordChar c = true := by
  unfold isWordStart at starts
  unfold isWordChar isAlphanumeric
  rcases Bool.or_eq_true_iff.1 starts with isLetter | isLine
  · simp [isLetter]
  · simp [isLine]

/-- A character of no number, no word and no at-sign. -/
def IsSignChar (c : Char) : Prop :=
  isNumberChar c = false ∧ isWordChar c = false ∧ c ≠ '-' ∧ c ≠ '@'

instance (c : Char) : Decidable (IsSignChar c) :=
  inferInstanceAs
    (Decidable (isNumberChar c = false ∧ isWordChar c = false ∧ c ≠ '-' ∧ c ≠ '@'))

/-- Where such a character stands: in a string, in a comment or alone. -/
theorem Front.of_signChar {depth : Nat} {chars rest : List Char} {lexeme : Option Lexeme}
    (front : Front depth chars lexeme rest) {c : Char} (isSign : IsSignChar c) (isIn : c ∈ chars) :
    (∃ text, lexeme = some (.string text)) ∨
      (∃ body, chars = '/' :: '/' :: body ∧ lexeme = none ∧ '\n' ∉ body ∧ EndsSegment rest) ∨
      chars = [c] ∧ ((c = ' ' ∨ c = '\t' ∨ c = '\r') ∨ c = '\n' ∨
        ∃ p, Punct.ofChar? c = some p ∧ lexeme = some (.punct p)) := by
  obtain ⟨noNumber, noWord, noMinus, noAt⟩ := isSign
  cases front with
  | string _ => exact .inl ⟨_, rfl⟩
  | comment noFeed ends => exact .inr (.inl ⟨_, rfl, rfl, noFeed, ends⟩)
  | blank isBlank =>
      obtain rfl := List.mem_singleton.1 isIn
      exact .inr (.inr ⟨rfl, .inl isBlank⟩)
  | feed =>
      obtain rfl := List.mem_singleton.1 isIn
      exact .inr (.inr ⟨rfl, .inr (.inl rfl)⟩)
  | sign isPunct =>
      obtain rfl := List.mem_singleton.1 isIn
      exact .inr (.inr ⟨rfl, .inr (.inr ⟨_, isPunct, rfl⟩)⟩)
  | number starts inner _ =>
      rcases List.mem_cons.1 isIn with rfl | isIn
      · rcases starts with isDigit | ⟨minus, -⟩
        · simp [isNumberChar, isDigit] at noNumber
        · exact absurd minus noMinus
      · have isNumber := List.all_eq_true.1 inner _ isIn
        rw [noNumber] at isNumber
        cases isNumber
  | word starts _ inner _ =>
      rcases List.mem_cons.1 isIn with rfl | isIn
      · rw [isWordChar_of_isWordStart starts] at noWord
        cases noWord
      · have isWord := List.all_eq_true.1 inner _ isIn
        rw [noWord] at isWord
        cases isWord
  | doubleAt => simp [noAt] at isIn
  | atSign _ => simp [noAt] at isIn

/-- Only line feeds and strings hold a line feed. -/
theorem Front.feed_or_string {depth : Nat} {chars rest : List Char} {lexeme : Option Lexeme}
    (front : Front depth chars lexeme rest) (hasFeed : '\n' ∈ chars) :
    chars = ['\n'] ∨ ∃ text, lexeme = some (.string text) := by
  rcases front.of_signChar (by decide) hasFeed with isString | ⟨body, rfl, -, noFeed, -⟩ | ⟨alone, -⟩
  · exact .inr isString
  · simp [noFeed] at hasFeed
  · exact .inl alone

/-- Every line feed is a segment of its own: no string holds one. -/
def FeedsAlone (segments : List Segment) : Prop :=
  ∀ segment ∈ segments, '\n' ∈ segment.chars → segment.chars = ['\n']

theorem Segmented.feedsAlone {depth : Nat} {mark : Mark} {text : List Char}
    {segments : List Segment} (segmented : Segmented depth mark text segments)
    (strings : ∀ segment ∈ segments, ∀ content, segment.lexeme = some (.string content) →
      '\n' ∉ segment.chars) : FeedsAlone segments := by
  intro segment isIn hasFeed
  obtain ⟨under, rest, front⟩ := segmented.exists_front isIn
  rcases front.feed_or_string hasFeed with alone | ⟨content, isString⟩
  · exact alone
  · exact absurd hasFeed (strings segment isIn content isString)

theorem Front.newline_iff {depth : Nat} {chars rest : List Char} {lexeme : Lexeme}
    (front : Front depth chars (some lexeme) rest) : lexeme = .newline ↔ chars = ['\n'] := by
  generalize same : some lexeme = found at front
  cases front with
  | feed =>
      simp only [iff_true]
      unfold feedLexeme at same
      split at same
      · exact Option.some.inj same
      · cases same
  | blank | comment => cases same
  | string _ =>
      cases same
      simp
  | number _ _ _ =>
      rename_i c inner starts all ends
      cases same
      simp only [reduceCtorEq, List.cons.injEq, false_iff, not_and]
      rintro rfl
      rcases starts with isDigit | ⟨minus, -⟩
      · exact absurd isDigit (by decide)
      · cases minus
  | word _ _ _ _ =>
      rename_i c inner starts noDigit all ends
      have noFeed : c ≠ '\n' := ne_of_apply starts (by decide)
      cases same
      simp only [List.cons.injEq, noFeed, false_and, iff_false, wordLexeme]
      split <;> simp
  | doubleAt =>
      cases same
      simp
  | atSign _ =>
      cases same
      simp
  | sign isSign =>
      cases same
      simp only [reduceCtorEq, List.cons.injEq, and_true, false_iff]
      rintro rfl
      cases isSign

/-! ## The lines of a text -/

theorem Segmented.line_le {depth : Nat} {mark : Mark} {text : List Char}
    {segments : List Segment} (segmented : Segmented depth mark text segments) :
    ∀ segment ∈ segments, mark.line ≤ segment.mark.line := by
  induction segmented with
  | done => simp
  | @cons depth mark chars rest lexeme segments front _ ih =>
      intro segment isIn
      rcases List.mem_cons.1 isIn with rfl | isIn
      · exact Nat.le_refl _
      · have below := ih segment isIn
        rw [Mark.line_behind] at below
        omega

/-- The segments on a line, its line feed apart. -/
def onLine (segments : List Segment) (number : Nat) : List Segment :=
  segments.filter fun segment => segment.mark.line == number && segment.chars != ['\n']

theorem onLine_cons_here {segment : Segment} {number : Nat} (here : segment.mark.line = number)
    (noFeed : segment.chars ≠ ['\n']) (segments : List Segment) :
    onLine (segment :: segments) number = segment :: onLine segments number := by
  simp [onLine, here, noFeed]

theorem onLine_cons_other {segment : Segment} {number : Nat}
    (other : segment.mark.line ≠ number ∨ segment.chars = ['\n']) (segments : List Segment) :
    onLine (segment :: segments) number = onLine segments number := by
  rcases other with other | other <;> simp [onLine, other]

theorem onLine_eq_nil {segments : List Segment} {number : Nat}
    (below : ∀ segment ∈ segments, number < segment.mark.line) : onLine segments number = [] := by
  rw [onLine, List.filter_eq_nil_iff]
  intro segment isIn
  have other := below segment isIn
  simp [Nat.ne_of_gt other]

/-- **The segments on a line segment that line.** -/
theorem Segmented.cutLines {depth : Nat} {mark : Mark} {text : List Char}
    {segments : List Segment} (segmented : Segmented depth mark text segments)
    (alone : FeedsAlone segments) :
    Segmented 0 mark (feedLine text 0) (onLine segments mark.line) ∧
      ∀ further, Segmented 0 ⟨mark.line + (further + 1), 1⟩ (feedLine text (further + 1))
        (onLine segments (mark.line + (further + 1))) := by
  induction segmented with
  | done => exact ⟨.done, fun further => by rw [feedLine_nil]; exact .done⟩
  | @cons depth mark chars rest lexeme segments front others ih =>
      have onward := ih fun s isIn => alone s (by simp [isIn])
      by_cases feed : chars = ['\n']
      · -- the line ends here, and all other segments stand below
        subst feed
        have below : (mark.behind ['\n']) = ⟨mark.line + 1, 1⟩ := rfl
        rw [below] at onward others
        constructor
        · rw [onLine_cons_other (.inr rfl), onLine_eq_nil fun s isIn => others.line_le s isIn]
          exact .done
        · intro further
          rw [onLine_cons_other (.inr rfl)]
          cases further with
          | zero => exact onward.1
          | succ further =>
              have number : mark.line + (further + 1 + 1) = mark.line + 1 + (further + 1) := by
                omega
              rw [number]
              exact onward.2 further
      · have noFeed : '\n' ∉ chars := fun isIn => feed (alone ⟨mark, chars, lexeme⟩ (by simp) isIn)
        have line : (mark.behind chars).line = mark.line := by
          rw [Mark.line_behind, List.count_eq_zero_of_not_mem noFeed, Nat.add_zero]
        rw [line] at onward
        constructor
        · rw [onLine_cons_here rfl feed, feedLine_append_zero noFeed]
          refine .cons ((front.retail ?_).anyDepth noFeed 0)
            (onward.1.anyDepth (not_mem_feedLine rest 0) _)
          exact (head?_feedLine_zero rest).imp_right .inl
        · intro further
          rw [onLine_cons_other (.inl (by simp)), feedLine_append_succ noFeed]
          exact onward.2 further

theorem tokensOf_onLine {depth : Nat} {mark : Mark} {text : List Char}
    {segments : List Segment} (segmented : Segmented depth mark text segments) (number : Nat) :
    tokensOf (onLine segments number) = (tokensOf segments).filter fun token =>
      token.mark.line == number && token.lexeme != .newline := by
  induction segmented with
  | done => rfl
  | @cons depth mark chars rest lexeme segments front _ ih =>
      rw [tokensOf_cons, List.filter_append, ← ih]
      cases lexeme with
      | none =>
          by_cases here : mark.line = number ∧ chars ≠ ['\n']
          · rw [onLine_cons_here here.1 here.2, tokensOf_cons]
            rfl
          · rw [onLine_cons_other (by simp only; tauto)]
            rfl
      | some lexeme =>
          have isFeed := front.newline_iff
          by_cases here : mark.line = number ∧ chars ≠ ['\n']
          · have other : lexeme ≠ .newline := fun same => here.2 (isFeed.1 same)
            rw [onLine_cons_here here.1 here.2, tokensOf_cons]
            simp [Segment.token?, here.1, other]
          · rw [onLine_cons_other (by simp only; tauto)]
            simp only [Segment.token?, Option.map_some, Option.toList_some]
            rw [List.filter_cons_of_neg, List.filter_nil, List.nil_append]
            simp only [bne_iff_ne, Bool.and_eq_true, beq_iff_eq, ne_eq, isFeed]
            exact here

/-! ## The carriage return at the end of a line -/

theorem Front.dropReturn {depth : Nat} {chars : List Char} {lexeme : Option Lexeme}
    (front : Front depth (chars ++ ['\r']) lexeme []) :
    lexeme = none ∧ (chars = [] ∨ Front depth chars none []) := by
  generalize shape : chars ++ ['\r'] = whole at front
  have last : '\r' ∈ whole := by rw [← shape]; simp
  have noNumber : isNumberChar '\r' = false := by decide
  have noDigit : isDigit '\r' = false := by decide
  have noWord : isWordChar '\r' = false := by decide
  have noStart : isWordStart '\r' = false := by decide
  cases front with
  | blank _ =>
      refine ⟨rfl, .inl ?_⟩
      simpa using congrArg List.length shape
  | @comment body _ noFeed ends =>
      refine ⟨rfl, .inr ?_⟩
      rcases List.eq_nil_or_concat body with rfl | ⟨front, c, rfl⟩
      · have two : chars ++ ['\r'] = ['/'] ++ ['/'] := shape
        cases (List.append_inj' two rfl).2
      · rw [List.concat_eq_append, ← List.cons_append, ← List.cons_append] at shape
        obtain ⟨rfl, -⟩ := List.append_inj' shape rfl
        exact .comment (fun isIn => noFeed (by simp [isIn])) ends
  | feed => simp at last
  | @string body _ _ quoted =>
      have ends : chars ++ ['\r'] = ('"' :: body) ++ ['"'] := shape
      cases (List.append_inj' ends rfl).2
  | number starts inner _ =>
      rcases List.mem_cons.1 last with rfl | isIn
      · rcases starts with isDigit | ⟨minus, -⟩
        · rw [noDigit] at isDigit
          cases isDigit
        · cases minus
      · have isNumber := List.all_eq_true.1 inner _ isIn
        rw [noNumber] at isNumber
        cases isNumber
  | word starts _ inner _ =>
      rcases List.mem_cons.1 last with rfl | isIn
      · rw [noStart] at starts
        cases starts
      · have isWord := List.all_eq_true.1 inner _ isIn
        rw [noWord] at isWord
        cases isWord
  | doubleAt => simp at last
  | atSign _ => simp at last
  | sign isSign =>
      obtain rfl := List.mem_singleton.1 last
      cases isSign

/-- A carriage return at the end of a line belongs to a gap. -/
theorem Segmented.dropReturn {depth : Nat} {mark : Mark} {line : List Char}
    {segments : List Segment} (segmented : Segmented depth mark (line ++ ['\r']) segments) :
    ∃ row, Segmented depth mark line row ∧ tokensOf row = tokensOf segments ∧
      ∀ segment ∈ row, ∃ tail, { segment with chars := segment.chars ++ tail } ∈ segments := by
  generalize shape : line ++ ['\r'] = text at segmented
  induction segmented generalizing line with
  | done => simp at shape
  | @cons depth mark chars rest lexeme segments front others ih =>
      rcases List.eq_nil_or_concat rest with rfl | ⟨front', c, rfl⟩
      · rw [List.append_nil] at shape
        subst shape
        obtain ⟨rfl, rfl | kept⟩ := front.dropReturn
        · exact ⟨[], .done, by rw [tokensOf_cons, others.unique .done]; rfl, by simp⟩
        · have row : Segmented depth mark (line ++ []) [⟨mark, line, none⟩] := .cons kept .done
          rw [List.append_nil] at row
          refine ⟨_, row, by rw [tokensOf_cons, tokensOf_cons, others.unique .done]; rfl, ?_⟩
          intro segment isIn
          obtain rfl := List.mem_singleton.1 isIn
          exact ⟨['\r'], by simp⟩
      · rw [List.concat_eq_append, ← List.append_assoc] at shape
        obtain ⟨rfl, ends⟩ := List.append_inj' shape rfl
        obtain rfl := (List.cons.inj ends).1
        obtain ⟨row, segmented, tokens, part⟩ := ih (List.concat_eq_append).symm
        have kept : Front depth chars lexeme front' := by
          apply front.retail
          cases front' with
          | nil => exact .inr (.inl rfl)
          | cons d front' => exact .inl rfl
        refine ⟨_, .cons kept segmented, by rw [tokensOf_cons, tokensOf_cons, tokens], ?_⟩
        intro segment isIn
        rcases List.mem_cons.1 isIn with rfl | isIn
        · exact ⟨[], by simp⟩
        · obtain ⟨tail, known⟩ := part segment isIn
          exact ⟨tail, by simp [known]⟩

/-! ## The lines of a document -/

def lineTokens (tokens : List Token) (number : Nat) : List Token :=
  tokens.filter fun token => token.mark.line == number + 1 && token.lexeme != .newline

theorem lineTokens_append (first second : List Token) (number : Nat) :
    lineTokens (first ++ second) number = lineTokens first number ++ lineTokens second number :=
  List.filter_append first second

theorem lineTokens_cons_here {token : Token} {number : Nat} (here : token.mark.line = number + 1)
    (other : token.lexeme ≠ .newline) (tokens : List Token) :
    lineTokens (token :: tokens) number = token :: lineTokens tokens number := by
  simp [lineTokens, here, other]

theorem mem_lineTokens {tokens : List Token} {number : Nat} {token : Token} :
    token ∈ lineTokens tokens number ↔
      token ∈ tokens ∧ token.mark.line = number + 1 ∧ token.lexeme ≠ .newline := by
  simp [lineTokens]

theorem lineTokens_of_forall {tokens : List Token} {number : Nat}
    (here : ∀ t ∈ tokens, t.mark.line = number + 1 ∧ t.lexeme ≠ .newline) :
    lineTokens tokens number = tokens := by
  rw [lineTokens, List.filter_eq_self]
  intro t isIn
  simpa using here t isIn

theorem lineTokens_eq_nil {tokens : List Token} {number : Nat}
    (other : ∀ t ∈ tokens, t.lexeme ≠ .newline → t.mark.line ≠ number + 1) :
    lineTokens tokens number = [] := by
  rw [lineTokens, List.filter_eq_nil_iff]
  intro t isIn
  simp only [Bool.and_eq_true, beq_iff_eq, bne_iff_ne, not_and, ne_eq, not_not]
  intro here
  by_contra noEnd
  exact other t isIn noEnd here

/-- The segments of a document's line: its tokens are those of the text on that line,
and each segment is one of the text, cut off at most at the line end. -/
structure IsRow (segments : List Segment) (number : Nat) (line : List Char)
    (row : List Segment) : Prop where
  noFeed : '\n' ∉ line
  segmented : Segmented 0 ⟨number + 1, 1⟩ line row
  tokens : tokensOf row = lineTokens (tokensOf segments) number
  part : ∀ segment ∈ row, ∃ tail, { segment with chars := segment.chars ++ tail } ∈ segments

/-- **Every line of a document has its own segments.** -/
theorem exists_row {text : List Char} {segments : List Segment}
    (segmented : Segmented 0 .start text segments) (alone : FeedsAlone segments)
    (plain : PlainLineEnds text) (number : Nat) :
    ∃ row, IsRow segments number (editorLine text number) row := by
  have cut : Segmented 0 ⟨number + 1, 1⟩ (feedLine text number) (onLine segments (number + 1)) := by
    obtain ⟨first, further⟩ := segmented.cutLines alone
    cases number with
    | zero => exact first
    | succ number =>
        have same : number + 1 + 1 = Mark.start.line + (number + 1) := by
          rw [Mark.start, Nat.add_comm]
        rw [same]
        exact further number
  have tokens := tokensOf_onLine segmented (number + 1)
  have noFeed := not_mem_feedLine text number
  have part : ∀ segment ∈ onLine segments (number + 1), segment ∈ segments :=
    fun segment isIn => (List.mem_filter.1 isIn).1
  rcases feedLine_eq_editorLine plain number with same | same
  · rw [same] at cut noFeed
    exact ⟨_, noFeed, cut, tokens, fun segment isIn => ⟨[], by simpa using part segment isIn⟩⟩
  · rw [same] at cut noFeed
    rw [List.mem_append, not_or] at noFeed
    obtain ⟨row, kept, sameTokens, known⟩ := cut.dropReturn
    refine ⟨row, noFeed.1, kept, sameTokens.trans tokens, fun segment isIn => ?_⟩
    obtain ⟨tail, isIn⟩ := known segment isIn
    exact ⟨tail, part _ isIn⟩

end SchemaAssist
