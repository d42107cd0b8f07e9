/-
# SchemaAssist.Proofs.Token.Along — tokens along the lines

Two ways to follow the tokens of a text.  Down the text, their lines never decrease,
they increase behind a line end, and they stay where no line feed stands between two
tokens (`Segmented.ordered`, `Segmented.sameLine`).  Along one line, a token is
reached over a gap of blanks, and its spelling is known from its lexeme
(`Segmented.next`, `Front.name`, `Front.punct`).

`Segmented.sign_mem` goes the other way: a sign on a line is a token of the line if no
quote and no slash stand before it.
-/
import SchemaAssist.Proofs.Token.Rows

namespace SchemaAssist

set_option autoImplicit false

open Text

/-! ## Down the text -/

theorem token_mem_iff {segments : List Segment} {token : Token} :
    token ∈ tokensOf segments ↔
      ∃ segment ∈ segments, segment.lexeme = some token.lexeme ∧ segment.mark = token.mark := by
  simp only [tokensOf, List.mem_filterMap, Segment.token?, Option.map_eq_some_iff]
  constructor
  · rintro ⟨segment, isIn, lexeme, found, rfl⟩
    exact ⟨segment, isIn, found, rfl⟩
  · rintro ⟨segment, isIn, found, same⟩
    exact ⟨segment, isIn, token.lexeme, found, by rw [same]⟩

/-- A token never stands above an earlier one, and never on its line if that one ends
the line. -/
def Precedes (first second : Token) : Prop :=
  first.mark.line ≤ second.mark.line ∧
    (first.lexeme = .newline → first.mark.line < second.mark.line)

theorem Segmented.ordered {depth : Nat} {mark : Mark} {text : List Char}
    {segments : List Segment} (segmented : Segmented depth mark text segments) :
    (tokensOf segments).Pairwise Precedes := by
  induction segmented with
  | done => exact .nil
  | @cons depth mark chars rest lexeme segments front others ih =>
      cases lexeme with
      | none => exact ih
      | some lexeme =>
          rw [tokensOf_token]
          refine List.pairwise_cons.2 ⟨?_, ih⟩
          intro token isIn
          obtain ⟨segment, known, -, same⟩ := token_mem_iff.1 isIn
          have below := others.line_le segment known
          rw [Mark.line_behind, same] at below
          refine ⟨by simp only; omega, fun isEnd => ?_⟩
          obtain rfl := front.newline_iff.1 isEnd
          rw [List.count_singleton_self] at below
          exact below

theorem Front.gap_noFeed {depth : Nat} {chars rest : List Char}
    (front : Front depth chars none rest) (flat : depth = 0) : '\n' ∉ chars := by
  intro hasFeed
  rcases front.feed_or_string hasFeed with rfl | ⟨text, isString⟩
  · have feed : Front depth ['\n'] (feedLexeme depth) rest := .feed
    have same := (front.unique feed rfl).2.1
    subst flat
    cases same
  · cases isString

theorem Front.token_noFeed {depth : Nat} {chars rest : List Char} {lexeme : Lexeme}
    (front : Front depth chars (some lexeme) rest) (alone : '\n' ∈ chars → chars = ['\n'])
    (other : lexeme ≠ .newline) : '\n' ∉ chars :=
  fun isIn => other (front.newline_iff.2 (alone isIn))

theorem Mark.behind_of_noFeed {chars : List Char} (noFeed : '\n' ∉ chars) (mark : Mark) :
    mark.behind chars = ⟨mark.line, mark.column + chars.length⟩ := by
  induction chars generalizing mark with
  | nil => rfl
  | cons c chars ih =>
      obtain ⟨other, noFeed⟩ := List.ne_and_not_mem_of_not_mem_cons noFeed
      rw [Mark.behind_cons, ih noFeed, Mark.after, if_neg (Ne.symm other), List.length_cons,
        Nat.add_assoc, Nat.add_comm 1]

theorem Mark.line_behind_of_noFeed {chars : List Char} (noFeed : '\n' ∉ chars) (mark : Mark) :
    (mark.behind chars).line = mark.line := by
  rw [Mark.behind_of_noFeed noFeed]

theorem Segmented.firstToken_line {depth : Nat} {mark : Mark} {text : List Char}
    {segments : List Segment} (segmented : Segmented depth mark text segments)
    (flat : depth = 0) {token : Token} {others : List Token}
    (tokens : tokensOf segments = token :: others) : token.mark.line = mark.line := by
  induction segmented with
  | done => cases tokens
  | @cons depth mark chars rest lexeme segments front _ ih =>
      cases lexeme with
      | none =>
          rw [tokensOf_gap] at tokens
          rw [ih flat tokens, Mark.line_behind_of_noFeed (front.gap_noFeed flat)]
      | some lexeme =>
          rw [tokensOf_token] at tokens
          obtain ⟨rfl, -⟩ := List.cons.inj tokens
          rfl

/-- Two tokens in sequence stand on one line, unless the first is a line end or leaves a
parenthesis or a bracket open. -/
theorem Segmented.sameLine {depth : Nat} {mark : Mark} {text : List Char}
    {segments : List Segment} (segmented : Segmented depth mark text segments)
    (alone : FeedsAlone segments) {before after : List Token} {token next : Token}
    (tokens : tokensOf segments = before ++ token :: next :: after)
    (flat : Grammar.depthBehind depth (before ++ [token]) = 0)
    (other : token.lexeme ≠ .newline) : next.mark.line = token.mark.line := by
  induction segmented generalizing before with
  | done => simp at tokens
  | @cons depth mark chars rest lexeme segments front others ih =>
      have alone' : FeedsAlone segments := fun s isIn => alone s (by simp [isIn])
      cases lexeme with
      | none => exact ih alone' tokens flat
      | some lexeme =>
          rw [tokensOf_token] at tokens
          cases before with
          | nil =>
              obtain ⟨rfl, behind⟩ := List.cons.inj tokens
              have noFeed := front.token_noFeed (alone ⟨mark, chars, some lexeme⟩ (by simp)) other
              rw [others.firstToken_line flat behind,
                Mark.line_behind_of_noFeed noFeed]
          | cons first before =>
              obtain ⟨rfl, behind⟩ := List.cons.inj tokens
              exact ih alone' behind flat

/-! ## Along a line -/

/-- The segments of a line all stand on it. -/
theorem Segmented.line_eq {depth : Nat} {mark : Mark} {line : List Char} {row : List Segment}
    (segmented : Segmented depth mark line row) (noFeed : '\n' ∉ line) :
    ∀ segment ∈ row, segment.mark.line = mark.line := by
  induction segmented with
  | done => simp
  | cons _ _ ih =>
      rw [List.mem_append, not_or] at noFeed
      intro segment isIn
      rcases List.mem_cons.1 isIn with rfl | isIn
      · rfl
      · rw [ih noFeed.2 segment isIn, Mark.line_behind_of_noFeed noFeed.1]

def IsGapChar (c : Char) : Prop := c = ' ' ∨ c = '\t' ∨ c = '\r'

theorem IsGapChar.isBlank {c : Char} (gap : IsGapChar c) : isBlank c = true := by
  rcases gap with rfl | rfl | rfl <;> decide

theorem IsGapChar.noFeed {gap : List Char} (blank : ∀ c ∈ gap, IsGapChar c) : '\n' ∉ gap := by
  intro isIn
  rcases blank _ isIn with same | same | same <;> cases same

theorem IsGapChar.not_isWordChar {c : Char} (gap : IsGapChar c) : isWordChar c = false := by
  rcases gap with rfl | rfl | rfl <;> decide

/-- **The next token of a line** stands behind a gap, and the line goes on behind it. -/
theorem Segmented.next {mark : Mark} {line : List Char} {row : List Segment}
    (segmented : Segmented 0 mark line row) (noFeed : '\n' ∉ line) {token : Token}
    {others : List Token} (tokens : tokensOf row = token :: others) :
    ∃ gap chars rest onward, line = gap ++ (chars ++ rest) ∧ (∀ c ∈ gap, IsGapChar c) ∧
      token.mark = mark.behind gap ∧ Front 0 chars (some token.lexeme) rest ∧
      Segmented 0 (token.mark.behind chars) rest onward ∧ tokensOf onward = others ∧
      ⟨token.mark, chars, some token.lexeme⟩ :: onward ⊆ row := by
  generalize flat : 0 = depth at segmented
  induction segmented with
  | done => cases tokens
  | @cons depth mark chars rest lexeme segments front others' ih =>
      subst flat
      rw [List.mem_append, not_or] at noFeed
      cases lexeme with
      | some lexeme =>
          rw [tokensOf_token] at tokens
          obtain ⟨rfl, behind⟩ := List.cons.inj tokens
          exact ⟨[], chars, rest, segments, rfl, by simp, rfl, front, others'.anyDepth noFeed.2 0,
            behind, fun _ isIn => isIn⟩
      | none =>
          obtain ⟨gap, spelling, behind, onward, rfl, gaps, place, here, segmented, same, part⟩ :=
            ih noFeed.2 tokens rfl
          generalize found : (none : Option Lexeme) = lexeme at front
          cases front with
          | @blank c _ isBlank =>
              refine ⟨c :: gap, spelling, behind, onward, rfl, ?_, place, here, segmented, same,
                fun s isIn => List.mem_cons_of_mem _ (part isIn)⟩
              simpa using ⟨isBlank, gaps⟩
          | comment _ ends =>
              -- a comment leaves nothing on its line
              obtain ⟨c, inner, rfl⟩ := here.cons
              rcases ends with ends | ends
              · simp at ends
              · obtain ⟨e, tail, shape⟩ : ∃ e tail, gap ++ (c :: inner ++ behind) = e :: tail := by
                  cases gap <;> exact ⟨_, _, rfl⟩
                rw [shape] at ends noFeed
                obtain rfl : e = '\n' := by simpa using ends
                simp at noFeed
          | feed => simp at noFeed
          | _ => cases found

/-- Any token of a line stands behind what comes before it, and the line goes on behind
it. -/
theorem Segmented.at_token {mark : Mark} {line : List Char} {row : List Segment}
    (segmented : Segmented 0 mark line row) (noFeed : '\n' ∉ line) {token : Token}
    {before others : List Token} (tokens : tokensOf row = before ++ token :: others) :
    ∃ front chars rest onward, line = front ++ (chars ++ rest) ∧
      token.mark = mark.behind front ∧ Front 0 chars (some token.lexeme) rest ∧
      Segmented 0 (token.mark.behind chars) rest onward ∧ tokensOf onward = others := by
  induction before generalizing mark line row with
  | nil =>
      obtain ⟨gap, chars, rest, onward, shape, -, place, here, segmented', same, -⟩ :=
        segmented.next noFeed tokens
      exact ⟨gap, chars, rest, onward, shape, place, here, segmented', same⟩
  | cons first before ih =>
      obtain ⟨gap, spelled, rest, onward, rfl, -, place, -, segmented', same, -⟩ :=
        segmented.next noFeed tokens
      rw [List.mem_append, List.mem_append, not_or, not_or] at noFeed
      obtain ⟨front, chars, behind, onward', rfl, place', found⟩ := ih segmented' noFeed.2.2 same
      refine ⟨gap ++ (spelled ++ front), chars, behind, onward', by simp, ?_, found⟩
      rw [place', place, Mark.behind_append, Mark.behind_append]

/-- A line without tokens is blank but for a comment. -/
theorem Segmented.noTokens {mark : Mark} {line : List Char} {row : List Segment}
    (segmented : Segmented 0 mark line row) (noFeed : '\n' ∉ line) (tokens : tokensOf row = []) :
    ∃ gap rest, line = gap ++ rest ∧ (∀ c ∈ gap, IsGapChar c) ∧
      (rest = [] ∨ rest.head? = some '/' ∧
        ∃ segment ∈ row, segment.lexeme = none ∧ segment.chars.head? = some '/') := by
  generalize flat : 0 = depth at segmented
  induction segmented with
  | done => exact ⟨[], [], rfl, by simp, .inl rfl⟩
  | @cons depth mark chars rest lexeme segments front others ih =>
      subst flat
      rw [List.mem_append, not_or] at noFeed
      cases lexeme with
      | some lexeme => cases tokens
      | none =>
          obtain ⟨gap, behind, rfl, gaps, ends⟩ := ih noFeed.2 tokens rfl
          generalize found : (none : Option Lexeme) = lexeme at front
          cases front with
          | @blank c _ isBlank =>
              refine ⟨c :: gap, behind, rfl, by simpa using ⟨isBlank, gaps⟩, ends.imp_right ?_⟩
              rintro ⟨slash, segment, isIn, known⟩
              exact ⟨slash, segment, List.mem_cons_of_mem _ isIn, known⟩
          | comment _ _ =>
              exact ⟨[], _, rfl, by simp, .inr ⟨rfl, _, List.mem_cons_self, rfl, rfl⟩⟩
          | feed => simp at noFeed
          | _ => cases found

/-! ## Spellings -/

theorem ofKeyword?_eq_some {word : String} {kind : BlockKind}
    (found : BlockKind.ofKeyword? word = some kind) : word = kind.keyword := by
  have same := List.find?_some found
  exact (beq_iff_eq.1 same).symm

/-- A name is spelled as it is, and no word character follows it. -/
theorem Front.name {depth : Nat} {chars rest : List Char} {lexeme : Lexeme} {name : String}
    (front : Front depth chars (some lexeme) rest) (named : lexeme.name? = some name) :
    chars = name.toList ∧ (∃ c inner, chars = c :: inner ∧ isWordStart c = true) ∧
      (∀ c ∈ chars, isWordChar c = true) ∧ rest.head?.any isWordChar = false := by
  generalize same : some lexeme = found at front
  cases front with
  | @word c inner _ starts _ all ends =>
      obtain rfl := Option.some.inj same
      refine ⟨?_, ⟨c, inner, rfl, starts⟩, ?_, ends⟩
      · unfold wordLexeme at named
        split at named
        · rename_i kind found
          rw [← Option.some.inj named]
          simp [← ofKeyword?_eq_some found]
        · rw [← Option.some.inj named, String.toList_ofList]
      · intro d isIn
        rcases List.mem_cons.1 isIn with rfl | isIn
        · exact isWordChar_of_isWordStart starts
        · exact List.all_eq_true.1 all d isIn
  | feed =>
      unfold feedLexeme at same
      split at same <;> cases same
      cases named
  | _ => cases same <;> cases named

/-- Punctuation is spelled as it is. -/
theorem Front.punct {depth : Nat} {chars rest : List Char} {p : Punct}
    (front : Front depth chars (some (.punct p)) rest) : chars = p.text.toList := by
  generalize same : some (Lexeme.punct p) = found at front
  cases front with
  | doubleAt => cases same; rfl
  | atSign _ => cases same; rfl
  | sign isSign =>
      cases same
      unfold Punct.ofChar? at isSign
      split at isSign <;> cases isSign <;> rfl
  | word _ _ _ _ =>
      unfold wordLexeme at same
      split at same <;> cases same
  | feed =>
      unfold feedLexeme at same
      split at same <;> cases same
  | _ => cases same

/-- What a sign is spelled with stands in its text. -/
theorem Segmented.mem_of_punct {depth : Nat} {mark : Mark} {text : List Char}
    {segments : List Segment} (segmented : Segmented depth mark text segments) {token : Token}
    (isIn : token ∈ tokensOf segments) {p : Punct} (same : token.lexeme = .punct p) :
    ∀ c ∈ p.text.toList, c ∈ text := by
  obtain ⟨segment, known, lexeme, -⟩ := token_mem_iff.1 isIn
  obtain ⟨under, rest, front⟩ := segmented.exists_front known
  rw [lexeme, same] at front
  intro c spelled
  rw [← segmented.flatten, List.mem_flatMap]
  exact ⟨segment, known, by rw [front.punct]; exact spelled⟩

theorem Front.stringLexeme {depth : Nat} {chars rest : List Char} {text : String}
    (front : Front depth chars (some (.string text)) rest) :
    ∃ body content, chars = '"' :: body ++ ['"'] ∧ Quoted body content ∧
      text = String.ofList content := by
  generalize same : some (Lexeme.string text) = found at front
  cases front with
  | string quoted =>
      cases same
      exact ⟨_, _, rfl, quoted, rfl⟩
  | word _ _ _ _ =>
      unfold wordLexeme at same
      split at same <;> cases same
  | feed =>
      unfold feedLexeme at same
      split at same <;> cases same
  | _ => cases same

/-- A string with no line feed in its text is spelled with none. -/
theorem Quoted.noFeed {body text : List Char} (quoted : Quoted body text) (noFeed : '\n' ∉ text) :
    '\n' ∉ body := by
  induction quoted with
  | done => exact noFeed
  | @escaped c body text _ ih =>
      obtain ⟨other, behind⟩ := List.ne_and_not_mem_of_not_mem_cons noFeed
      have unlike : c ≠ '\n' := by
        rintro rfl
        exact other (by decide)
      simp [ih behind, unlike.symm]
  | plain _ other _ _ ih =>
      obtain ⟨-, behind⟩ := List.ne_and_not_mem_of_not_mem_cons noFeed
      simp [ih behind, other.symm]

/-- A line feed in a string is escaped. -/
theorem Quoted.exists_slash_feed {body text : List Char} (quoted : Quoted body text)
    (hasFeed : '\n' ∈ body) : ∃ front back, body = front ++ '\\' :: '\n' :: back := by
  induction quoted with
  | done => cases hasFeed
  | @escaped c body text quoted ih =>
      by_cases feed : c = '\n'
      · exact ⟨[], body, by rw [feed]; rfl⟩
      · obtain ⟨front, back, rfl⟩ := ih (by simpa [Ne.symm feed] using hasFeed)
        exact ⟨'\\' :: c :: front, back, rfl⟩
  | @plain c body text noQuote noFeed noSlash quoted ih =>
      obtain ⟨front, back, rfl⟩ := ih (by simpa [Ne.symm noFeed] using hasFeed)
      exact ⟨c :: front, back, rfl⟩

/-- A string of a line stands behind the segments in front of it. -/
theorem Segmented.exists_string {line : List Char} {segments : List Segment}
    (segmented : Segmented 0 .start line segments) {text : String} {mark : Mark}
    (isIn : ⟨.string text, mark⟩ ∈ tokensOf segments) :
    ∃ before others body rest,
      segments = before ++ ⟨mark, '"' :: body ++ ['"'], some (.string text)⟩ :: others ∧
      mark = Mark.start.behind (before.flatMap (·.chars)) ∧
      line = before.flatMap (·.chars) ++ ('"' :: body ++ '"' :: rest) ∧
      Quoted body text.toList := by
  obtain ⟨⟨mark', chars, lexeme⟩, known, isString, here⟩ := token_mem_iff.1 isIn
  obtain rfl : lexeme = some (.string text) := isString
  obtain rfl : mark' = mark := here
  obtain ⟨before, others, rfl⟩ := List.append_of_mem known
  obtain ⟨_, rfl, behind⟩ := segmented.cut
  cases behind with
  | @cons _ _ _ rest _ _ front _ =>
      obtain ⟨body, content, rfl, quoted, rfl⟩ := front.stringLexeme
      refine ⟨before, others, body, rest, rfl, rfl, by simp, ?_⟩
      rwa [String.toList_ofList]

/-- Strings with no line feeds in their texts stand on one line each. -/
theorem Segmented.stringsOnLine {depth : Nat} {mark : Mark} {text : List Char}
    {segments : List Segment} (segmented : Segmented depth mark text segments)
    (noFeed : ∀ t ∈ tokensOf segments, t.lexeme ≠ .newline → '\n' ∉ t.lexeme.text.toList) :
    ∀ segment ∈ segments, ∀ content, segment.lexeme = some (.string content) →
      '\n' ∉ segment.chars := by
  intro segment isIn content isString
  obtain ⟨under, rest, front⟩ := segmented.exists_front isIn
  rw [isString] at front
  obtain ⟨body, own, shape, quoted, same⟩ := front.stringLexeme
  have known : (⟨.string content, segment.mark⟩ : Token) ∈ tokensOf segments :=
    token_mem_iff.2 ⟨segment, isIn, isString, rfl⟩
  have clear := noFeed _ known (by simp)
  rw [Lexeme.text, same, String.toList_ofList] at clear
  rw [shape]
  simpa using quoted.noFeed clear

/-! ## Signs on a line -/

/-- A sign that only punctuation and texts in quotes or comments can hold. -/
def IsPlainSign (c : Char) (p : Punct) : Prop :=
  Punct.ofChar? c = some p ∧ isNumberChar c = false ∧ isWordChar c = false

theorem Front.plainSign {depth : Nat} {chars rest : List Char} {c : Char} {p : Punct}
    {lexeme : Option Lexeme} (here : Front depth chars lexeme rest) (isIn : c ∈ chars)
    (isSign : IsPlainSign c p) (noComment : lexeme = none → chars.head? ≠ some '/')
    (noString : ∀ text, lexeme ≠ some (.string text)) : lexeme = some (.punct p) := by
  obtain ⟨found, noNumber, noWord⟩ := isSign
  have isSign : IsSignChar c := by
    refine ⟨noNumber, noWord, ?_, ?_⟩ <;> rintro rfl <;> cases found
  rcases here.of_signChar isSign isIn with ⟨text, isString⟩ | ⟨body, rfl, isGap, -⟩ |
    ⟨-, (rfl | rfl | rfl) | rfl | ⟨p', known, rfl⟩⟩
  · exact absurd isString (noString text)
  · exact absurd rfl (noComment isGap)
  · cases found
  · cases found
  · cases found
  · cases found
  · rw [known] at found
    rw [Option.some.inj found]

/-- A segment that reaches up to a plain sign, with no quote and no slash before it, is
neither a comment nor a string. -/
theorem Front.plainSign_append {depth : Nat} {front back rest : List Char} {c : Char} {p : Punct}
    {lexeme : Option Lexeme} (here : Front depth (front ++ c :: back) lexeme rest)
    (isSign : IsPlainSign c p) (noQuote : '"' ∉ front) (noSlash : '/' ∉ front) :
    lexeme = some (.punct p) := by
  have starts : ∀ d, (front ++ c :: back).head? = some d → d ∉ front → d = c := by
    intro d head noFront
    cases front with
    | nil => exact (Option.some.inj head).symm
    | cons e front =>
        obtain rfl : e = d := Option.some.inj head
        exact absurd List.mem_cons_self noFront
  refine here.plainSign (by simp) isSign (fun _ slash => ?_) ?_
  · obtain rfl := starts _ slash noSlash
    cases isSign.1
  · rintro text rfl
    obtain ⟨body, content, shape, -⟩ := here.stringLexeme
    obtain rfl := starts '"' (by rw [shape]; rfl) noQuote
    cases isSign.1

/-- Such a sign is spelled with one character. -/
theorem Front.eq_singleton {depth : Nat} {front back rest : List Char} {c : Char} {p : Punct}
    (here : Front depth (front ++ c :: back) (some (.punct p)) rest) (isSign : IsPlainSign c p) :
    front = [] ∧ back = [] := by
  have single : p.text.toList = [c] := by
    obtain ⟨found, -⟩ := isSign
    unfold Punct.ofChar? at found
    split at found <;> cases found <;> rfl
  have spelled := here.punct.trans single
  rcases List.append_eq_singleton_iff.1 spelled with ⟨none, tail⟩ | ⟨-, none⟩
  · exact ⟨none, (List.cons.inj tail).2⟩
  · cases none

/-- **A sign is a token** if no quote and no slash stand before it. -/
theorem Segmented.sign_mem {depth : Nat} {mark : Mark} {front back : List Char} {c : Char}
    {row : List Segment} (segmented : Segmented depth mark (front ++ c :: back) row) {p : Punct}
    (isSign : IsPlainSign c p) (noQuote : '"' ∉ front) (noSlash : '/' ∉ front) :
    ⟨.punct p, mark.behind front⟩ ∈ tokensOf row := by
  generalize shape : front ++ c :: back = line at segmented
  induction segmented generalizing front with
  | done => simp at shape
  | @cons depth mark chars rest lexeme segments here _ ih =>
      rw [tokensOf_cons, List.mem_append]
      rcases List.append_eq_append_iff.1 shape with ⟨more, rfl, tail⟩ | ⟨more, rfl, tail⟩
      · cases more with
        | nil =>
            rw [List.append_nil] at ih
            exact .inr (ih List.not_mem_nil List.not_mem_nil tail)
        | cons d more =>
            obtain ⟨rfl, -⟩ := List.cons.inj tail
            obtain rfl := here.plainSign_append isSign noQuote noSlash
            obtain ⟨rfl, -⟩ := here.eq_singleton isSign
            exact .inl (by simp [Segment.token?])
      · rw [List.mem_append, not_or] at noQuote noSlash
        rw [Mark.behind_append]
        exact .inr (ih noQuote.2 noSlash.2 tail.symm)

end SchemaAssist
