/-
# SchemaAssist.Proofs.LineEndings — a carriage return in front of every line feed

A text whose lines end in a line feed can be stored with pairs of a carriage return and a line
feed instead (`withReturns`).  An editor shows the same lines.  The lexer meets one more gap at
each line end, but for a comment, which takes the carriage return in: either way the same
lexemes stand on the same lines (`lexFrom_withReturns`).  Hence the tree and all suggestions
stay (`parse?_items_returned`).

A backslash is the one thing that a carriage return could come between and a line feed: in a
string it takes the line feed literally, and the carriage return instead of it.
-/
import SchemaAssist.Proofs.Grammar.Lexemes
import SchemaAssist.Proofs.Text.LineCounts
import SchemaAssist.Proofs.Token.Continuation
import SchemaAssist.Proofs.Token.Along
import SchemaAssist.Completion

namespace SchemaAssist

set_option autoImplicit false

open Text Grammar

/-- The text with a carriage return in front of every line feed. -/
def withReturns (text : List Char) : List Char :=
  text.flatMap fun c => if c = '\n' then ['\r', '\n'] else [c]

/-- The text has no carriage return, and no backslash in front of a line feed. -/
structure BareFeeds (text : List Char) : Prop where
  noReturn : '\r' ∉ text
  noSlash : ∀ front back, text ≠ front ++ '\\' :: '\n' :: back

theorem BareFeeds.of_append (front : List Char) {back : List Char}
    (bare : BareFeeds (front ++ back)) : BareFeeds back where
  noReturn isIn := bare.noReturn (List.mem_append_right _ isIn)
  noSlash before behind shape := by
    apply bare.noSlash (front ++ before) behind
    rw [shape, List.append_assoc]

/-- Backslashes can be looked for two characters at a time. -/
theorem BareFeeds.of_isChain {text : List Char} (noReturn : '\r' ∉ text)
    (pairs : text.IsChain fun c d => c = '\\' → d ≠ '\n') : BareFeeds text where
  noReturn := noReturn
  noSlash front back shape := by
    rw [shape] at pairs
    exact (List.isChain_append_cons_cons.1 pairs).2.1 rfl rfl

/-! ## Texts -/

@[simp] theorem withReturns_nil : withReturns [] = [] := rfl

@[simp] theorem withReturns_feed (rest : List Char) :
    withReturns ('\n' :: rest) = '\r' :: '\n' :: withReturns rest := rfl

theorem withReturns_cons {c : Char} (noFeed : c ≠ '\n') (rest : List Char) :
    withReturns (c :: rest) = c :: withReturns rest := by
  simp [withReturns, noFeed]

@[simp] theorem withReturns_append (first second : List Char) :
    withReturns (first ++ second) = withReturns first ++ withReturns second :=
  List.flatMap_append

theorem withReturns_of_noFeed {chars : List Char} (noFeed : '\n' ∉ chars) :
    withReturns chars = chars := by
  induction chars with
  | nil => rfl
  | cons c chars ih =>
      obtain ⟨other, noFeed⟩ := List.ne_and_not_mem_of_not_mem_cons noFeed
      rw [withReturns_cons other.symm, ih noFeed]

/-- An editor takes the carriage returns off again. -/
theorem editorLines_withReturns {text : List Char} (noReturn : '\r' ∉ text) :
    editorLines (withReturns text) = editorLines text := by
  induction text with
  | nil => rfl
  | cons c rest ih =>
      obtain ⟨other, noReturn⟩ := List.ne_and_not_mem_of_not_mem_cons noReturn
      by_cases feed : c = '\n'
      · subst feed
        have pair := editorLines_cons_lineEnd (.inr rfl) (withReturns rest)
        have single := editorLines_cons_lineEnd (.inl rfl) rest
        simp_all
      · rw [withReturns_cons feed]
        by_cases rare : isRareLineEnd c = true
        · rw [editorLines_rare rare, editorLines_rare rare, ih noReturn]
        · have onLine : OnLine c := ⟨feed, other.symm, by simpa using rare⟩
          rw [editorLines_cons onLine, editorLines_cons onLine, ih noReturn]

theorem head?_withReturns (text : List Char) :
    (withReturns text).head? = text.head?.map fun c => if c = '\n' then '\r' else c := by
  cases text with
  | nil => rfl
  | cons c rest =>
      by_cases feed : c = '\n'
      · simp [feed]
      · simp [feed, withReturns_cons]

/-! ## Pieces -/

theorem stringBody_withReturns {text : List Char} (bare : BareFeeds text) :
    stringBody (withReturns text) = stringBody text := by
  fun_induction stringBody text with
  | case1 => rfl
  | case2 rest => rfl
  | case3 rest => rfl
  | case4 => rfl
  | case5 c rest ih =>
      have noFeed : c ≠ '\n' := by
        rintro rfl
        exact bare.noSlash [] rest rfl
      rw [withReturns_cons (by decide), withReturns_cons noFeed, stringBody,
        ih (bare.of_append ['\\', c])]
  | case6 c rest noQuote noFeed noEnd noSlash ih =>
      have other := ne_slash_of_rest noEnd noSlash
      rw [withReturns_cons noFeed, stringBody_plain noQuote noFeed other,
        ih (bare.of_append [c])]

/-- Where no lexeme starts, none starts with carriage returns either. -/
theorem pieceAt_withReturns {depth : Nat} {c : Char} {tail : List Char} {fault : SyntaxFault}
    (bare : BareFeeds (c :: tail)) (failed : pieceAt depth c tail = .error fault) :
    pieceAt depth c (withReturns tail) = .error fault := by
  have same : ∀ d, d ≠ '\r' → d ≠ '\n' →
      ((withReturns tail).head? = some d ↔ tail.head? = some d) := by
    intro d noReturn noFeed
    rw [head?_withReturns]
    cases tail with
    | nil => rfl
    | cons e rest =>
        by_cases feed : e = '\n'
        · simp [feed, Ne.symm noReturn, Ne.symm noFeed]
        · simp [feed]
  have digit : (withReturns tail).head?.any isDigit = tail.head?.any isDigit := by
    have noFeed : isDigit '\n' = false := by decide
    have noReturn : isDigit '\r' = false := by decide
    rw [head?_withReturns]
    cases tail with
    | nil => rfl
    | cons e rest =>
        by_cases feed : e = '\n'
        · simp [feed, noFeed, noReturn]
        · simp [feed]
  have body := stringBody_withReturns (bare.of_append [c])
  have slash := same '/' (by decide) (by decide)
  have atSign := same '@' (by decide) (by decide)
  unfold pieceAt at failed ⊢
  simp only [slash, atSign, digit, body]
  grind

/-- Only a line feed of its own is a line feed. -/
theorem Front.noFeed_of_bare {depth : Nat} {chars rest : List Char} {lexeme : Option Lexeme}
    (front : Front depth chars lexeme rest) (bare : BareFeeds (chars ++ rest))
    (other : chars ≠ ['\n']) : '\n' ∉ chars := by
  intro hasFeed
  rcases front.feed_or_string hasFeed with alone | ⟨text, rfl⟩
  · exact other alone
  · obtain ⟨body, content, rfl, quoted, -⟩ := front.stringLexeme
    have inBody : '\n' ∈ body := by simpa using hasFeed
    obtain ⟨before, behind, rfl⟩ := quoted.exists_slash_feed inBody
    exact bare.noSlash ('"' :: before) (behind ++ '"' :: rest) (by simp)

/-! ## Tokens -/

theorem lexFrom_return (depth : Nat) (mark : Mark) (rest : List Char) :
    lexFrom depth mark 0 ('\r' :: rest) = lexFrom depth (mark.after '\r') 0 rest := rfl

def TokenStream.push (first : List Token) (stream : TokenStream) : TokenStream :=
  { stream with tokens := first ++ stream.tokens }

/-- The first segment stays, or is a comment that takes a carriage return in. -/
theorem lexFrom_front_withReturns {depth : Nat} {chars rest : List Char} {lexeme : Option Lexeme}
    (front : Front depth chars lexeme rest) (mark : Mark) :
    lexFrom depth mark 0 (chars ++ withReturns rest) =
      (lexFrom (depthAfter depth lexeme) (mark.behind chars) 0 (withReturns rest)).map
        (.push (Segment.token? ⟨mark, chars, lexeme⟩).toList) := by
  by_cases feed : rest.head? = some '\n'
  · obtain ⟨behind, rfl⟩ := List.head?_eq_some_iff.1 feed
    rw [withReturns_feed]
    have ends : ProlongsNoToken ('\r' :: '\n' :: withReturns behind) := by
      rintro c ⟨⟩
      decide
    rcases front.before_other ends with stays | ⟨rfl, body, inBody, rfl⟩
    · exact lexFrom_front stays mark
    · have longer : Front depth ('/' :: '/' :: (body ++ ['\r'])) none
          ('\n' :: withReturns behind) := .comment (by simpa using inBody) (.inr rfl)
      have read : lexFrom depth mark 0 _ = (lexFrom _ _ 0 _).map (.push []) :=
        lexFrom_front longer mark
      rw [lexFrom_return]
      simpa [Segment.token?] using read
  · have same : (withReturns rest).head? = rest.head? := by
      rw [head?_withReturns]
      cases rest with
      | nil => rfl
      | cons c rest => simp_all
    exact lexFrom_front (front.retail (.inl same)) mark

/-- Two streams that agree up to the line agree behind one more segment on the same line. -/
theorem tokensUpTo?_push {lexed other : Except SyntaxError TokenStream}
    (same : tokensUpTo? Mark.startOfLine other = tokensUpTo? Mark.startOfLine lexed)
    {mark place : Mark} (sameLine : place.line = mark.line) (chars : List Char)
    (lexeme : Option Lexeme) :
    tokensUpTo? Mark.startOfLine
        (other.map (.push (Segment.token? ⟨place, chars, lexeme⟩).toList)) =
      tokensUpTo? Mark.startOfLine
        (lexed.map (.push (Segment.token? ⟨mark, chars, lexeme⟩).toList)) := by
  have push : ∀ (lexed : Except SyntaxError TokenStream) (first : List Token),
      tokensUpTo? Mark.startOfLine (lexed.map (.push first)) =
        (tokensUpTo? Mark.startOfLine lexed).map
          (first.map (·.relocate Mark.startOfLine) ++ ·) := by
    intro lexed first
    cases lexed with
    | error error => rfl
    | ok stream => exact congrArg some List.map_append
  rw [push, push, same]
  cases lexeme with
  | none => rfl
  | some lexeme => simp [Segment.token?, Token.relocate, Mark.startOfLine, sameLine]

/-- With carriage returns, the same lexemes stand on the same lines. -/
theorem lexFrom_withReturns {text : List Char} (bare : BareFeeds text) (depth : Nat)
    {mark other : Mark} (sameLine : other.line = mark.line) :
    tokensUpTo? Mark.startOfLine (lexFrom depth other 0 (withReturns text)) =
      tokensUpTo? Mark.startOfLine (lexFrom depth mark 0 text) := by
  induction depth, mark, text using front_induction generalizing other with
  | done depth mark => rfl
  | fault depth mark c tail fault read =>
      have noFeed : c ≠ '\n' := by
        rintro rfl
        cases read
      have read' := pieceAt_withReturns bare read
      rw [withReturns_cons noFeed]
      simp [lexFrom, read, read', tokensUpTo?, Except.toOption]
  | segment depth mark chars lexeme rest front ih =>
      have onward : ∀ {place : Mark}, place.line = mark.line →
          tokensUpTo? Mark.startOfLine
              (lexFrom (depthAfter depth lexeme) (place.behind chars) 0 (withReturns rest)) =
            tokensUpTo? Mark.startOfLine
              (lexFrom (depthAfter depth lexeme) (mark.behind chars) 0 rest) := by
        intro place sameLine
        apply ih (bare.of_append chars)
        rw [Mark.line_behind, Mark.line_behind, sameLine]
      by_cases alone : chars = ['\n']
      · subst alone
        have afterReturn : (other.after '\r').line = mark.line := sameLine
        have front' : Front depth ['\n'] lexeme (withReturns rest) := by
          obtain ⟨-, rfl, -⟩ := front.unique .feed rfl
          exact .feed
        have read : lexFrom depth mark 0 ('\n' :: rest) = _ := lexFrom_front front mark
        have read' : lexFrom depth (other.after '\r') 0 ('\n' :: withReturns rest) = _ :=
          lexFrom_front front' _
        rw [List.singleton_append, withReturns_feed, lexFrom_return, read', read]
        exact tokensUpTo?_push (onward afterReturn) afterReturn _ _
      · have noFeed : '\n' ∉ chars := front.noFeed_of_bare bare alone
        rw [withReturns_append, withReturns_of_noFeed noFeed, lexFrom_front_withReturns front,
          lexFrom_front front]
        exact tokensUpTo?_push (onward sameLine) sameLine _ _

/-! ## Trees and suggestions -/

def returned (text : String) : String := String.ofList (withReturns text.toList)

theorem parse?_returned {text : String} (bare : BareFeeds text.toList) :
    Schema.parse? (returned text) = Schema.parse? text := by
  have rows : ∀ mark : Mark, mark.startOfLine.row = id mark.row := fun _ => rfl
  have same : tokensUpTo? Mark.startOfLine (TokenStream.ofText (returned text)) =
      tokensUpTo? Mark.startOfLine (TokenStream.ofText text) := by
    rw [TokenStream.ofText, returned, String.toList_ofList]
    exact lexFrom_withReturns bare 0 rfl
  simpa [Schema.mapLine_id] using parse?_congr rows same

theorem ofText_returned {text : String} (noReturn : '\r' ∉ text.toList) :
    Document.ofText (returned text) = Document.ofText text := by
  rw [Document.ofText, Document.ofText, returned, String.toList_ofList,
    editorLines_withReturns noReturn]

/-- **Carriage returns in front of all line feeds change nothing**: neither the tree nor what
is offered at any cursor, with the text's own tree or without one. -/
theorem parse?_items_returned {text : String} (bare : BareFeeds text.toList) :
    Schema.parse? (returned text) = Schema.parse? text ∧
      ∀ cursor settings,
        Completion.items (.ofText (returned text)) cursor none settings =
            Completion.items (.ofText text) cursor none settings ∧
          Completion.items (.ofText (returned text)) cursor (Schema.parse? (returned text))
              settings =
            Completion.items (.ofText text) cursor (Schema.parse? text) settings := by
  have trees := parse?_returned bare
  have documents := ofText_returned bare.noReturn
  refine ⟨trees, fun cursor settings => ⟨?_, ?_⟩⟩
  · rw [documents]
  · rw [documents, trees]

/-- A model with a comment in front of a line end, and a backslash in front of none. -/
def quotedDefault : String := "model A \x7b\n a String @default(\"\\\"\") // b\n\x7d"

theorem parse?_items_returned_quotedDefault :
    BareFeeds quotedDefault.toList ∧
      returned quotedDefault =
        "model A \x7b\r\n a String @default(\"\\\"\") // b\r\n\x7d" ∧
      Schema.parse? (returned quotedDefault) = Schema.parse? quotedDefault ∧
      ∀ cursor settings,
        Completion.items (.ofText (returned quotedDefault)) cursor none settings =
            Completion.items (.ofText quotedDefault) cursor none settings ∧
          Completion.items (.ofText (returned quotedDefault)) cursor
              (Schema.parse? (returned quotedDefault)) settings =
            Completion.items (.ofText quotedDefault) cursor (Schema.parse? quotedDefault)
              settings := by
  have bare : BareFeeds quotedDefault.toList := .of_isChain (by decide) (by decide)
  exact ⟨bare, by decide, parse?_items_returned bare⟩

end SchemaAssist
