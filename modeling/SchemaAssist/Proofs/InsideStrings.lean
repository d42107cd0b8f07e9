/-
# SchemaAssist.Proofs.InsideStrings — the cursor in a string

Between the quotes of a string nothing should be suggested.  Whether a cursor is there is not
asked of the lexer: inside the arguments of an attribute the quotes behind the parenthesis are
counted, and elsewhere nothing is.

As long as no string in front of the cursor holds a quote or a parenthesis (`QuietStrings`), the
quotes in front of a parenthesis are even in number and those in front of the cursor odd, so the
count is right.  Then nothing is suggested exactly if an attribute's arguments are open there,
the line goes on with an argument list, or two at-signs end the text inside a type alias
(`items_eq_nil_iff_of_surrounds`).  An escaped quote makes the count wrong
(`items_behind_escapedQuote`).
-/
import SchemaAssist.Proofs.AttributeSuggestions
import SchemaAssist.Proofs.OpenArguments
import SchemaAssist.Proofs.Token.Insertion

namespace SchemaAssist

set_option autoImplicit false

open Text

/-! ## Places in strings -/

/-- The token is a string, and the place lies between its quotes. -/
def Token.Surrounds (source : List Char) (token : Token) (place : Nat) : Prop :=
  ∃ text stop, token.lexeme = .string text ∧ token.EndsAt source stop ∧
    token.offsetIn source < place ∧ place < stop

/-- Neither a quote nor a parenthesis. -/
def IsQuiet (c : Char) : Prop := c ≠ '"' ∧ c ≠ '(' ∧ c ≠ ')'

/-- In front of that place no string holds a quote or a parenthesis. -/
def QuietStrings (source : List Char) (tokens : List Token) (place : Nat) : Prop :=
  ∀ token ∈ tokens, ∀ index < place, token.Encloses source index →
    ∀ c ∈ source[index]?, IsQuiet c

/-- What is written between the quotes of a string is in its text, but for escapes. -/
theorem Quoted.mem_text {body text : List Char} (quoted : Quoted body text) {c : Char}
    (isIn : c ∈ body) (plain : c ∉ ['\\', 'n', 't']) : c ∈ text := by
  simp only [List.mem_cons, List.not_mem_nil, or_false, not_or] at plain
  obtain ⟨noSlash, noFeed, noTab⟩ := plain
  induction quoted with
  | done => exact isIn
  | @escaped d body text _ ih =>
      simp only [List.mem_cons, noSlash, false_or] at isIn
      rcases isIn with rfl | isIn
      · simp [unescape, noFeed, noTab]
      · exact List.mem_cons_of_mem _ (ih isIn)
  | plain _ _ _ _ ih =>
      rcases List.mem_cons.1 isIn with rfl | isIn
      · exact List.mem_cons_self
      · exact List.mem_cons_of_mem _ (ih isIn)

/-- Strings are quiet if their texts are. -/
theorem quietStrings_of_texts {tokens : List Token}
    (plain : ∀ token ∈ tokens, ∀ text, token.lexeme = .string text → ∀ c ∈ text.toList, IsQuiet c)
    (source : List Char) (place : Nat) : QuietStrings source tokens place := by
  rintro token isIn index - ⟨text, body, rest, isString, split, quoted, above, below⟩ c here
  have inBody : c ∈ body := by
    obtain ⟨index, rfl⟩ := Nat.exists_eq_add_of_lt above
    rw [Nat.add_assoc, ← List.getElem?_drop, split, List.cons_append, List.getElem?_cons_succ,
      List.getElem?_append_left (by omega)] at here
    exact List.mem_of_getElem? here
  by_contra loud
  refine loud (plain token isIn text isString c (quoted.mem_text inBody ?_))
  rintro escape
  have quiet : ∀ c ∈ ['\\', 'n', 't'], IsQuiet c := by simp [IsQuiet]
  exact loud (quiet c escape)

/-! ## Pieces of a line -/

/-- A piece of a line: a string that holds neither quotes nor parentheses, or characters in
neither a string nor a comment. -/
inductive IsQuietPiece : List Char → Prop
  | outside {chars : List Char} : '"' ∉ chars → '/' ∉ chars → IsQuietPiece chars
  | string {body : List Char} :
      (∀ c ∈ body, IsQuiet c) → IsQuietPiece ('"' :: (body ++ ['"']))

theorem count_quote_eq_zero {chars : List Char} (quiet : ∀ c ∈ chars, IsQuiet c) :
    chars.count '"' = 0 :=
  List.count_eq_zero.2 fun isIn => (quiet _ isIn).1 rfl

/-- Quotes come in pairs. -/
theorem count_quote_flatten {pieces : List (List Char)}
    (quiet : ∀ piece ∈ pieces, IsQuietPiece piece) : pieces.flatten.count '"' % 2 = 0 := by
  induction pieces with
  | nil => rfl
  | cons piece pieces ih =>
      obtain ⟨here, further⟩ := List.forall_mem_cons.1 quiet
      have rest := ih further
      rw [List.flatten_cons, List.count_append]
      cases here with
      | outside noQuote _ => rwa [List.count_eq_zero.2 noQuote, Nat.zero_add]
      | string quietBody =>
          rw [List.count_cons_self, List.count_append, count_quote_eq_zero quietBody,
            List.count_singleton_self]
          omega

/-- A character of a text in pieces is in one of them. -/
theorem exists_piece {α : Type} {pieces : List (List α)} {front back : List α} {a : α}
    (split : pieces.flatten = front ++ a :: back) :
    ∃ earlier start rest later, pieces = earlier ++ (start ++ a :: rest) :: later ∧
      front = earlier.flatten ++ start := by
  induction pieces generalizing front with
  | nil => simp at split
  | cons piece pieces ih =>
      rw [List.flatten_cons, List.append_eq_append_iff] at split
      rcases split with ⟨start, rfl, onward⟩ | ⟨rest, rfl, onward⟩
      · obtain ⟨earlier, start, rest, later, rfl, rfl⟩ := ih onward
        exact ⟨piece :: earlier, start, rest, later, rfl, by simp⟩
      · cases rest with
        | nil =>
            have split : pieces.flatten = [] ++ a :: back := onward.symm
            obtain ⟨earlier, start, rest, later, rfl, same⟩ := ih split
            exact ⟨front :: earlier, start, rest, later, by simp, by simp [← same]⟩
        | cons b rest =>
            obtain ⟨rfl, -⟩ := List.cons.inj onward
            exact ⟨[], front, rest, pieces, rfl, rfl⟩

section

variable {pieces : List (List Char)} {front back : List Char}

/-- A parenthesis stands outside the strings. -/
theorem count_quote_before_paren (quiet : ∀ piece ∈ pieces, IsQuietPiece piece)
    (split : pieces.flatten = front ++ '(' :: back) : front.count '"' % 2 = 0 := by
  obtain ⟨earlier, start, rest, later, rfl, rfl⟩ := exists_piece split
  have even := count_quote_flatten fun piece (isIn : piece ∈ earlier) =>
    quiet piece (List.mem_append_left _ isIn)
  have here := quiet (start ++ '(' :: rest) (by simp)
  generalize shape : start ++ '(' :: rest = piece at here
  have isIn : '(' ∈ piece := by simp [← shape]
  cases here with
  | outside noQuote _ =>
      have noneBefore : '"' ∉ start := fun isQuote => noQuote (by simp [← shape, isQuote])
      rwa [List.count_append, List.count_eq_zero.2 noneBefore]
  | @string body quietBody =>
      have inBody : '(' ∈ body := by simpa using isIn
      exact absurd rfl (quietBody '(' inBody).2.1

/-- In front of a slash stands a quote. -/
theorem quote_mem_before_slash (quiet : ∀ piece ∈ pieces, IsQuietPiece piece)
    (split : pieces.flatten = front ++ '/' :: back) : '"' ∈ front := by
  obtain ⟨earlier, start, rest, later, rfl, rfl⟩ := exists_piece split
  have here := quiet (start ++ '/' :: rest) (by simp)
  generalize shape : start ++ '/' :: rest = piece at here
  cases here with
  | outside _ noSlash => exact absurd (by simp [← shape]) noSlash
  | string _ =>
      cases start with
      | nil => simp at shape
      | cons c start =>
          obtain ⟨rfl, -⟩ := List.cons.inj shape
          simp

end

/-! ## Texts that end in a string -/

/-- The text ends inside a string, and so far no string of it holds a quote or a parenthesis. -/
def EndsInQuietString (text : List Char) : Prop :=
  ∃ (pieces : List (List Char)) (begun : List Char), text = pieces.flatten ++ '"' :: begun ∧
    (∀ piece ∈ pieces, IsQuietPiece piece) ∧ ∀ c ∈ begun, IsQuiet c

namespace EndsInQuietString

variable {text : List Char}

theorem quote_mem (inString : EndsInQuietString text) : '"' ∈ text := by
  obtain ⟨pieces, begun, rfl, -⟩ := inString
  simp

/-- No member starts there. -/
theorem not_isFirstWord (inString : EndsInQuietString text) : isFirstWord text = false :=
  not_isFirstWord_of_mem inString.quote_mem (by decide) (by decide)

/-- The line is no comment. -/
theorem not_comment (inString : EndsInQuietString text) : ¬ ['/', '/'] <+: trimStart text := by
  obtain ⟨pieces, begun, split, quiet, -⟩ := inString
  rintro ⟨rest, comment⟩
  obtain ⟨blanks, blank, shape⟩ := exists_trimStart text
  have noQuote : '"' ∉ blanks := fun isIn => absurd (blank _ isIn) (by decide)
  have slashed : pieces.flatten ++ '"' :: begun = blanks ++ '/' :: '/' :: rest := by
    rw [← split, shape, ← comment]
    rfl
  -- the quote stands neither among the blanks nor at the slash, so the slash is in a piece
  rcases List.append_eq_append_iff.1 slashed with ⟨start, rfl, onward⟩ | ⟨start, front, onward⟩
  · cases start with
    | nil => cases onward
    | cons c start =>
        obtain ⟨rfl, -⟩ := List.cons.inj onward
        simp at noQuote
  · cases start with
    | nil => cases onward
    | cons c start =>
        obtain ⟨rfl, -⟩ := List.cons.inj onward
        exact noQuote (quote_mem_before_slash quiet front)

/-- Behind an open parenthesis there are as many quotes as a string that is not closed has. -/
theorem isInsideString_drop (inString : EndsInQuietString text) {i : Nat}
    (isOpen : i ∈ openParens text) : Completion.isInsideString (text.drop (i + 1)) = true := by
  obtain ⟨pieces, begun, rfl, quiet, quietBegun⟩ := inString
  have paren := getElem?_of_openSigns isOpen
  -- the parenthesis stands in front of the string
  have inFront : i < pieces.flatten.length := by
    by_contra beyond
    rw [List.getElem?_append_right (by omega)] at paren
    rcases List.mem_cons.1 (List.mem_of_getElem? paren) with same | isIn
    · exact absurd same (by decide)
    · exact (quietBegun _ isIn).2.1 rfl
  rw [List.getElem?_append_left inFront] at paren
  have split := eq_take_append_cons_drop paren
  have within : i + 1 ≤ pieces.flatten.length := inFront
  have before := count_quote_before_paren quiet split
  have whole := count_quote_flatten quiet
  rw [split, List.count_append, List.count_cons_of_ne (by decide)] at whole
  rw [List.drop_append_of_le_length within, Completion.isInsideString, List.count_append,
    List.count_cons_self, count_quote_eq_zero quietBegun, beq_iff_eq]
  omega

end EndsInQuietString

/-! ## Strings of a line -/

/-- On a line that goes on, only strings have quotes or slashes in them. -/
theorem Front.string_of_mem {depth : Nat} {chars rest : List Char} {lexeme : Option Lexeme}
    (front : Front depth chars lexeme rest) (onward : rest ≠ []) (noFeed : '\n' ∉ rest) {sign : Char}
    (isSign : sign = '"' ∨ sign = '/') (isIn : sign ∈ chars) :
    ∃ body text, chars = '"' :: body ++ ['"'] ∧ lexeme = some (.string (String.ofList text)) ∧
      Quoted body text := by
  have isSignChar : IsSignChar sign := by rcases isSign with rfl | rfl <;> decide
  rcases front.of_signChar isSignChar isIn with ⟨text, rfl⟩ | ⟨body, -, -, -, ends⟩ | ⟨-, alone⟩
  · obtain ⟨body, content, shape, quoted, rfl⟩ := front.stringLexeme
    exact ⟨body, content, shape, rfl, quoted⟩
  · rcases ends with ends | ends
    · exact absurd (List.head?_eq_none_iff.1 ends) onward
    · exact absurd (List.mem_of_mem_head? ends) noFeed
  · have noPunct : Punct.ofChar? sign = none := by rcases isSign with rfl | rfl <;> rfl
    rcases isSign with rfl | rfl <;> simp [noPunct] at alone

section

variable {front body rest : List Char} {text : String} {place : Nat}

/-- The offset of the string behind the front of a line. -/
theorem Token.offsetIn_string : Token.offsetIn (front ++ ('"' :: body ++ '"' :: rest))
    ⟨.string text, Mark.start.behind front⟩ = front.length :=
  Mark.offsetIn_behind _ _

theorem Token.Surrounds.within (quoted : Quoted body text.toList)
    (surrounds : Token.Surrounds (front ++ ('"' :: body ++ '"' :: rest))
      ⟨.string text, Mark.start.behind front⟩ place) :
    front.length < place ∧ place ≤ front.length + 1 + body.length := by
  obtain ⟨_, stop, -, ends, starts, below⟩ := surrounds
  have own : Token.EndsAt (front ++ ('"' :: body ++ '"' :: rest))
      ⟨.string text, Mark.start.behind front⟩ (front.length + ('"' :: body ++ ['"']).length) := by
    refine ⟨'"' :: body ++ ['"'], rest, ?_, ⟨body, rfl, quoted⟩, by rw [Token.offsetIn_string]⟩
    rw [Token.offsetIn_string, List.drop_left]
    simp
  rw [Token.offsetIn_string] at starts
  rw [← own.unique ends, List.length_append, List.length_cons, List.length_singleton] at below
  omega

/-- What stands of a string in front of the place is quiet. -/
theorem QuietStrings.inString {tokens : List Token}
    (quiet : QuietStrings (front ++ ('"' :: body ++ '"' :: rest)) tokens place)
    (quoted : Quoted body text.toList)
    (isIn : ⟨.string text, Mark.start.behind front⟩ ∈ tokens) :
    ∀ c ∈ body.take (place - (front.length + 1)), IsQuiet c := by
  intro c known
  obtain ⟨index, here⟩ := List.mem_iff_getElem?.1 known
  rw [List.getElem?_take, Option.ite_none_right_eq_some] at here
  obtain ⟨inFront, here⟩ := here
  have inside := (List.getElem?_eq_some_iff.1 here).1
  refine quiet _ isIn (front.length + (index + 1)) (by omega) ?_ c ?_
  · refine ⟨text, body, rest, rfl, ?_, quoted, ?_, ?_⟩
    · rw [Token.offsetIn_string, List.drop_left]
    · rw [Token.offsetIn_string]
      omega
    · rw [Token.offsetIn_string]
      omega
  · rw [List.getElem?_append_right (Nat.le_add_right _ _), Nat.add_sub_cancel_left,
      List.cons_append, List.getElem?_cons_succ, List.getElem?_append_left inside, here]
    rfl

end

/-- A segment in front of the place, and of another segment, is a quiet piece. -/
theorem Segmented.isQuietPiece {line : List Char} {before others : List Segment}
    {segment : Segment} (segmented : Segmented 0 .start line (before ++ segment :: others))
    (noFeed : '\n' ∉ line) (further : others ≠ []) {place : Nat}
    (inFront : (before.flatMap (·.chars)).length + segment.chars.length ≤ place)
    (quiet : QuietStrings line (tokensOf (before ++ segment :: others)) place) :
    IsQuietPiece segment.chars := by
  obtain ⟨behind, rfl, onward⟩ := segmented.cut
  cases onward with
  | @cons _ _ chars rest lexeme _ here others =>
      have goesOn : rest ≠ [] := by
        rintro rfl
        exact further (others.unique .done)
      have noFeed : '\n' ∉ rest := fun isIn => noFeed (by simp [isIn])
      by_cases isString : '"' ∈ chars ∨ '/' ∈ chars
      · obtain ⟨sign, isSign, isIn⟩ : ∃ sign, (sign = '"' ∨ sign = '/') ∧ sign ∈ chars :=
          isString.elim (⟨'"', .inl rfl, ·⟩) (⟨'/', .inr rfl, ·⟩)
        obtain ⟨body, text, rfl, rfl, quoted⟩ := here.string_of_mem goesOn noFeed isSign isIn
        have shape : '"' :: body ++ ['"'] ++ rest = '"' :: body ++ '"' :: rest := by simp
        rw [shape] at quiet
        have quietBody := quiet.inString (by rwa [String.toList_ofList]) (by simp)
        simp only [List.length_append, List.length_cons, List.length_nil] at inFront
        rw [List.take_of_length_le (by omega)] at quietBody
        exact .string quietBody
      · rw [not_or] at isString
        exact .outside isString.1 isString.2

/-- In front of a place in a string there are quiet pieces and the start of that string. -/
theorem Segmented.endsInQuietString {line : List Char} {segments : List Segment}
    (segmented : Segmented 0 .start line segments) (noFeed : '\n' ∉ line) {token : Token}
    (isIn : token ∈ tokensOf segments) {place : Nat} (surrounds : token.Surrounds line place)
    (quiet : QuietStrings line (tokensOf segments) place) :
    EndsInQuietString (line.take place) := by
  obtain ⟨lexeme, mark⟩ := token
  have ⟨text, _, isString, _⟩ := surrounds
  obtain rfl : lexeme = .string text := isString
  obtain ⟨before, others, body, rest, rfl, rfl, shape, quoted⟩ := segmented.exists_string isIn
  have pieces : ∀ piece ∈ before.map (·.chars), IsQuietPiece piece := by
    intro piece isPiece
    obtain ⟨segment, isBefore, rfl⟩ := List.mem_map.1 isPiece
    obtain ⟨earlier, later, rfl⟩ := List.append_of_mem isBefore
    rw [shape] at surrounds
    have starts := (surrounds.within quoted).1
    rw [List.append_assoc, List.cons_append] at segmented quiet
    refine segmented.isQuietPiece noFeed (by simp) ?_ quiet
    simp only [List.flatMap_append, List.flatMap_cons, List.length_append] at starts
    omega
  subst shape
  obtain ⟨starts, ends⟩ := surrounds.within quoted
  refine ⟨before.map (·.chars), _, ?_, pieces, quiet.inString quoted isIn⟩
  obtain ⟨length, rfl⟩ := Nat.exists_eq_add_of_lt starts
  rw [← List.flatMap_def, Nat.add_assoc, List.take_length_add_append, List.cons_append,
    List.take_succ_cons, List.take_append_of_le_length (by omega)]
  congr 3
  omega

/-! ## The suggestions -/

/-- Two at-signs stand in front of the cursor if they end the text in front of it. -/
theorem Document.symbolBefore_eq_signs {document : Document} {cursor : Cursor}
    (inside : 0 ≤ cursor.character) :
    document.symbolBefore cursor 2 = ['@', '@'] ↔ ['@', '@'] <:+ document.textBefore cursor := by
  have start : (((document.textBefore cursor).length : Int) - 2).toNat =
      (document.textBefore cursor).length - ['@', '@'].length := by
    rw [List.length_cons, List.length_singleton]
    omega
  rw [document.symbolBefore_eq_drop 2 inside, start, List.suffix_iff_eq_drop, eq_comm]

theorem endsInAttribute_of_signs {text : List Char} (signs : ['@', '@'] <:+ text) :
    endsInAttribute text = true := by
  obtain ⟨front, rfl⟩ := signs
  simp [endsInAttribute]

namespace Completion

variable {document : Document} {cursor : Cursor} {schema : Option Schema} {view : BlockView}

/-- Inside a model, or as long as no two at-signs have been typed, some attribute is allowed. -/
theorem attributeSpecs_eq_nil_iff {kind : BlockKind} (holdsFields : kind.holdsFields = true)
    (inside : 0 ≤ cursor.character) :
    attributeSpecs kind document cursor = [] ↔
      kind = .typeAlias ∧ ['@', '@'] <:+ document.textBefore cursor := by
  rw [← Document.symbolBefore_eq_signs inside, List.eq_nil_iff_forall_not_mem]
  simp only [mem_attributeSpecs, not_and]
  constructor
  · intro noneAllowed
    cases kind with
    | model =>
        obtain ⟨spec, isIn⟩ := List.exists_mem_of_ne_nil Catalogue.modelAttributes (by decide)
        have allowed : spec.AllowedAt .model document cursor := by
          rw [AttributeSpec.AllowedAt, Catalogue.target_modelAttributes spec isIn]
        exact absurd allowed (noneAllowed spec (List.mem_append_right _ isIn))
    | typeAlias =>
        obtain ⟨spec, isIn, other⟩ : ∃ spec ∈ Catalogue.fieldAttributes, spec.name ≠ "id" := by
          decide
        refine ⟨rfl, by_contra fun signs => noneAllowed spec (List.mem_append_left _ isIn) ?_⟩
        rw [AttributeSpec.AllowedAt, Catalogue.target_fieldAttributes spec isIn]
        exact ⟨.inr rfl, signs, fun isId => absurd isId other⟩
    | _ => cases holdsFields
  · rintro ⟨rfl, signs⟩ spec - allowed
    cases target : spec.target with
    | block => simp [AttributeSpec.AllowedAt, target] at allowed
    | field => simp [AttributeSpec.AllowedAt, target, signs] at allowed

theorem typeItems_ne_nil (wellFormed : view.isWellFormed = true) :
    typeItems view document schema ≠ [] := by
  simp [typeItems, wellFormed, Catalogue.scalarTypes]

/-- Where the text in front of the cursor ends in a string, and no string so far holds a quote or
a parenthesis, nothing is suggested exactly if arguments of an attribute are open, the line goes
on with an argument list, or no attribute is left. -/
theorem items_eq_nil_iff_of_quietString (settings : CompletionSettings)
    (found : BlockView.find? document cursor.line schema = some view)
    (holdsFields : view.kind.holdsFields = true) (wellFormed : view.isWellFormed = true)
    (inString : EndsInQuietString (document.textBefore cursor)) :
    items document cursor schema settings = [] ↔
      (∃ i label, (openParens (document.textBefore cursor)).head? = some i ∧
        EndsWithAttribute ((document.textBefore cursor).take i) label) ∨
      continuesArguments (document.textBefore cursor) = true ∨
      view.kind = .typeAlias ∧ ['@', '@'] <:+ document.textBefore cursor := by
  have inside := Document.inside_of_textBefore (List.ne_nil_of_mem inString.quote_mem)
  have place : Context.atCursor document cursor (some view) =
      Context.ofBodyText view.kind (document.textBefore cursor) := by
    rw [Context.atCursor_wellFormed wellFormed, Context.behind, if_neg inString.not_comment]
  rw [items, if_neg inside, found]
  show itemsIn (Context.atCursor document cursor (some view)) _ _ _ _ _ = [] ↔ _
  rw [place]
  cases open? : openCall? (document.textBefore cursor) with
  | some call =>
      obtain ⟨i, isOpen, named, arguments⟩ := openCall?_eq_some.1 open?
      obtain ⟨outer, opened⟩ := List.head?_eq_some_iff.1 isOpen
      have enclosed := inString.isInsideString_drop (List.mem_of_mem_head? isOpen)
      refine iff_of_true ?_ (.inl ⟨i, call.name, isOpen, named⟩)
      rw [Context.ofBodyText_attribute holdsFields opened named]
      split
      · show (argumentItems? document cursor (some view)).getD [] = []
        simp [argumentItems?, open?, arguments, enclosed]
      · rfl
  | none =>
      have noAttribute : ¬ ∃ i label, (openParens (document.textBefore cursor)).head? = some i ∧
          EndsWithAttribute ((document.textBefore cursor).take i) label := by
        rintro ⟨i, label, isOpen, named⟩
        have found : openCall? (document.textBefore cursor) = some ⟨label, _⟩ :=
          openCall?_eq_some.2 ⟨i, isOpen, named, rfl⟩
        rw [open?] at found
        cases found
      rw [Context.ofBodyText_words holdsFields open? inString.not_isFirstWord]
      by_cases continues : continuesArguments (document.textBefore cursor) = true
      · simp [continues, itemsIn]
      rw [if_neg continues, or_iff_right noAttribute, or_iff_right continues]
      by_cases isType : (!endsInAttribute (document.textBefore cursor) &&
          isTypePosition (document.textBefore cursor)) = true
      · rw [if_pos isType]
        refine iff_of_false (typeItems_ne_nil wellFormed) fun signed => ?_
        simp [endsInAttribute_of_signs signed.2] at isType
      · rw [if_neg isType, ← attributeSpecs_eq_nil_iff holdsFields (by omega)]
        exact List.map_eq_nil_iff

/-- **Between the quotes of a string** nothing is suggested exactly where an attribute's arguments
are open, the line goes on with an argument list, or two at-signs end the text inside a type
alias, as long as no string in front of the cursor holds a quote or a parenthesis. -/
theorem items_eq_nil_iff_of_surrounds {source : String} {cursor : Cursor} {schema : Option Schema}
    {view : BlockView} {stream : TokenStream} {token : Token} (settings : CompletionSettings)
    (found : BlockView.find? (.ofText source) cursor.line schema = some view)
    (holdsFields : view.kind.holdsFields = true) (wellFormed : view.isWellFormed = true)
    (lexed : TokenStream.ofText (String.ofList ((Document.ofText source).line cursor.line)) =
      .ok stream)
    (isIn : token ∈ stream.tokens)
    (surrounds : token.Surrounds ((Document.ofText source).line cursor.line)
      cursor.character.toNat)
    (quiet : QuietStrings ((Document.ofText source).line cursor.line) stream.tokens
      cursor.character.toNat) :
    let text := (Document.ofText source).textBefore cursor
    items (.ofText source) cursor schema settings = [] ↔
      (∃ i label, (openParens text).head? = some i ∧ EndsWithAttribute (text.take i) label) ∨
      continuesArguments text = true ∨ view.kind = .typeAlias ∧ ['@', '@'] <:+ text := by
  obtain ⟨segments, segmented, rfl⟩ := ofText_eq_ok.1 lexed
  rw [String.toList_ofList] at segmented
  have inString := segmented.endsInQuietString (Document.noFeed_line source cursor.line) isIn
    surrounds quiet
  exact items_eq_nil_iff_of_quietString settings found holdsFields wellFormed inString

/-- A model with two strings in the arguments of a relation. -/
def namedRelation : String :=
  "model A \x7b\n  b User @relation(\"wrote it\", map: \"a: b\")\n\x7d"

def relationTokens : TokenStream where
  tokens := [⟨.word "b", ⟨1, 3⟩⟩, ⟨.word "User", ⟨1, 5⟩⟩, ⟨.punct .atSign, ⟨1, 10⟩⟩,
    ⟨.word "relation", ⟨1, 11⟩⟩, ⟨.punct .parenOpen, ⟨1, 19⟩⟩, ⟨.string "wrote it", ⟨1, 20⟩⟩,
    ⟨.punct .comma, ⟨1, 30⟩⟩, ⟨.word "map", ⟨1, 32⟩⟩, ⟨.punct .colon, ⟨1, 35⟩⟩,
    ⟨.string "a: b", ⟨1, 37⟩⟩, ⟨.punct .parenClose, ⟨1, 43⟩⟩]
  stop := ⟨1, 44⟩

theorem items_namedRelation :
    (BlockView.find? (.ofText namedRelation) 1 none).any
        (fun view => view.kind.holdsFields && view.isWellFormed) = true ∧
      TokenStream.ofText (String.ofList ((Document.ofText namedRelation).line 1)) =
        .ok relationTokens ∧
      items (.ofText namedRelation) ⟨1, 40⟩ none {} = [] := by
  have block : (BlockView.find? (.ofText namedRelation) 1 none).any
      (fun view => view.kind.holdsFields && view.isWellFormed) = true := by decide +kernel
  have lexed : TokenStream.ofText (String.ofList ((Document.ofText namedRelation).line 1)) =
      .ok relationTokens := by decide +kernel
  have quoted : Quoted "a: b".toList "a: b".toList := by
    repeat first | exact .done | refine .plain (by decide) (by decide) (by decide) ?_
  have surrounds : Token.Surrounds ((Document.ofText namedRelation).line 1)
      ⟨.string "a: b", ⟨1, 37⟩⟩ 40 :=
    ⟨"a: b", 42, rfl, ⟨"\"a: b\"".toList, [')'], by decide +kernel, ⟨_, rfl, quoted⟩,
      by decide +kernel⟩, by decide +kernel, by decide⟩
  have quiet : QuietStrings ((Document.ofText namedRelation).line 1) relationTokens.tokens 40 :=
    quietStrings_of_texts (by simp [relationTokens, IsQuiet]) _ _
  have opened : (openParens ((Document.ofText namedRelation).textBefore ⟨1, 40⟩)).head? =
      some 18 := by decide +kernel
  have named : EndsWithAttribute
      (((Document.ofText namedRelation).textBefore ⟨1, 40⟩).take 18) "@relation" :=
    ⟨"  b User ".toList, ['@'], "relation".toList, [], by decide +kernel,
      .inr ⟨rfl, by decide⟩, by decide, List.all_eq_true.1 (by decide),
      List.forall_mem_nil _, by decide⟩
  refine ⟨block, lexed, ?_⟩
  obtain ⟨view, found, isIn⟩ := (Option.any_eq_true _ _).1 block
  obtain ⟨holdsFields, wellFormed⟩ := Bool.and_eq_true_iff.1 isIn
  have known : ⟨.string "a: b", ⟨1, 37⟩⟩ ∈ relationTokens.tokens := by simp [relationTokens]
  have exactly := @items_eq_nil_iff_of_surrounds namedRelation ⟨1, 40⟩ none view relationTokens _ {}
    found holdsFields wellFormed lexed known surrounds quiet
  exact exactly.2 (.inl ⟨18, _, opened, named⟩)

def quotedDefaultModel : String := "model A \x7b\n  s String @default(\"a\\\"b\")\n\x7d"

def defaultTokens : TokenStream where
  tokens := [⟨.word "s", ⟨1, 3⟩⟩, ⟨.word "String", ⟨1, 5⟩⟩, ⟨.punct .atSign, ⟨1, 12⟩⟩,
    ⟨.word "default", ⟨1, 13⟩⟩, ⟨.punct .parenOpen, ⟨1, 20⟩⟩, ⟨.string "a\"b", ⟨1, 21⟩⟩,
    ⟨.punct .parenClose, ⟨1, 27⟩⟩]
  stop := ⟨1, 28⟩

/-- Behind an escaped quote functions are suggested, in the middle of a string. -/
theorem items_behind_escapedQuote :
    (BlockView.find? (.ofText quotedDefaultModel) 1 none).any
        (fun view => view.kind.holdsFields && view.isWellFormed) = true ∧
      (∃ stream, TokenStream.ofText
          (String.ofList ((Document.ofText quotedDefaultModel).line 1)) = .ok stream ∧
        ∃ token ∈ stream.tokens,
          token.Surrounds ((Document.ofText quotedDefaultModel).line 1) 24) ∧
      (items (.ofText quotedDefaultModel) ⟨1, 24⟩ none {}).map (·.label) =
        ["uuid()", "cuid()"] := by
  have quoted : Quoted "a\\\"b".toList "a\"b".toList :=
    .plain (by decide) (by decide) (by decide)
      (.escaped (.plain (by decide) (by decide) (by decide) .done))
  have surrounds : Token.Surrounds ((Document.ofText quotedDefaultModel).line 1)
      ⟨.string "a\"b", ⟨1, 21⟩⟩ 24 :=
    ⟨"a\"b", 26, rfl, ⟨"\"a\\\"b\"".toList, [')'], by decide +kernel, ⟨_, rfl, quoted⟩,
      by decide +kernel⟩, by decide +kernel, by decide⟩
  refine ⟨by decide +kernel, ⟨defaultTokens, by decide +kernel, _, ?_, surrounds⟩,
    by decide +kernel⟩
  simp [defaultTokens]

end Completion

end SchemaAssist
