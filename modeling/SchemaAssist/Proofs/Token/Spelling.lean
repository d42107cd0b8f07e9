/-
# SchemaAssist.Proofs.Token.Spelling — writing lexemes as a text

A lexeme is written as its text, and a string between quotes with its escapes
(`Lexeme.spelling`).  Lexemes written one behind the other, with a blank between them, are read
again if words and numbers have the form of one and line ends stand under no open parenthesis
or bracket (`Spellable`).  Nothing is left out: the lexemes of every text are of that kind
(`spellable_of_ofText`), so that every text can be written anew from its lexemes
(`ofText_respelled`).

A blank in front keeps a lexeme apart from whatever stands before it, so a text can also be
gone on with behind any of its tokens (`exists_ofText_take`).
-/
import SchemaAssist.Proofs.Token.Continuation
import SchemaAssist.Proofs.Token.Partition
import SchemaAssist.Proofs.Token.Words
import SchemaAssist.Token.Listing

namespace SchemaAssist

set_option autoImplicit false

open Text Grammar

/-! ## Spellings -/

def escaped (c : Char) : List Char :=
  if c = '\n' then ['\\', 'n'] else if c = '\t' then ['\\', 't']
  else if c = '\\' ∨ c = '"' then ['\\', c] else [c]

def Lexeme.spelling : Lexeme → List Char
  | string text => '"' :: text.toList.flatMap escaped ++ ['"']
  | lexeme => lexeme.text.toList

/-- The lexemes as a text, with a blank between each two. -/
def spelled (lexemes : List Lexeme) : String :=
  " ".intercalate (lexemes.map fun lexeme => String.ofList lexeme.spelling)

def IsNumber (chars : List Char) : Prop :=
  ∃ sign c inner, chars = sign ++ c :: inner ∧ (sign = [] ∨ sign = ['-']) ∧ isDigit c = true ∧
    inner.all isNumberChar = true

/-- The lexeme can be written: a word is a name and no block keyword, a number has the form of
one.  All others can. -/
def Lexeme.IsSpellable : Lexeme → Prop
  | word text => IsName text.toList ∧ ∀ kind, text ≠ BlockKind.keyword kind
  | number text => IsNumber text.toList
  | _ => True

/-- Under `depth` open parentheses and brackets the lexemes can be written one behind the other:
each one can be written, and a line end stands under none. -/
def Spellable : (depth : Nat) → List Lexeme → Prop
  | _, [] => True
  | depth, lexeme :: lexemes =>
      lexeme.IsSpellable ∧ (lexeme = .newline → depth = 0) ∧
        Spellable (depthAfter depth (some lexeme)) lexemes

/-! ## One lexeme -/

theorem quoted_escaped (text : List Char) : Quoted (text.flatMap escaped) text := by
  induction text with
  | nil => exact .done
  | cons c text ih =>
      rw [List.flatMap_cons, escaped]
      split
      · rename_i isFeed
        exact isFeed ▸ .escaped ih
      split
      · rename_i isTab
        exact isTab ▸ .escaped ih
      split
      · rename_i noFeed noTab isSign
        have kept : unescape c = c := by rcases isSign with rfl | rfl <;> rfl
        have quoted := @Quoted.escaped c _ _ ih
        rwa [kept] at quoted
      · rename_i noFeed noTab noSign
        rw [not_or] at noSign
        exact .plain noSign.2 noFeed noSign.1 ih

theorem BlockKind.isName_keyword (kind : BlockKind) : IsName kind.keyword.toList := by
  cases kind <;> exact ⟨_, _, rfl, by decide, by decide, by decide⟩

theorem wordLexeme_of_ne_keyword {word : String} (other : ∀ kind, word ≠ BlockKind.keyword kind) :
    wordLexeme word = .word word := by
  unfold wordLexeme
  split
  · rename_i kind found
    exact absurd (ofKeyword?_eq_some found) (other kind)
  · rfl

theorem IsNumber.front {chars rest : List Char} (isNumber : IsNumber chars) (depth : Nat)
    (ends : rest.head?.any isNumberChar = false) :
    Front depth chars (some (.number (String.ofList chars))) rest := by
  obtain ⟨sign, c, inner, rfl, rfl | rfl, digit, all⟩ := isNumber
  · exact .number (.inl digit) all ends
  · have all' : (c :: inner).all isNumberChar = true := by
      rw [List.all_cons, all, isNumberChar, digit]
      rfl
    exact .number (.inr ⟨rfl, digit⟩) all' ends

/-- **A lexeme is read from its spelling**, whatever follows that does not prolong it. -/
theorem Lexeme.IsSpellable.front {lexeme : Lexeme} (spellable : lexeme.IsSpellable) {depth : Nat}
    (flat : lexeme = .newline → depth = 0) {rest : List Char} (ends : ProlongsNoToken rest) :
    Front depth lexeme.spelling (some lexeme) rest := by
  cases lexeme with
  | word text =>
      have front := spellable.1.front depth ends.noWord
      rwa [String.ofList_toList, wordLexeme_of_ne_keyword spellable.2] at front
  | keyword kind =>
      have front := kind.isName_keyword.front depth ends.noWord
      rwa [String.ofList_toList, wordLexeme_keyword] at front
  | string text =>
      have front : Front depth _ _ rest := .string (quoted_escaped text.toList)
      rwa [String.ofList_toList] at front
  | number text =>
      have front := IsNumber.front spellable depth ends.noNumber
      rwa [String.ofList_toList] at front
  | punct p =>
      cases p with
      | doubleAt => exact .doubleAt
      | atSign => exact .atSign ends.noAtSign
      | _ => exact .sign rfl
  | newline =>
      obtain rfl := flat rfl
      exact .feed

/-- The lexemes that are read can be written. -/
theorem Front.isSpellable {depth : Nat} {chars rest : List Char} {lexeme : Lexeme}
    (front : Front depth chars (some lexeme) rest) : lexeme.IsSpellable := by
  cases lexeme with
  | word text =>
      refine ⟨front.isName rfl, ?_⟩
      rintro kind rfl
      have same := front.eq_wordLexeme rfl
      rw [wordLexeme_keyword] at same
      cases same
  | number text =>
      obtain ⟨rfl, c, inner, shape, starts, all⟩ := front.number_chars
      rw [Lexeme.IsSpellable, shape]
      obtain digit | ⟨rfl, digit⟩ := starts
      · exact ⟨[], c, inner, rfl, .inl rfl, digit, all⟩
      · cases inner with
        | nil => cases digit
        | cons d inner =>
            rw [List.all_cons, Bool.and_eq_true] at all
            exact ⟨['-'], d, inner, rfl, .inr rfl, digit, all.2⟩
  | _ => trivial

/-! ## Lexemes one behind the other -/

def spelledBehind (lexemes : List Lexeme) : List Char :=
  lexemes.flatMap fun lexeme => ' ' :: lexeme.spelling

theorem endsToken_spelledBehind (lexemes : List Lexeme) : EndsToken (spelledBehind lexemes) := by
  cases lexemes with
  | nil => exact .inl rfl
  | cons => exact .inr rfl

/-- Lexemes that can be written are read behind blanks. -/
theorem Spellable.segmented {depth : Nat} {lexemes : List Lexeme}
    (spellable : Spellable depth lexemes) (mark : Mark) :
    ∃ segments, Segmented depth mark (spelledBehind lexemes) segments ∧
      (tokensOf segments).map (·.lexeme) = lexemes := by
  induction lexemes generalizing depth mark with
  | nil => exact ⟨[], .done, rfl⟩
  | cons lexeme lexemes ih =>
      obtain ⟨here, flat, others⟩ := spellable
      obtain ⟨segments, segmented, same⟩ := ih others ((mark.behind [' ']).behind lexeme.spelling)
      have front := here.front flat (endsToken_spelledBehind lexemes).prolongsNoToken
      have whole : Segmented depth mark ([' '] ++ (lexeme.spelling ++ _)) _ :=
        .cons (.blank (.inl rfl)) (.cons front segmented)
      exact ⟨_, whole, by simp [same]⟩

theorem toList_spelled (lexeme : Lexeme) (lexemes : List Lexeme) :
    (spelled (lexeme :: lexemes)).toList = lexeme.spelling ++ spelledBehind lexemes := by
  have blank : " ".toList = [' '] := rfl
  rw [spelled, String.toList_intercalate, List.map_map, blank]
  induction lexemes generalizing lexeme with
  | nil => simp [spelledBehind]
  | cons next lexemes ih =>
      rw [List.map_cons, List.intercalate_cons_of_ne_nil (by simp), ih]
      simp [spelledBehind]

theorem Spellable.exists_ofText {lexemes : List Lexeme} (spellable : Spellable 0 lexemes) :
    ∃ stream, TokenStream.ofText (spelled lexemes) = .ok stream ∧
      stream.tokens.map (·.lexeme) = lexemes := by
  cases lexemes with
  | nil => exact ⟨⟨[], .start⟩, rfl, rfl⟩
  | cons lexeme lexemes =>
      obtain ⟨here, flat, others⟩ := spellable
      obtain ⟨segments, segmented, same⟩ := others.segmented (Mark.start.behind lexeme.spelling)
      have front := here.front flat (endsToken_spelledBehind lexemes).prolongsNoToken
      have whole := Segmented.cons front segmented
      rw [← toList_spelled] at whole
      exact ⟨_, ofText_eq_ok.2 ⟨_, whole, rfl⟩, by simp [same]⟩

theorem Segmented.spellable {depth : Nat} {mark : Mark} {text : List Char}
    {segments : List Segment} (segmented : Segmented depth mark text segments) :
    Spellable depth ((tokensOf segments).map (·.lexeme)) := by
  induction segmented with
  | done => trivial
  | @cons depth mark chars rest lexeme segments front _ ih =>
      cases lexeme with
      | none => exact ih
      | some lexeme =>
          refine ⟨front.isSpellable, ?_, ih⟩
          rintro rfl
          exact front.newline_depth

/-- The lexemes of a text can be written. -/
theorem spellable_of_ofText {text : String} {stream : TokenStream}
    (lexed : TokenStream.ofText text = .ok stream) :
    Spellable 0 (stream.tokens.map (·.lexeme)) := by
  obtain ⟨segments, segmented, rfl⟩ := ofText_eq_ok.1 lexed
  exact segmented.spellable

/-- **A text can be written anew from its lexemes**, with other gaps and other escapes. -/
theorem ofText_respelled {text : String} {stream : TokenStream}
    (lexed : TokenStream.ofText text = .ok stream) :
    ∃ other, TokenStream.ofText (spelled (stream.tokens.map (·.lexeme))) = .ok other ∧
      other.tokens.map (·.lexeme) = stream.tokens.map (·.lexeme) :=
  (spellable_of_ofText lexed).exists_ofText

/-- **Reading undoes spelling**, for exactly the lexemes that can be written: the text has their
classes and texts for its tokens, in this order, and then ends. -/
theorem ofText_spelled (lexemes : List Lexeme) :
    Spellable 0 lexemes ↔
      ∃ stream, TokenStream.ofText (spelled lexemes) = .ok stream ∧
        stream.tokens.map (·.lexeme) = lexemes ∧
        stream.entries.map (fun entry => (entry.className, entry.text)) =
          lexemes.map (fun lexeme => (lexeme.className, lexeme.text)) ++ [("EOF", "")] := by
  constructor
  · intro spellable
    obtain ⟨stream, lexed, same⟩ := spellable.exists_ofText
    refine ⟨stream, lexed, same, ?_⟩
    rw [TokenStream.entries, List.map_append, List.map_map, ← same, List.map_map]
    rfl
  · rintro ⟨stream, lexed, same, -⟩
    exact same ▸ spellable_of_ofText lexed

/-- Lexemes that need a blank or an escape to stay apart. -/
def crowdedLexemes : List Lexeme :=
  [.keyword .enum, .word "enums", .word "_é9", .punct .atSign, .punct .atSign, .punct .doubleAt,
    .string "\"\\\n\t// (", .punct .parenClose, .newline, .punct .bracketOpen, .number "-1.5",
    .number "2", .punct .bracketClose, .newline]

theorem ofText_spelled_crowdedLexemes :
    Spellable 0 crowdedLexemes ∧
      spelled crowdedLexemes =
        "enum enums _é9 @ @ @@ \"\\\"\\\\\\n\\t// (\" ) \n [ -1.5 2 ] \n" ∧
      ∃ stream, TokenStream.ofText (spelled crowdedLexemes) = .ok stream ∧
        stream.tokens.map (·.lexeme) = crowdedLexemes := by
  have unlikeEnum : Lexeme.IsSpellable (.word "enums") :=
    ⟨⟨'e', _, rfl, by decide, by decide, by decide⟩, by rintro (_ | _ | _ | _ | _) <;> decide⟩
  have accented : Lexeme.IsSpellable (.word "_é9") :=
    ⟨⟨'_', _, rfl, by decide, by decide, by decide⟩, by rintro (_ | _ | _ | _ | _) <;> decide⟩
  have negative : Lexeme.IsSpellable (.number "-1.5") :=
    ⟨['-'], '1', _, rfl, .inr rfl, by decide, by decide⟩
  have positive : Lexeme.IsSpellable (.number "2") :=
    ⟨[], '2', _, rfl, .inl rfl, by decide, by decide⟩
  have spellable : Spellable 0 crowdedLexemes :=
    ⟨trivial, nofun, unlikeEnum, nofun, accented, nofun, trivial, nofun, trivial, nofun, trivial,
      nofun, trivial, nofun, trivial, nofun, trivial, fun _ => rfl, trivial, nofun, negative, nofun,
      positive, nofun, trivial, nofun, trivial, fun _ => rfl, trivial⟩
  obtain ⟨stream, lexed, same, -⟩ := (ofText_spelled crowdedLexemes).1 spellable
  exact ⟨spellable, by decide +kernel, stream, lexed, same⟩

/-! ## Going on -/

/-- The lexeme is spelled as it reads, at any depth, if nothing or a blank follows. -/
def StandsAlone (lexeme : Lexeme) : Prop :=
  ∀ depth rest, EndsToken rest → Front depth lexeme.text.toList (some lexeme) rest

/-- Lexemes that stand alone can be written at any depth: a line end does not. -/
theorem spellable_of_standsAlone {lexemes : List Lexeme}
    (alone : ∀ lexeme ∈ lexemes, StandsAlone lexeme) (depth : Nat) : Spellable depth lexemes := by
  induction lexemes generalizing depth with
  | nil => trivial
  | cons lexeme lexemes ih =>
      obtain ⟨first, others⟩ := List.forall_mem_cons.1 alone
      have bracketed := first 1 [] (.inl rfl)
      refine ⟨bracketed.isSpellable, ?_, ih others _⟩
      rintro rfl
      cases bracketed.newline_depth

/-- **Behind its first tokens a text can be gone on with** in any lexemes that stand
alone. -/
theorem exists_ofText_take {text : String} {stream : TokenStream}
    (lexed : TokenStream.ofText text = .ok stream) (count : Nat) {lexemes : List Lexeme}
    (alone : ∀ lexeme ∈ lexemes, StandsAlone lexeme) :
    ∃ other stop more, TokenStream.ofText other = .ok ⟨stream.tokens.take count ++ more, stop⟩ ∧
      more.map (·.lexeme) = lexemes := by
  obtain ⟨segments, segmented, rfl⟩ := ofText_eq_ok.1 lexed
  obtain ⟨before, others, rfl, tokens, last⟩ := exists_tokensOf_take segments count
  obtain ⟨behind, onward, same⟩ :=
    (spellable_of_standsAlone alone (depthBehind 0 (tokensOf before))).segmented
      (Mark.start.behind (before.flatMap (·.chars)))
  have whole := segmented.take_append last onward
    (endsToken_spelledBehind lexemes).prolongsNoToken
  refine ⟨String.ofList (before.flatMap (·.chars) ++ spelledBehind lexemes),
    Mark.start.behind (before.flatMap (·.chars) ++ spelledBehind lexemes), tokensOf behind, ?_,
    same⟩
  rw [ofText_eq_ok, String.toList_ofList]
  refine ⟨_, whole, ?_⟩
  rw [tokensOf_append before behind, tokens]

end SchemaAssist
