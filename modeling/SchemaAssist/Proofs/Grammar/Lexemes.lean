/-
# SchemaAssist.Proofs.Grammar.Lexemes — readers do not look at places

A reader decides by lexemes alone; the places of its tokens go into its result, as lines, and
into nothing else.  So it reads moved tokens as it reads the tokens, with its result moved
(`Commutes`).  The move may put tokens of different lines on one: nothing has to be undone.

Hence streams with the same lexemes on the same lines have the same tree, or none alike, and
streams with the same lexemes have the same tree but for its lines (`ofTokens_congr`).  So have
the texts that they were read from (`parse?_congr`).
-/
import SchemaAssist.Proofs.Grammar.Locality
import SchemaAssist.Proofs.Grammar.Relocation

namespace SchemaAssist

set_option autoImplicit false

def Mark.startOfLine (mark : Mark) : Mark := ⟨mark.line, 1⟩

def Refusal.relocate (f : Mark → Mark) : Refusal → Refusal
  | unterminatedBlock kind name opened => unterminatedBlock kind name (f opened)
  | expected what => expected what
  | unexpected => unexpected

/-- The reading with its tokens moved, and its result as `g` says. -/
def Reading.relocate {α : Type} (f : Mark → Mark) (g : α → α) : Reading α → Reading α
  | done a rest => done (g a) (rest.map (·.relocate f))
  | refused why rest => refused (why.relocate f) (rest.map (·.relocate f))
  | exhausted => exhausted

namespace Grammar

variable {α β : Type} {f : Mark → Mark} {move : Int → Int} {g : α → α} {h : β → β}

/-- Reading moved tokens is reading the tokens and moving what was read. -/
def Commutes (f : Mark → Mark) (g : α → α) (reader moved : Reader α) : Prop :=
  ∀ tokens, moved (tokens.map (·.relocate f)) = (reader tokens).relocate f g

namespace Commutes

theorem done (a : α) : Commutes f g (Reading.done a) (Reading.done (g a)) := fun _ => rfl

theorem andThen {reader moved : Reader α} {onward onward' : α → Reader β}
    (here : Commutes f g reader moved) (behind : ∀ a, Commutes f h (onward a) (onward' (g a))) :
    Commutes f h (fun tokens => (reader tokens).andThen onward)
      (fun tokens => (moved tokens).andThen onward') := by
  intro tokens
  simp only [here tokens]
  cases reader tokens with
  | done a rest => exact behind a rest
  | refused why rest => rfl
  | exhausted => rfl

theorem map {reader moved : Reader α} {k k' : α → β} (here : Commutes f g reader moved)
    (same : ∀ a, k' (g a) = h (k a)) :
    Commutes f h (fun tokens => (reader tokens).map k) (fun tokens => (moved tokens).map k') :=
  here.andThen fun a => by
    rw [same]
    exact done (k a)

end Commutes

@[simp] theorem next_relocate (tokens : List Token) :
    next (tokens.map (·.relocate f)) = next tokens := by
  cases tokens <;> rfl

/-! ## Leaves -/

theorem commutes_sign (wanted : Punct) :
    Commutes f f (Reader.sign wanted) (Reader.sign wanted) := by
  intro tokens
  cases tokens with
  | nil => rfl
  | cons token rest =>
      rw [List.map_cons, Reader.sign, Reader.sign, lexeme_relocate]
      split <;> rfl

theorem commutes_name : Commutes f (Prod.map id f) Reader.name Reader.name := by
  intro tokens
  cases tokens with
  | nil => rfl
  | cons token rest =>
      rw [List.map_cons, Reader.name, Reader.name, lexeme_relocate]
      split <;> rfl

theorem commutes_optionalSign (wanted : Punct) :
    Commutes f id (Reader.optionalSign wanted) (Reader.optionalSign wanted) := by
  intro tokens
  cases tokens with
  | nil => rfl
  | cons token rest =>
      rw [List.map_cons, Reader.optionalSign, Reader.optionalSign, lexeme_relocate]
      split <;> rfl

theorem commutes_lineEnds : Commutes f id Reader.lineEnds Reader.lineEnds := by
  intro tokens
  induction tokens with
  | nil => rfl
  | cons token rest ih =>
      rw [List.map_cons, Reader.lineEnds, Reader.lineEnds, lexeme_relocate, ih]
      split <;> rfl

theorem commutes_statementEnd : Commutes f id Reader.statementEnd Reader.statementEnd := by
  intro tokens
  cases tokens with
  | nil => rfl
  | cons token rest =>
      rw [List.map_cons, Reader.statementEnd, Reader.statementEnd, lexeme_relocate,
        commutes_lineEnds]
      split
      · rfl
      · split <;> rfl

theorem commutes_dottedName (start : String) :
    Commutes f id (Reader.dottedName start) (Reader.dottedName start) := by
  intro tokens
  fun_induction Reader.dottedName start tokens with
  | case1 start => rfl
  | case2 start dot isDot =>
      rw [List.map_cons, List.map_nil, Reader.dottedName, lexeme_relocate, if_pos isDot]
      rfl
  | case3 start dot isDot part rest text named ih =>
      rw [List.map_cons, List.map_cons, Reader.dottedName, lexeme_relocate, if_pos isDot]
      simp only [lexeme_relocate, named]
      exact ih
  | case4 start dot isDot part rest unnamed =>
      rw [List.map_cons, List.map_cons, Reader.dottedName, lexeme_relocate, if_pos isDot]
      simp only [lexeme_relocate, unnamed]
      rfl
  | case5 start token rest other =>
      rw [List.map_cons, Reader.dottedName.eq_def]
      exact if_neg (by rwa [lexeme_relocate])

/-! ## Lists and values -/

theorem commutes_commaList (close : Punct) {item moved : Reader α} (here : Commutes f g item moved)
    (bound : Nat) :
    Commutes f (List.map g) (Reader.commaList close item bound)
      (Reader.commaList close moved bound) := by
  induction bound with
  | zero => exact fun _ => rfl
  | succ bound ih =>
      refine (commutes_optionalSign close).andThen fun isClosed => ?_
      cases isClosed with
      | true => exact .done []
      | false =>
          refine here.andThen fun first => ?_
          refine (commutes_optionalSign .comma).andThen fun more => ?_
          cases more with
          | true => exact ih.map fun _ => by rfl
          | false => exact (commutes_sign close).map fun _ => rfl

theorem commutes_argument {value moved : Reader Value} (here : Commutes f id value moved) :
    Commutes f id (Reader.argument value) (Reader.argument moved) := by
  intro tokens
  by_cases named : ∃ name, next tokens = some (.word name) ∧
      next tokens.tail = some (.punct .colon)
  · obtain ⟨name, first, second⟩ := named
    obtain ⟨key, rest, rfl, isKey⟩ := exists_of_next first
    obtain ⟨colon, rest, rfl, isColon⟩ := exists_of_next second
    rw [List.map_cons, List.map_cons, argument_named isKey isColon rest,
      argument_named (by rwa [lexeme_relocate]) (by rwa [lexeme_relocate])]
    exact here.map (fun _ => by rfl) rest
  · have plain : ∀ name, next tokens = some (.word name) →
        next tokens.tail ≠ some (.punct .colon) :=
      fun name first second => named ⟨name, first, second⟩
    rw [argument_plain plain, argument_plain]
    · exact here.map (fun _ => by rfl) tokens
    · rw [← List.map_tail, next_relocate, next_relocate]
      exact plain

theorem commutes_value (bound : Nat) : Commutes f id (Reader.value bound) (Reader.value bound) := by
  induction bound with
  | zero => exact fun _ => rfl
  | succ bound ih =>
      intro tokens
      cases tokens with
      | nil => rfl
      | cons token rest =>
          rw [List.map_cons]
          cases named : token.lexeme.name? with
          | some name =>
              rw [value_name named, value_name (by rwa [lexeme_relocate])]
              split
              · rfl
              · refine (commutes_optionalSign .parenOpen).andThen (fun isCall => ?_) rest
                cases isCall with
                | true =>
                    exact (commutes_commaList .parenClose (commutes_argument ih) bound).map
                      fun _ => by simp
                | false => exact .done _
          | none =>
              simp only [Reader.value, lexeme_relocate]
              cases lexeme : token.lexeme with
              | word text =>
                  rw [lexeme] at named
                  cases named
              | keyword kind =>
                  rw [lexeme] at named
                  cases named
              | punct p =>
                  cases p with
                  | bracketOpen =>
                      exact (commutes_commaList .bracketClose ih bound).map (fun _ => by simp) rest
                  | _ => rfl
              | _ => rfl

/-! ## Attributes -/

theorem commutes_arguments (bound : Nat) :
    Commutes f id (Reader.arguments bound) (Reader.arguments bound) := by
  refine (commutes_optionalSign .parenOpen).andThen fun isCall => ?_
  cases isCall with
  | true =>
      have item := commutes_argument (commutes_value (f := f) bound)
      have list := commutes_commaList .parenClose item bound
      rwa [List.map_id_fun] at list
  | false => exact .done []

variable (rows : ∀ mark, (f mark).row = move mark.row)

include rows

theorem commutes_attributeAfter (isBlock : Bool) (mark : Mark) (bound : Nat) :
    Commutes f (Attribute.mapLine move) (Reader.attributeAfter isBlock mark bound)
      (Reader.attributeAfter isBlock (f mark) bound) := by
  refine commutes_name.andThen fun start => ?_
  refine (commutes_dottedName start.1).andThen fun name => ?_
  exact (commutes_arguments bound).map fun arguments => by rw [rows]; rfl

theorem commutes_attributes (bound : Nat) :
    Commutes f (List.map (Attribute.mapLine move)) (Reader.attributes bound)
      (Reader.attributes bound) := by
  induction bound with
  | zero => exact fun _ => rfl
  | succ bound ih =>
      intro tokens
      cases tokens with
      | nil => rfl
      | cons token rest =>
          rw [List.map_cons, Reader.attributes, Reader.attributes, lexeme_relocate]
          split
          · exact (commutes_attributeAfter rows false token.mark bound).andThen
              (fun first => ih.map fun _ => by rfl) rest
          · rfl

/-! ## Members -/

theorem commutes_assignment (bound : Nat) :
    Commutes f (Assignment.mapLine move) (Reader.assignment bound) (Reader.assignment bound) := by
  refine commutes_name.andThen fun key => ?_
  refine (commutes_sign .equals).andThen fun _ => ?_
  exact (commutes_value bound).map fun value => by rw [Assignment.mapLine, ← rows]; rfl

omit rows in
theorem commutes_listSuffix : Commutes f id Reader.listSuffix Reader.listSuffix := by
  refine (commutes_optionalSign .bracketOpen).andThen fun isList => ?_
  cases isList with
  | true => exact (commutes_sign .bracketClose).map fun _ => rfl
  | false => exact .done false

theorem commutes_field (bound : Nat) :
    Commutes f (Field.mapLine move) (Reader.field bound) (Reader.field bound) := by
  refine commutes_name.andThen fun name => commutes_name.andThen fun type => ?_
  refine commutes_listSuffix.andThen fun isList => ?_
  refine (commutes_optionalSign .question).andThen fun isOptional => ?_
  exact (commutes_attributes rows bound).map fun attributes => by
    rw [Field.mapLine, ← rows]
    rfl

theorem commutes_enumValue (bound : Nat) :
    Commutes f (EnumValue.mapLine move) (Reader.enumValue bound) (Reader.enumValue bound) := by
  refine commutes_name.andThen fun name => ?_
  exact (commutes_attributes rows bound).map fun attributes => by
    rw [EnumValue.mapLine, ← rows]
    rfl

theorem commutes_declaration (isEnum : Bool) (bound : Nat) :
    Commutes f (Member.mapLine move) (Reader.declaration isEnum bound)
      (Reader.declaration isEnum bound) := by
  intro tokens
  by_cases signed : next tokens = some (.punct .doubleAt)
  · obtain ⟨token, rest, rfl, isSign⟩ := exists_of_next signed
    rw [List.map_cons, declaration_sign isSign, declaration_sign (by rwa [lexeme_relocate])]
    exact (commutes_attributeAfter rows true token.mark bound).map (fun _ => by rfl) rest
  · rw [declaration_plain signed, declaration_plain (by rwa [next_relocate])]
    cases isEnum with
    | true => exact (commutes_enumValue rows bound).map (fun _ => by rfl) tokens
    | false => exact (commutes_field rows bound).map (fun _ => by rfl) tokens

theorem commutes_member (kind : BlockKind) (bound : Nat) :
    Commutes f (Member.mapLine move) (Reader.member kind bound) (Reader.member kind bound) := by
  intro tokens
  rw [Reader.member, Reader.member]
  split
  · exact (commutes_assignment rows bound).map (fun _ => by rfl) tokens
  · exact commutes_declaration rows _ bound tokens

/-! ## Blocks and schemas -/

theorem commutes_members (kind : BlockKind) (name : String) (opened : Mark) (bound : Nat) :
    Commutes f (Prod.map (List.map (Member.mapLine move)) f) (Reader.members kind name opened bound)
      (Reader.members kind name (f opened) bound) := by
  induction bound with
  | zero => exact fun _ => rfl
  | succ bound ih =>
      intro tokens
      cases tokens with
      | nil => rfl
      | cons token rest =>
          rw [List.map_cons, Reader.members, Reader.members, lexeme_relocate]
          split
          · rfl
          · refine (commutes_member rows kind bound).andThen (fun first => ?_) (token :: rest)
            exact commutes_statementEnd.andThen fun _ => ih.map fun _ => by rfl

theorem commutes_block (bound : Nat) :
    Commutes f (Block.mapLine move) (Reader.block bound) (Reader.block bound) := by
  intro tokens
  by_cases keyword : ∃ kind, next tokens = some (.keyword kind)
  · obtain ⟨kind, first⟩ := keyword
    obtain ⟨token, rest, rfl, isKeyword⟩ := exists_of_next first
    rw [List.map_cons, block_keyword isKeyword, block_keyword (by rwa [lexeme_relocate])]
    refine commutes_name.andThen (fun name => ?_) rest
    refine (commutes_sign .braceOpen).andThen fun _ => commutes_lineEnds.andThen fun _ => ?_
    exact (commutes_members rows kind name.1 token.mark bound).map fun found =>
      (Block.mapLine_ofMembers move kind name.1 (rows token.mark) (rows found.2) found.1).symm
  · have other : ∀ kind, next tokens ≠ some (.keyword kind) := fun kind first =>
      keyword ⟨kind, first⟩
    rw [block_other other, block_other (by simpa only [next_relocate] using other)]
    rfl

theorem commutes_blocks (bound : Nat) :
    Commutes f (List.map (Block.mapLine move)) (Reader.blocks bound) (Reader.blocks bound) := by
  induction bound with
  | zero => exact fun _ => rfl
  | succ bound ih =>
      refine commutes_lineEnds.andThen fun _ tokens => ?_
      cases tokens with
      | nil => rfl
      | cons token rest =>
          have block := commutes_block rows bound
          exact block.andThen (fun first => ih.map fun _ => by rfl) (token :: rest)

/-- Moved tokens have the tree moved, or none if there was none. -/
theorem ofTokens_relocate (tokens : List Token) (stop stop' : Mark) :
    (Schema.ofTokens ⟨tokens.map (·.relocate f), stop'⟩).toOption =
      (Schema.ofTokens ⟨tokens, stop⟩).toOption.map (·.mapLine move) := by
  rw [Schema.ofTokens, Schema.ofTokens, List.length_map, commutes_blocks rows _ tokens]
  cases Reader.blocks (tokens.length + 1) tokens <;> rfl

/-- **A tree depends on the lexemes of its tokens and on their lines**, as far as `move` tells
these apart. -/
theorem ofTokens_congr {first second : TokenStream}
    (same : first.tokens.map (·.relocate f) = second.tokens.map (·.relocate f)) :
    (Schema.ofTokens first).toOption.map (·.mapLine move) =
      (Schema.ofTokens second).toOption.map (·.mapLine move) := by
  rw [← ofTokens_relocate rows first.tokens first.stop .start, same, ofTokens_relocate rows]

omit rows

/-- The tokens that were read, with their places moved; none if there was an error. -/
def tokensUpTo? (f : Mark → Mark) (lexed : Except SyntaxError TokenStream) :
    Option (List Token) :=
  lexed.toOption.map fun stream => stream.tokens.map (·.relocate f)

/-- Texts with the same tokens, as far as `f` tells places apart, have the same tree, as far as
`move` tells lines apart, or both have none. -/
theorem parse?_congr (rows : ∀ mark, (f mark).row = move mark.row) {first second : String}
    (same : tokensUpTo? f (TokenStream.ofText first) = tokensUpTo? f (TokenStream.ofText second)) :
    (Schema.parse? first).map (·.mapLine move) = (Schema.parse? second).map (·.mapLine move) := by
  unfold Schema.parse? Schema.parse
  cases lexed : TokenStream.ofText first with
  | error error =>
      cases lexed' : TokenStream.ofText second with
      | error error' => rfl
      | ok stream' =>
          rw [lexed, lexed'] at same
          cases same
  | ok stream =>
      cases lexed' : TokenStream.ofText second with
      | error error' =>
          rw [lexed, lexed'] at same
          cases same
      | ok stream' =>
          rw [lexed, lexed'] at same
          exact ofTokens_congr rows (Option.some.inj same)

end Grammar

end SchemaAssist
