/-
# SchemaAssist.Proofs.Grammar.Acceptance — schemas are read exactly as derived

The readers of members, blocks and schemas are sound and complete for their
relations, so a list of tokens has a tree exactly if it derives it, and it derives
at most one (`ofTokens_eq_ok_iff_isSchema`).

A block ends at its closing brace whatever follows.  So blocks can be taken off the
front of a derivation: `IsSchema.lineEnds_append` and `IsSchema.block_append` say
what remains.
-/
import SchemaAssist.Proofs.Grammar.Reading
import Mathlib.Data.Set.Subsingleton

namespace SchemaAssist.Grammar

set_option autoImplicit false

/-! ## Members -/

theorem listSuffix_sound : Sound Reader.listSuffix IsListSuffix := by
  intro tokens isList rest read
  simp only [Reader.listSuffix, andThen_eq_done, optionalSign_eq_done] at read
  obtain ⟨isCall, behind, ⟨rfl, opening, rfl, opens⟩ | ⟨rfl, rfl, -⟩, read⟩ := read
  · simp only [if_true, map_eq_done, sign_eq_done] at read
    obtain ⟨-, ⟨closing, rfl, closes, -⟩, rfl⟩ := read
    exact ⟨[opening, closing], rfl, .brackets opens closes⟩
  · cases read
    exact ⟨[], rfl, .absent⟩

theorem listSuffix_complete {read rest : List Token} {isList : Bool}
    (suffix : IsListSuffix read isList) (other : next rest ≠ some (.punct .bracketOpen)) :
    Reader.listSuffix (read ++ rest) = .done isList rest := by
  cases suffix with
  | absent => simp [Reader.listSuffix, optionalSign_absent other]
  | brackets opens closes =>
      simp [Reader.listSuffix, optionalSign_present _ opens, sign_present _ closes]

theorem optionalSuffix_sound : Sound (Reader.optionalSign .question) IsOptionalSuffix := by
  intro tokens isOptional rest read
  obtain ⟨rfl, token, rfl, sign⟩ | ⟨rfl, rfl, -⟩ := optionalSign_eq_done.1 read
  · exact ⟨[token], rfl, .question sign⟩
  · exact ⟨[], rfl, .absent⟩

theorem optionalSuffix_complete {read rest : List Token} {isOptional : Bool}
    (suffix : IsOptionalSuffix read isOptional) (other : next rest ≠ some (.punct .question)) :
    Reader.optionalSign .question (read ++ rest) = .done isOptional rest := by
  cases suffix with
  | absent => exact optionalSign_absent other
  | question sign => exact optionalSign_present _ sign

theorem member_sound (kind : BlockKind) (bound : Nat) :
    Sound (Reader.member kind bound) (IsMember kind) := by
  intro tokens m rest read
  simp only [Reader.member] at read
  split at read
  · rename_i holds
    simp only [Reader.assignment, andThen_eq_done, map_eq_done] at read
    obtain ⟨_, ⟨⟨key, mark⟩, behindKey, isName, _, behindSign, equals, v, taken, rfl⟩, rfl⟩ := read
    obtain ⟨token, rfl, named, rfl⟩ := name_eq_done.1 isName
    obtain ⟨sign, rfl, isEquals, -⟩ := sign_eq_done.1 equals
    obtain ⟨stretch, rfl, value⟩ := value_sound _ _ _ _ taken
    exact ⟨token :: sign :: stretch, rfl, .assignment holds named isEquals value⟩
  · rename_i holdsNone
    unfold Reader.declaration at read
    split at read
    · obtain ⟨attr, taken, rfl⟩ := map_eq_done.1 read
      obtain ⟨stretch, rfl, one⟩ := attributeAfter_sound _ _ _ _ _ _ taken
      exact ⟨_ :: stretch, rfl, .blockAttribute (by simpa using holdsNone) rfl one⟩
    · split at read
      · rename_i isEnum
        simp only [Reader.enumValue, andThen_eq_done, map_eq_done] at read
        obtain ⟨_, ⟨⟨name, mark⟩, behindName, isName, list, taken, rfl⟩, rfl⟩ := read
        obtain ⟨token, rfl, named, rfl⟩ := name_eq_done.1 isName
        obtain ⟨stretch, rfl, attributes⟩ := attributes_sound _ _ _ _ taken
        exact ⟨token :: stretch, rfl, .value (by simpa using isEnum) named attributes⟩
      · rename_i notEnum
        have holds : kind.holdsFields = true := by
          cases kind <;> simp_all [BlockKind.holdsAssignments, BlockKind.holdsFields]
        simp only [Reader.field, andThen_eq_done, map_eq_done] at read
        obtain ⟨_, ⟨⟨name, mark⟩, _, isName, ⟨typeName, _⟩, _, isType, isList, _, takenList,
          isOptional, _, takenOptional, list, taken, rfl⟩, rfl⟩ := read
        obtain ⟨token, rfl, named, rfl⟩ := name_eq_done.1 isName
        obtain ⟨type, rfl, typed, -⟩ := name_eq_done.1 isType
        obtain ⟨brackets, rfl, listSuffix⟩ := listSuffix_sound _ _ _ takenList
        obtain ⟨question, rfl, optionalSuffix⟩ := optionalSuffix_sound _ _ _ takenOptional
        obtain ⟨stretch, rfl, attributes⟩ := attributes_sound _ _ _ _ taken
        exact ⟨token :: type :: brackets ++ question ++ stretch, by simp,
          .field holds named typed listSuffix optionalSuffix attributes⟩

def EndsMember (lexeme : Option Lexeme) : Prop :=
  lexeme = some .newline ∨ lexeme = some (.punct .braceClose)

theorem EndsMember.endsAttributes {lexeme : Option Lexeme} (ends : EndsMember lexeme) :
    EndsAttributes lexeme := by
  rcases ends with rfl | rfl <;> simp [EndsAttributes, EndsAttribute]

theorem IsAttributes.next {tokens : List Token} {list : List Attribute}
    (attributes : IsAttributes tokens list) :
    tokens = [] ∨ Grammar.next tokens = some (.punct .atSign) := by
  cases attributes with
  | none => exact .inl rfl
  | more sign _ _ => exact .inr (by simp [sign])

/-- Neither suffix of a type comes next behind attributes and the end of a member. -/
theorem IsAttributes.no_suffix {tokens rest : List Token} {list : List Attribute}
    (attributes : IsAttributes tokens list) (ends : EndsMember (Grammar.next rest)) :
    Grammar.next (tokens ++ rest) ≠ some (.punct .bracketOpen) ∧
      Grammar.next (tokens ++ rest) ≠ some (.punct .question) := by
  rcases attributes.next with rfl | sign
  · rcases ends with ends | ends <;> simp [ends]
  · rw [next_append _ (by simp [sign]), sign]
    simp

theorem IsOptionalSuffix.no_bracket {tokens rest : List Token} {isOptional : Bool}
    (suffix : IsOptionalSuffix tokens isOptional)
    (other : Grammar.next rest ≠ some (.punct .bracketOpen)) :
    Grammar.next (tokens ++ rest) ≠ some (.punct .bracketOpen) := by
  cases suffix with
  | absent => exact other
  | question sign => simp [sign]

theorem declaration_of_name {token : Token} {name : String}
    (named : token.lexeme.name? = some name) (isEnum : Bool) (bound : Nat) (rest : List Token) :
    Reader.declaration isEnum bound (token :: rest) =
      if isEnum then (Reader.enumValue bound (token :: rest)).map .value
      else (Reader.field bound (token :: rest)).map .field := by
  unfold Reader.declaration
  split
  · rename_i shape
    obtain ⟨rfl, -⟩ := List.cons.inj shape
    cases named
  · rfl

theorem member_complete (kind : BlockKind) (bound : Nat) :
    Complete (Reader.member kind bound) (IsMember kind) EndsMember bound := by
  intro read m rest member follows fits
  have ends := follows.endsAttributes
  cases member with
  | assignment holds named isEquals value =>
      simp only [List.length_cons] at fits
      have taken := value_complete bound _ _ rest value ends.1.2 (by omega)
      simp [Reader.member, holds, Reader.assignment, name_present _ named,
        sign_present _ isEquals, taken]
  | field holds named typed list optional attributes =>
      have holdsNone : kind.holdsAssignments = false := by
        cases kind <;> simp_all [BlockKind.holdsAssignments, BlockKind.holdsFields]
      have notEnum : kind ≠ .enum := by rintro rfl; simp [BlockKind.holdsFields] at holds
      simp only [List.length_append, List.length_cons] at fits
      obtain ⟨bound, rfl⟩ := Nat.exists_eq_add_one_of_ne_zero (by omega : bound ≠ 0)
      obtain ⟨noBracket, noQuestion⟩ := attributes.no_suffix follows
      have taken := attributes_complete bound _ _ rest attributes ends (by omega)
      have question := optionalSuffix_complete optional noQuestion
      have brackets := listSuffix_complete list (optional.no_bracket noBracket)
      simp [Reader.member, holdsNone, declaration_of_name named, notEnum, Reader.field,
        name_present _ named, name_present _ typed, brackets, question, taken]
  | value isEnum named attributes =>
      subst isEnum
      simp only [List.length_cons] at fits
      obtain ⟨bound, rfl⟩ := Nat.exists_eq_add_one_of_ne_zero (by omega : bound ≠ 0)
      have taken := attributes_complete bound _ _ rest attributes ends (by omega)
      simp [Reader.member, BlockKind.holdsAssignments, declaration_of_name named,
        Reader.enumValue, name_present _ named, taken]
  | @blockAttribute sign tokens attr holdsNone isSign one =>
      simp only [List.length_cons] at fits
      have taken := attributeAfter_complete true sign.mark bound _ _ rest one ends.1 (by omega)
      obtain ⟨lexeme, mark⟩ := sign
      subst isSign
      simp [Reader.member, holdsNone, Reader.declaration, taken]

/-! ## Blocks -/

theorem IsMember.cons {kind : BlockKind} {tokens : List Token} {m : Member}
    (member : IsMember kind tokens m) :
    ∃ token rest, tokens = token :: rest ∧ IsInner token.lexeme := by
  have inside := member.inside
  cases member <;> exact ⟨_, _, rfl, inside.inner _ (by simp)⟩

theorem IsBody.next {kind : BlockKind} {body : List Token} {list : List Member}
    (isBody : IsBody kind body list) :
    body = [] ∨ ∃ lexeme, Grammar.next body = some lexeme ∧ IsInner lexeme := by
  cases isBody with
  | empty => exact .inl rfl
  | last member =>
      obtain ⟨token, rest, rfl, inner⟩ := member.cons
      exact .inr ⟨_, rfl, inner⟩
  | more member _ _ _ =>
      obtain ⟨token, rest, rfl, inner⟩ := member.cons
      exact .inr ⟨_, rfl, inner⟩

/-- No line end comes next in front of the rest of a body and its closing brace. -/
theorem IsBody.no_lineEnd {kind : BlockKind} {body : List Token} {list : List Member}
    (isBody : IsBody kind body list) {closing : Token}
    (closes : closing.lexeme = .punct .braceClose) (rest : List Token) :
    Grammar.next (body ++ closing :: rest) ≠ some .newline := by
  rcases isBody.next with rfl | ⟨lexeme, starts, inner⟩
  · simp [closes]
  · rw [next_append _ (by simp [starts]), starts]
    simpa using inner.1

theorem IsBody.eq_nil_of_brace {kind : BlockKind} {body rest : List Token} {list : List Member}
    (isBody : IsBody kind body list)
    (brace : Grammar.next (body ++ rest) = some (.punct .braceClose)) : body = [] := by
  rcases isBody.next with rfl | ⟨lexeme, starts, inner⟩
  · rfl
  · rw [next_append _ (by simp [starts]), starts, Option.some.injEq] at brace
    exact absurd brace inner.2.2

theorem IsBody.members_of_nil {kind : BlockKind} {list : List Member}
    (isBody : IsBody kind [] list) : list = [] := by
  generalize shape : ([] : List Token) = body at isBody
  cases isBody with
  | empty => rfl
  | last member =>
      obtain ⟨_, _, rfl, -⟩ := member.cons
      cases shape
  | more member _ _ _ =>
      obtain ⟨_, _, rfl, -⟩ := member.cons
      cases shape

theorem members_sound (kind : BlockKind) (name : String) (opened : Mark) (bound : Nat) :
    Sound (Reader.members kind name opened bound) fun read found =>
      ∃ body closing, read = body ++ [closing] ∧ closing.lexeme = .punct .braceClose ∧
        closing.mark = found.2 ∧ IsBody kind body found.1 := by
  induction bound with
  | zero => intro tokens found rest read; simp [Reader.members] at read
  | succ bound ih =>
      intro tokens found rest read
      cases tokens with
      | nil => simp [Reader.members] at read
      | cons token others =>
          simp only [Reader.members] at read
          split at read
          · rename_i closes
            cases read
            exact ⟨[token], rfl, [], token, rfl, closes, rfl, .empty⟩
          · simp only [andThen_eq_done, map_eq_done] at read
            obtain ⟨first, _, taken, _, _, ended, ⟨more, closed⟩, takenMore, rfl⟩ := read
            obtain ⟨stretch, shape, one⟩ := member_sound _ _ _ _ _ taken
            obtain ⟨ends, rfl, allEnds, brace⟩ := statementEnd_sound ended
            obtain ⟨-, rfl, body, closing, rfl, closes, rfl, isBody⟩ := ih _ _ _ takenMore
            refine ⟨stretch ++ ends ++ body ++ [closing], by simp [shape],
              stretch ++ ends ++ body, closing, rfl, closes, rfl, ?_⟩
            by_cases none : ends = []
            · subst none
              have noBody : body = [] := isBody.eq_nil_of_brace (by simpa using brace rfl)
              subst noBody
              obtain rfl : more = [] := isBody.members_of_nil
              simpa using IsBody.last one
            · exact .more one allEnds none isBody

theorem members_complete {kind : BlockKind} (name : String) (opened : Mark) {body : List Token}
    {list : List Member} (isBody : IsBody kind body list) {closing : Token}
    (closes : closing.lexeme = .punct .braceClose) (rest : List Token) (bound : Nat)
    (enough : body.length < bound) :
    Reader.members kind name opened bound (body ++ closing :: rest) =
      .done (list, closing.mark) rest := by
  induction isBody generalizing bound with
  | empty =>
      obtain ⟨bound, rfl⟩ := Nat.exists_eq_add_one_of_ne_zero (by omega : bound ≠ 0)
      simp [Reader.members, closes]
  | @last tokens m member =>
      obtain ⟨bound, rfl⟩ := Nat.exists_eq_add_one_of_ne_zero (by omega : bound ≠ 0)
      have taken := member_complete kind bound _ _ (closing :: rest) member
        (.inr (by simp [closes])) (by omega)
      obtain ⟨token, others, rfl, inner⟩ := member.cons
      simp only [List.length_cons] at enough
      obtain ⟨bound, rfl⟩ := Nat.exists_eq_add_one_of_ne_zero (by omega : bound ≠ 0)
      rw [List.cons_append] at taken ⊢
      rw [Reader.members, if_neg inner.2.2, taken, done_andThen, statementEnd_brace _ closes,
        done_andThen]
      simp [Reader.members, closes]
  | @more tokens ends others m list member allEnds nonempty isBody ih =>
      obtain ⟨bound, rfl⟩ := Nat.exists_eq_add_one_of_ne_zero (by omega : bound ≠ 0)
      simp only [List.length_append] at enough
      obtain ⟨final, finals, rfl⟩ := List.exists_cons_of_ne_nil nonempty
      have isEnd : final.lexeme = .newline := allEnds final (by simp)
      have taken := member_complete kind bound _ _
        (final :: finals ++ (others ++ closing :: rest)) member (.inl (by simp [isEnd])) (by omega)
      have ended := statementEnd_append allEnds nonempty (isBody.no_lineEnd closes rest)
      obtain ⟨token, more, rfl, inner⟩ := member.cons
      simp only [List.length_cons] at enough
      have recurse := ih bound (by omega)
      simp only [List.cons_append, List.append_assoc] at taken ended recurse ⊢
      rw [Reader.members, if_neg inner.2.2, taken, done_andThen, ended, done_andThen, recurse,
        done_map]

theorem block_sound (bound : Nat) : Sound (Reader.block bound) IsBlock := by
  intro tokens b rest read
  unfold Reader.block at read
  split at read
  · rename_i kind opened others
    simp only [andThen_eq_done, map_eq_done] at read
    obtain ⟨⟨name, _⟩, _, isName, _, _, brace, _, _, ended, ⟨list, closed⟩, taken, rfl⟩ := read
    obtain ⟨token, rfl, named, -⟩ := name_eq_done.1 isName
    obtain ⟨opening, rfl, opens, -⟩ := sign_eq_done.1 brace
    obtain ⟨ends, rfl, allEnds⟩ := lineEnds_sound ended
    obtain ⟨-, rfl, body, closing, rfl, closes, rfl, isBody⟩ := members_sound _ _ _ _ _ _ _ taken
    exact ⟨⟨.keyword kind, opened⟩ :: token :: opening :: ends ++ body ++ [closing], by simp,
      .intro rfl named opens allEnds isBody closes⟩
  · cases read

theorem block_complete {read : List Token} {b : Block} (isBlock : IsBlock read b)
    (rest : List Token) (bound : Nat) (fits : read.length ≤ bound) :
    Reader.block bound (read ++ rest) = .done b rest := by
  obtain ⟨isKeyword, named, opens, allEnds, isBody, closes⟩ := isBlock
  rename_i keyword token opening closing ends body kind name list
  simp only [List.length_append, List.length_cons] at fits
  have taken := members_complete name keyword.mark isBody closes rest bound (by omega)
  have ended := lineEnds_append allEnds (isBody.no_lineEnd closes rest)
  obtain ⟨lexeme, mark⟩ := keyword
  subst isKeyword
  simp [Reader.block, name_present _ named, sign_present _ opens, ended, taken]

theorem IsBlock.cons {tokens : List Token} {b : Block} (isBlock : IsBlock tokens b) :
    ∃ keyword rest, tokens = keyword :: rest ∧ keyword.lexeme = .keyword b.kind := by
  obtain ⟨isKeyword, _, _, _, _, _⟩ := isBlock
  exact ⟨_, _, rfl, isKeyword⟩

/-! ## Schemas -/

theorem blocks_sound (bound : Nat) {tokens rest : List Token} {list : List Block}
    (read : Reader.blocks bound tokens = .done list rest) : IsSchema tokens ⟨list⟩ := by
  induction bound generalizing tokens list with
  | zero => simp [Reader.blocks] at read
  | succ bound ih =>
      simp only [Reader.blocks, andThen_eq_done] at read
      obtain ⟨_, behind, ended, read⟩ := read
      obtain ⟨ends, rfl, allEnds⟩ := lineEnds_sound ended
      split at read
      · rename_i isEmpty
        cases read
        rw [List.isEmpty_iff.1 isEmpty]
        exact .intro allEnds .none
      · simp only [andThen_eq_done, map_eq_done] at read
        obtain ⟨first, between, taken, more, takenMore, rfl⟩ := read
        obtain ⟨stretch, rfl, one⟩ := block_sound _ _ _ _ taken
        have others := ih takenMore
        generalize shape : between = tokens at others
        cases others with
        | intro allEnds' isBlocks =>
            rw [← List.append_assoc stretch]
            exact .intro allEnds (.more one allEnds' isBlocks)

theorem IsBlocks.no_lineEnd {tokens : List Token} {list : List Block}
    (isBlocks : IsBlocks tokens list) : next tokens ≠ some .newline := by
  cases isBlocks with
  | none => simp
  | more isBlock _ _ =>
      obtain ⟨keyword, rest, rfl, isKeyword⟩ := isBlock.cons
      simp [isKeyword]

theorem blocks_complete {tokens : List Token} {list : List Block}
    (isBlocks : IsBlocks tokens list) {ends : List Token} (allEnds : IsLineEnds ends) (bound : Nat)
    (enough : tokens.length < bound) : Reader.blocks bound (ends ++ tokens) = .done list [] := by
  induction isBlocks generalizing ends bound with
  | none =>
      obtain ⟨bound, rfl⟩ := Nat.exists_eq_add_one_of_ne_zero (by omega : bound ≠ 0)
      have skipped : Reader.lineEnds (ends ++ []) = .done () [] := lineEnds_append allEnds (by simp)
      rw [Reader.blocks, skipped]
      rfl
  | @more stretch ends' others b list isBlock allEnds' isBlocks ih =>
      obtain ⟨bound, rfl⟩ := Nat.exists_eq_add_one_of_ne_zero (by omega : bound ≠ 0)
      simp only [List.length_append] at enough
      have skipped := lineEnds_append allEnds (IsBlocks.more isBlock allEnds' isBlocks).no_lineEnd
      have taken := block_complete isBlock (ends' ++ others) bound (by omega)
      obtain ⟨keyword, more, rfl, -⟩ := isBlock.cons
      simp only [List.length_cons] at enough
      have recurse := ih allEnds' bound (by omega)
      simp only [List.append_assoc] at skipped taken recurse ⊢
      rw [Reader.blocks, skipped, done_andThen, taken]
      simp [recurse]

theorem ofTokens_eq_ok {stream : TokenStream} {schema : Schema} :
    Schema.ofTokens stream = .ok schema ↔ IsSchema stream.tokens schema := by
  constructor
  · intro parsed
    unfold Schema.ofTokens at parsed
    split at parsed
    · rename_i blocks rest read
      cases parsed
      exact blocks_sound _ read
    · cases parsed
    · cases parsed
  · intro derived
    generalize shape : stream.tokens = tokens at derived
    cases derived with
    | @intro ends rest blocks allEnds isBlocks =>
        have read := blocks_complete isBlocks allEnds ((ends ++ rest).length + 1)
          (by rw [List.length_append]; omega)
        simp only [Schema.ofTokens, shape, read]

/-- A derivation has one tree. -/
theorem IsSchema.unique {tokens : List Token} {first second : Schema}
    (h₁ : IsSchema tokens first) (h₂ : IsSchema tokens second) : first = second := by
  have ok₁ : Schema.ofTokens ⟨tokens, .start⟩ = .ok first := ofTokens_eq_ok.2 h₁
  have ok₂ : Schema.ofTokens ⟨tokens, .start⟩ = .ok second := ofTokens_eq_ok.2 h₂
  exact Except.ok.inj (ok₁.symm.trans ok₂)

/-- **A list of tokens has a tree exactly if it derives it**, and it derives at most
one. -/
theorem ofTokens_eq_ok_iff_isSchema (stream : TokenStream) :
    (∀ schema, Schema.ofTokens stream = .ok schema ↔ IsSchema stream.tokens schema) ∧
      {schema | IsSchema stream.tokens schema}.Subsingleton :=
  ⟨fun _ => ofTokens_eq_ok, fun _ h₁ _ h₂ => h₁.unique h₂⟩

/-! ## Taking blocks off the front -/

/-- A block ends at its closing brace, whatever follows. -/
theorem IsBlock.cut {first second rest₁ rest₂ : List Token} {b c : Block}
    (h₁ : IsBlock first b) (h₂ : IsBlock second c) (same : first ++ rest₁ = second ++ rest₂) :
    b = c ∧ rest₁ = rest₂ := by
  have read₁ := block_complete h₁ rest₁ (first.length + second.length) (by omega)
  have read₂ := block_complete h₂ rest₂ (first.length + second.length) (by omega)
  rw [same, read₂] at read₁
  obtain ⟨rfl, rfl⟩ := Reading.done.inj read₁
  exact ⟨rfl, rfl⟩

theorem IsSchema.lineEnd_cons {token : Token} (isEnd : token.lexeme = .newline)
    {tokens : List Token} {schema : Schema} :
    IsSchema (token :: tokens) schema ↔ IsSchema tokens schema := by
  constructor
  · intro derived
    generalize shape : token :: tokens = whole at derived
    cases derived with
    | @intro ends rest blocks allEnds isBlocks =>
        cases ends with
        | nil =>
            refine absurd ?_ isBlocks.no_lineEnd
            rw [← List.nil_append rest, ← shape, next_cons, isEnd]
        | cons first others =>
            obtain ⟨rfl, rfl⟩ := List.cons.inj shape
            exact .intro (fun t member => allEnds t (by simp [member])) isBlocks
  · intro derived
    cases derived with
    | @intro ends rest blocks allEnds isBlocks =>
        have all : IsLineEnds (token :: ends) := by
          simpa [IsLineEnds, isEnd] using allEnds
        exact .intro all isBlocks

theorem IsSchema.lineEnds_append {ends tokens : List Token} (allEnds : IsLineEnds ends)
    {schema : Schema} : IsSchema (ends ++ tokens) schema ↔ IsSchema tokens schema := by
  induction ends with
  | nil => rfl
  | cons token others ih =>
      rw [List.cons_append, IsSchema.lineEnd_cons (allEnds token (by simp))]
      exact ih fun t member => allEnds t (by simp [member])

theorem IsSchema.block_append {stretch tokens : List Token} {b : Block}
    (isBlock : IsBlock stretch b) {schema : Schema} :
    IsSchema (stretch ++ tokens) schema ↔
      ∃ others, schema.blocks = b :: others ∧ IsSchema tokens ⟨others⟩ := by
  constructor
  · intro derived
    generalize shape : stretch ++ tokens = whole at derived
    cases derived with
    | @intro ends rest blocks allEnds isBlocks =>
        obtain ⟨keyword, more, head, isKeyword⟩ := isBlock.cons
        have noEnds : ends = [] := by
          cases ends with
          | nil => rfl
          | cons first others =>
              rw [head] at shape
              obtain ⟨rfl, -⟩ := List.cons.inj shape
              have isEnd := allEnds keyword (by simp)
              simp [isEnd] at isKeyword
        subst noEnds
        rw [List.nil_append] at shape
        cases isBlocks with
        | none => simp [head] at shape
        | @more stretch' ends' rest' c others isBlock' allEnds' isBlocks' =>
            rw [List.append_assoc] at shape
            obtain ⟨rfl, rfl⟩ := isBlock.cut isBlock' shape
            exact ⟨others, rfl, .intro allEnds' isBlocks'⟩
  · rintro ⟨others, shape, derived⟩
    obtain ⟨blocks⟩ := schema
    subst shape
    cases derived with
    | @intro ends rest blocks allEnds isBlocks =>
        have noEnds : IsLineEnds [] := by simp [IsLineEnds]
        simpa using IsSchema.intro noEnds (.more isBlock allEnds isBlocks)

/-- **Derivations are concatenated and cut**: behind tokens that derive a schema, the
rest derives the remaining blocks. -/
theorem IsSchema.append {first second : List Token} {front schema : Schema}
    (derived : IsSchema first front) :
    IsSchema (first ++ second) schema ↔
      ∃ others, schema.blocks = front.blocks ++ others ∧ IsSchema second ⟨others⟩ := by
  cases derived with
  | @intro ends rest blocks allEnds isBlocks =>
      rw [List.append_assoc, IsSchema.lineEnds_append allEnds]
      induction isBlocks generalizing schema with
      | none => simp
      | more isBlock allEnds' _ ih =>
          rw [List.append_assoc, List.append_assoc, IsSchema.block_append isBlock]
          constructor
          · rintro ⟨between, shape, derived⟩
            rw [IsSchema.lineEnds_append allEnds'] at derived
            obtain ⟨others, rfl, last⟩ := ih.1 derived
            exact ⟨others, by simpa using shape, last⟩
          · rintro ⟨others, shape, last⟩
            refine ⟨_ ++ others, by simpa using shape, ?_⟩
            rw [IsSchema.lineEnds_append allEnds']
            exact ih.2 ⟨others, rfl, last⟩

end SchemaAssist.Grammar
