/-
# SchemaAssist.Proofs.Grammar.Viability — a refusal comes behind the start of a schema

A reader that refuses has taken tokens that begin a stretch of its relation: some
further lexemes complete them, wherever these may stand (`Begins`).  The completing
lexemes are few (`fillers`): a name, signs of one character, and a keyword to begin a
block with.  No line end is among them, so tokens may be completed at any depth.

Inside a statement every refusal names what was expected (`Viable`).  A block has two
more reasons: a statement that goes on where it should end, and the end of the tokens
inside the block, which is refused behind an open block (`IsOpenBlock`).
-/
import SchemaAssist.Proofs.Grammar.Acceptance
import SchemaAssist.Proofs.Grammar.Locality
import SchemaAssist.Proofs.Grammar.Placement

namespace SchemaAssist.Grammar

set_option autoImplicit false

variable {α β : Type}

/-! ## Refusals in sequence -/

theorem andThen_eq_refused {reading : Reading α} {f : α → Reader β} {why : Refusal}
    {rest : List Token} :
    reading.andThen f = .refused why rest ↔
      reading = .refused why rest ∨
        ∃ a between, reading = .done a between ∧ f a between = .refused why rest := by
  cases reading <;> simp [Reading.andThen]

theorem map_eq_refused {reading : Reading α} {f : α → β} {why : Refusal} {rest : List Token} :
    reading.map f = .refused why rest ↔ reading = .refused why rest := by
  cases reading <;> simp [Reading.map, Reading.andThen]

theorem sign_eq_refused {wanted : Punct} {tokens rest : List Token} {why : Refusal}
    (refused : Reader.sign wanted tokens = .refused why rest) :
    why = .expected (.sign wanted) ∧ rest = tokens := by
  cases tokens with
  | nil =>
      cases refused
      exact ⟨rfl, rfl⟩
  | cons token others =>
      rw [Reader.sign] at refused
      split at refused <;> cases refused
      exact ⟨rfl, rfl⟩

theorem name_eq_refused {tokens rest : List Token} {why : Refusal}
    (refused : Reader.name tokens = .refused why rest) :
    why = .expected .name ∧ rest = tokens := by
  cases tokens with
  | nil =>
      cases refused
      exact ⟨rfl, rfl⟩
  | cons token others =>
      rw [Reader.name] at refused
      split at refused <;> cases refused
      exact ⟨rfl, rfl⟩

theorem optionalSign_ne_refused {wanted : Punct} {tokens rest : List Token} {why : Refusal} :
    Reader.optionalSign wanted tokens ≠ .refused why rest := by
  cases tokens with
  | nil => simp [Reader.optionalSign]
  | cons token others =>
      rw [Reader.optionalSign]
      split <;> simp

theorem lineEnds_ne_refused {tokens rest : List Token} {why : Refusal} :
    Reader.lineEnds tokens ≠ .refused why rest := by
  induction tokens with
  | nil => simp [Reader.lineEnds]
  | cons token others ih =>
      rw [Reader.lineEnds]
      split
      · exact ih
      · simp

theorem statementEnd_eq_refused {tokens rest : List Token} {why : Refusal}
    (refused : Reader.statementEnd tokens = .refused why rest) :
    why = .unexpected ∧ rest = tokens := by
  cases tokens with
  | nil =>
      cases refused
      exact ⟨rfl, rfl⟩
  | cons token others =>
      rw [Reader.statementEnd] at refused
      split at refused
      · exact absurd refused lineEnds_ne_refused
      · split at refused <;> cases refused
        exact ⟨rfl, rfl⟩

/-! ## Beginnings -/

/-- The lexemes that complete what has been begun. -/
def fillers : List Lexeme :=
  [.word "x", .keyword .enum, .punct .equals, .punct .bracketClose, .punct .parenClose,
    .punct .braceOpen, .punct .braceClose]

/-- The tokens begin a stretch of the relation: whatever tokens spell certain fillers
complete it. -/
def Begins (relation : List Token → α → Prop) (read : List Token) : Prop :=
  ∃ ends : List Lexeme, (∀ lexeme ∈ ends, lexeme ∈ fillers) ∧
    ∀ more : List Token, more.map (·.lexeme) = ends → ∃ a, relation (read ++ more) a

/-- The reader refuses only behind the beginning of a stretch, and says what it would
have gone on with. -/
def Viable (reader : Reader α) (relation : List Token → α → Prop) : Prop :=
  ∀ tokens why rest, reader tokens = .refused why rest →
    (∃ what, why = .expected what) ∧ ∃ read, tokens = read ++ rest ∧ Begins relation read

namespace Begins

variable {relation : List Token → α → Prop} {read : List Token}

theorem of {a : α} (whole : relation read a) : Begins relation read := by
  refine ⟨[], by simp, fun more same => ⟨a, ?_⟩⟩
  obtain rfl := List.map_eq_nil_iff.1 same
  rwa [List.append_nil]

/-- Further fillers complete a stretch of another relation. -/
theorem further {larger : List Token → β → Prop} (begins : Begins relation read)
    (front : List Token) (last : List Lexeme) (areFillers : ∀ l ∈ last, l ∈ fillers)
    (complete : ∀ more a back, relation (read ++ more) a → back.map (·.lexeme) = last →
      ∃ b, larger (front ++ read ++ more ++ back) b) : Begins larger (front ++ read) := by
  obtain ⟨first, known, whole⟩ := begins
  refine ⟨first ++ last, ?_, fun tokens same => ?_⟩
  · intro lexeme isIn
    exact (List.mem_append.1 isIn).elim (known lexeme) (areFillers lexeme)
  · obtain ⟨more, back, rfl, spelled, ends⟩ := List.map_eq_append_iff.1 same
    obtain ⟨a, whole⟩ := whole more spelled
    rw [← List.append_assoc]
    exact complete more a back whole ends

/-- What completes a stretch of one relation completes one of another. -/
theorem imp {larger : List Token → β → Prop} (begins : Begins relation read) (front : List Token)
    (complete : ∀ more a, relation (read ++ more) a → ∃ b, larger (front ++ read ++ more) b) :
    Begins larger (front ++ read) := by
  refine begins.further _ [] (by simp) fun more a back whole same => ?_
  obtain rfl := List.map_eq_nil_iff.1 same
  rw [List.append_nil]
  exact complete more a whole

end Begins

theorem Viable.map {reader : Reader α} {f : α → β} {relation : List Token → β → Prop}
    (viable : Viable reader fun read a => relation read (f a)) :
    Viable (fun tokens => (reader tokens).map f) relation := by
  intro tokens why rest refused
  obtain ⟨expected, read, rfl, begins⟩ := viable _ _ _ (map_eq_refused.1 refused)
  exact ⟨expected, read, rfl, begins.imp [] fun more a one => ⟨f a, one⟩⟩

/-! ## Lists and values -/

section

variable {item : Reader α} {relation : List Token → α → Prop}

theorem viable_commaList (viable : Viable item relation) (sound : Sound item relation)
    (close : Punct) (bound : Nat) :
    Viable (Reader.commaList close item bound) (Separated relation) := by
  induction bound with
  | zero => intro tokens why rest refused; cases refused
  | succ bound ih =>
      intro tokens why rest refused
      simp only [Reader.commaList, andThen_eq_refused, optionalSign_ne_refused, false_or,
        optionalSign_eq_done] at refused
      obtain ⟨isClosed, behind, ⟨rfl, -⟩ | ⟨rfl, rfl, -⟩, refused⟩ := refused
      · cases refused
      simp only [Bool.false_eq_true, if_false, andThen_eq_refused, optionalSign_ne_refused,
        false_or, optionalSign_eq_done] at refused
      obtain refused | ⟨a, between, taken, hasMore, behind, comma, refused⟩ := refused
      · obtain ⟨expected, read, rfl, begins⟩ := viable _ _ _ refused
        exact ⟨expected, read, rfl, begins.imp [] fun more a one => ⟨[a], .last one⟩⟩
      obtain ⟨stretch, rfl, one⟩ := sound _ _ _ taken
      obtain ⟨rfl, token, rfl, isComma⟩ | ⟨rfl, rfl, -⟩ := comma
      · rw [if_pos rfl, map_eq_refused] at refused
        obtain ⟨expected, read, rfl, begins⟩ := ih _ _ _ refused
        refine ⟨expected, stretch ++ token :: read, by simp, ?_⟩
        have front : stretch ++ token :: read = (stretch ++ [token]) ++ read := by simp
        rw [front]
        refine begins.imp _ fun more items others => ⟨a :: items, ?_⟩
        simpa using Separated.more one isComma others
      · rw [if_neg (by simp), map_eq_refused] at refused
        obtain ⟨rfl, rfl⟩ := sign_eq_refused refused
        exact ⟨⟨_, rfl⟩, stretch, rfl, .of (.last one)⟩

end

theorem viable_argument {value : Reader Value} {relation : List Token → Value → Prop}
    (viable : Viable value relation) :
    Viable (Reader.argument value) (IsArgument relation) := by
  intro tokens why rest refused
  unfold Reader.argument at refused
  split at refused
  · rename_i name mark mark' others
    obtain ⟨expected, read, rfl, begins⟩ := viable _ _ _ (map_eq_refused.1 refused)
    refine ⟨expected, _ :: _ :: read, rfl, ?_⟩
    exact begins.imp [_, _] fun more v one => ⟨⟨some name, v⟩, .named rfl rfl one⟩
  · obtain ⟨expected, read, rfl, begins⟩ := viable _ _ _ (map_eq_refused.1 refused)
    exact ⟨expected, read, rfl,
      begins.imp [] fun more v one => ⟨⟨none, v⟩, .plain one⟩⟩

/-! ## Single fillers -/

section

variable {tokens : List Token} {lexemes : List Lexeme}

theorem map_eq_name (same : tokens.map (·.lexeme) = .word "x" :: lexemes) :
    ∃ token rest, tokens = token :: rest ∧ token.lexeme.name? = some "x" ∧
      rest.map (·.lexeme) = lexemes := by
  obtain ⟨token, rest, rfl, lexeme, same⟩ := List.map_eq_cons_iff.1 same
  exact ⟨token, rest, rfl, by rw [lexeme]; rfl, same⟩

theorem map_eq_singleton {lexeme : Lexeme} (same : tokens.map (·.lexeme) = [lexeme]) :
    ∃ token, tokens = [token] ∧ token.lexeme = lexeme := by
  obtain ⟨token, rest, rfl, lexeme, same⟩ := List.map_eq_cons_iff.1 same
  obtain rfl := List.map_eq_nil_iff.1 same
  exact ⟨token, rfl, lexeme⟩

end

theorem exists_value {tokens : List Token} (same : tokens.map (·.lexeme) = [.word "x"]) :
    ∃ v, IsValue tokens v := by
  obtain ⟨token, rfl, lexeme⟩ := map_eq_singleton same
  exact ⟨_, .identifier (by rw [lexeme]; rfl) (by decide : ¬ IsBoolean "x")⟩

/-- A value can always be begun. -/
theorem begins_value : Begins IsValue [] :=
  ⟨[.word "x"], by decide, fun _ same => exists_value same⟩

theorem viable_value (bound : Nat) : Viable (Reader.value bound) IsValue := by
  induction bound with
  | zero => intro tokens why rest refused; cases refused
  | succ bound ih =>
      intro tokens why rest refused
      have list := viable_commaList (viable_argument ih) (argument_sound (value_sound bound))
        .parenClose bound
      cases tokens with
      | nil =>
          cases refused
          exact ⟨⟨_, rfl⟩, [], rfl, begins_value⟩
      | cons token others =>
          cases named : token.lexeme.name? with
          | some name =>
              rw [value_name named] at refused
              split at refused
              · cases refused
              rename_i other
              simp only [andThen_eq_refused, optionalSign_ne_refused, false_or,
                optionalSign_eq_done] at refused
              obtain ⟨isCall, behind, ⟨rfl, opening, rfl, opens⟩ | ⟨rfl, rfl, -⟩, refused⟩ :=
                refused
              · obtain ⟨expected, read, rfl, begins⟩ := list _ _ _ (map_eq_refused.1 refused)
                refine ⟨expected, token :: opening :: read, rfl, ?_⟩
                refine begins.further [token, opening] [.punct .parenClose] (by decide)
                  fun more arguments back separated same => ?_
                obtain ⟨closing, rfl, closes⟩ := map_eq_singleton same
                exact ⟨_, .call named other opens separated closes⟩
              · cases refused
          | none =>
              by_cases array : token.lexeme = .punct .bracketOpen
              · rw [value_array array, map_eq_refused] at refused
                obtain ⟨expected, read, rfl, begins⟩ :=
                  viable_commaList ih (value_sound bound) _ _ _ _ _ refused
                refine ⟨expected, token :: read, rfl, ?_⟩
                refine begins.further [token] [.punct .bracketClose] (by decide)
                  fun more items back separated same => ?_
                obtain ⟨closing, rfl, closes⟩ := map_eq_singleton same
                exact ⟨_, .array array separated closes⟩
              · simp only [Reader.value] at refused
                split at refused
                · cases refused
                · cases refused
                · rename_i opens
                  exact absurd opens array
                · rw [named] at refused
                  cases refused
                  exact ⟨⟨_, rfl⟩, [], rfl, begins_value⟩

/-! ## Attributes -/

theorem viable_arguments (bound : Nat) : Viable (Reader.arguments bound) IsArguments := by
  intro tokens why rest refused
  simp only [Reader.arguments, andThen_eq_refused, optionalSign_ne_refused, false_or,
    optionalSign_eq_done] at refused
  obtain ⟨isCall, behind, ⟨rfl, opening, rfl, opens⟩ | ⟨rfl, rfl, -⟩, refused⟩ := refused
  · obtain ⟨expected, read, rfl, begins⟩ :=
      viable_commaList (viable_argument (viable_value bound)) (argument_sound (value_sound bound))
        _ _ _ _ _ refused
    refine ⟨expected, opening :: read, rfl, ?_⟩
    refine begins.further [opening] [.punct .parenClose] (by decide)
      fun more arguments back separated same => ?_
    obtain ⟨closing, rfl, closes⟩ := map_eq_singleton same
    exact ⟨_, .list opens separated closes⟩
  · cases refused

theorem viable_dottedName (start : String) :
    Viable (Reader.dottedName start) fun read _ => ∃ others, IsDotParts read others := by
  intro tokens
  have dotted : ∀ {dot : Token}, dot.lexeme = .punct .dot →
      Begins (fun read (_ : String) => ∃ others, IsDotParts read others) [dot] := by
    intro dot isDot
    refine ⟨[.word "x"], by decide, fun more same => ⟨start, ?_⟩⟩
    obtain ⟨token, rfl, lexeme⟩ := map_eq_singleton same
    exact ⟨_, .more isDot (by rw [lexeme]; rfl) .none⟩
  fun_induction Reader.dottedName start tokens with
  | case1 => intro why rest refused; cases refused
  | case2 start dot isDot =>
      intro why rest refused
      cases refused
      exact ⟨⟨_, rfl⟩, [dot], rfl, dotted isDot⟩
  | case3 start dot isDot part rest text named ih =>
      intro why rest refused
      obtain ⟨expected, read, rfl, begins⟩ := ih _ _ refused
      refine ⟨expected, dot :: part :: read, rfl, begins.imp [dot, part] ?_⟩
      rintro more name ⟨others, parts⟩
      exact ⟨name, _, .more isDot named parts⟩
  | case4 start dot isDot part others unnamed =>
      intro why rest refused
      cases refused
      exact ⟨⟨_, rfl⟩, [dot], rfl, dotted isDot⟩
  | case5 => intro why rest refused; cases refused

theorem viable_attributeAfter (isBlock : Bool) (mark : Mark) (bound : Nat) :
    Viable (Reader.attributeAfter isBlock mark bound) (IsAttribute isBlock mark) := by
  intro tokens why rest refused
  simp only [Reader.attributeAfter, andThen_eq_refused, map_eq_refused] at refused
  obtain refused | ⟨⟨first, place⟩, between, isName, refused⟩ := refused
  · obtain ⟨rfl, rfl⟩ := name_eq_refused refused
    refine ⟨⟨_, rfl⟩, [], rfl, [.word "x"], by decide, fun more same => ?_⟩
    obtain ⟨token, rfl, lexeme⟩ := map_eq_singleton same
    have named : token.lexeme.name? = some "x" := by rw [lexeme]; rfl
    exact ⟨_, by simpa using IsAttribute.intro named .none .absent⟩
  obtain ⟨token, rfl, named, -⟩ := name_eq_done.1 isName
  obtain refused | ⟨name, between, dotted, refused⟩ := refused
  · obtain ⟨expected, read, rfl, begins⟩ := viable_dottedName _ _ _ _ refused
    refine ⟨expected, token :: read, rfl, begins.imp [token] ?_⟩
    rintro more - ⟨others, parts⟩
    exact ⟨_, by simpa using IsAttribute.intro named parts .absent⟩
  · obtain ⟨dots, rfl, others, parts, rfl⟩ := dottedName_sound _ _ _ _ dotted
    obtain ⟨expected, read, rfl, begins⟩ := viable_arguments _ _ _ _ refused
    refine ⟨expected, token :: dots ++ read, by simp, begins.imp _ fun more list arguments => ?_⟩
    exact ⟨_, by simpa using IsAttribute.intro named parts arguments⟩

theorem viable_attributes (bound : Nat) : Viable (Reader.attributes bound) IsAttributes := by
  induction bound with
  | zero => intro tokens why rest refused; cases refused
  | succ bound ih =>
      intro tokens why rest refused
      cases tokens with
      | nil => cases refused
      | cons token others =>
          rw [Reader.attributes] at refused
          split at refused
          · rename_i sign
            simp only [andThen_eq_refused, map_eq_refused] at refused
            obtain refused | ⟨first, between, taken, refused⟩ := refused
            · obtain ⟨expected, read, rfl, begins⟩ := viable_attributeAfter _ _ _ _ _ _ refused
              refine ⟨expected, token :: read, rfl, begins.imp [token] ?_⟩
              exact fun more attr one => ⟨[attr], by simpa using IsAttributes.more sign one .none⟩
            · obtain ⟨stretch, rfl, one⟩ := attributeAfter_sound _ _ _ _ _ _ taken
              obtain ⟨expected, read, rfl, begins⟩ := ih _ _ _ refused
              refine ⟨expected, token :: stretch ++ read, by simp, begins.imp _ ?_⟩
              exact fun more list all =>
                ⟨first :: list, by simpa using IsAttributes.more sign one all⟩
          · cases refused

/-! ## Members -/

theorem viable_listSuffix : Viable Reader.listSuffix IsListSuffix := by
  intro tokens why rest refused
  simp only [Reader.listSuffix, andThen_eq_refused, optionalSign_ne_refused, false_or,
    optionalSign_eq_done] at refused
  obtain ⟨isList, behind, ⟨rfl, opening, rfl, opens⟩ | ⟨rfl, rfl, -⟩, refused⟩ := refused
  · obtain ⟨rfl, rfl⟩ := sign_eq_refused (map_eq_refused.1 refused)
    refine ⟨⟨_, rfl⟩, [opening], rfl, [.punct .bracketClose], by decide, fun more same => ?_⟩
    obtain ⟨closing, rfl, closes⟩ := map_eq_singleton same
    exact ⟨_, .brackets opens closes⟩
  · cases refused

theorem viable_assignment {kind : BlockKind} (holds : kind.holdsAssignments = true) (bound : Nat) :
    Viable (Reader.assignment bound) fun read a => IsMember kind read (.assignment a) := by
  intro tokens why rest refused
  simp only [Reader.assignment, andThen_eq_refused, map_eq_refused] at refused
  obtain refused | ⟨⟨key, place⟩, between, isName, refused⟩ := refused
  · obtain ⟨rfl, rfl⟩ := name_eq_refused refused
    refine ⟨⟨_, rfl⟩, [], rfl, [.word "x", .punct .equals, .word "x"], by decide, ?_⟩
    intro more same
    obtain ⟨token, rest, rfl, named, same⟩ := map_eq_name same
    obtain ⟨equals, rest, rfl, isEquals, same⟩ := List.map_eq_cons_iff.1 same
    obtain ⟨v, value⟩ := exists_value same
    exact ⟨_, .assignment holds named isEquals value⟩
  obtain ⟨token, rfl, named, -⟩ := name_eq_done.1 isName
  obtain refused | ⟨mark, between, equals, refused⟩ := refused
  · obtain ⟨rfl, rfl⟩ := sign_eq_refused refused
    refine ⟨⟨_, rfl⟩, [token], rfl, [.punct .equals, .word "x"], by decide, fun more same => ?_⟩
    obtain ⟨equals, rest, rfl, isEquals, same⟩ := List.map_eq_cons_iff.1 same
    obtain ⟨v, value⟩ := exists_value same
    exact ⟨_, .assignment holds named isEquals value⟩
  · obtain ⟨sign, rfl, isEquals, -⟩ := sign_eq_done.1 equals
    obtain ⟨expected, read, rfl, begins⟩ := viable_value _ _ _ _ refused
    exact ⟨expected, token :: sign :: read, rfl, begins.imp [token, sign]
      fun more v value => ⟨_, .assignment holds named isEquals value⟩⟩

theorem viable_field {kind : BlockKind} (holds : kind.holdsFields = true) (bound : Nat) :
    Viable (Reader.field bound) fun read f => IsMember kind read (.field f) := by
  intro tokens why rest refused
  simp only [Reader.field, andThen_eq_refused, map_eq_refused, optionalSign_ne_refused,
    false_or] at refused
  obtain refused | ⟨⟨name, place⟩, between, isName, refused⟩ := refused
  · obtain ⟨rfl, rfl⟩ := name_eq_refused refused
    refine ⟨⟨_, rfl⟩, [], rfl, [.word "x", .word "x"], by decide, fun more same => ?_⟩
    obtain ⟨token, rest, rfl, named, same⟩ := map_eq_name same
    obtain ⟨type, rest, rfl, typed, same⟩ := map_eq_name same
    obtain rfl := List.map_eq_nil_iff.1 same
    exact ⟨_, by simpa using IsMember.field holds named typed .absent .absent .none⟩
  obtain ⟨token, rfl, named, -⟩ := name_eq_done.1 isName
  obtain refused | ⟨⟨typeName, place⟩, between, isType, refused⟩ := refused
  · obtain ⟨rfl, rfl⟩ := name_eq_refused refused
    refine ⟨⟨_, rfl⟩, [token], rfl, [.word "x"], by decide, fun more same => ?_⟩
    obtain ⟨type, rest, rfl, typed, same⟩ := map_eq_name same
    obtain rfl := List.map_eq_nil_iff.1 same
    exact ⟨_, by simpa using IsMember.field holds named typed .absent .absent .none⟩
  obtain ⟨type, rfl, typed, -⟩ := name_eq_done.1 isType
  obtain refused | ⟨isList, between, takenList, isOptional, behind, takenOptional, refused⟩ :=
    refused
  · obtain ⟨expected, read, rfl, begins⟩ := viable_listSuffix _ _ _ refused
    refine ⟨expected, token :: type :: read, rfl, begins.imp [token, type] ?_⟩
    intro more isList list
    have whole := IsMember.field holds named typed list .absent .none
    exact ⟨_, by simpa using whole⟩
  · obtain ⟨brackets, rfl, list⟩ := listSuffix_sound _ _ _ takenList
    obtain ⟨question, rfl, optional⟩ := optionalSuffix_sound _ _ _ takenOptional
    obtain ⟨expected, read, rfl, begins⟩ := viable_attributes _ _ _ _ refused
    refine ⟨expected, token :: type :: brackets ++ question ++ read, by simp, begins.imp _ ?_⟩
    intro more attributes all
    have whole := IsMember.field holds named typed list optional all
    exact ⟨_, by simpa using whole⟩

theorem viable_enumValue (bound : Nat) :
    Viable (Reader.enumValue bound) fun read v => IsMember .enum read (.value v) := by
  intro tokens why rest refused
  simp only [Reader.enumValue, andThen_eq_refused, map_eq_refused] at refused
  obtain refused | ⟨⟨name, place⟩, between, isName, refused⟩ := refused
  · obtain ⟨rfl, rfl⟩ := name_eq_refused refused
    refine ⟨⟨_, rfl⟩, [], rfl, [.word "x"], by decide, fun more same => ?_⟩
    obtain ⟨token, rest, rfl, named, same⟩ := map_eq_name same
    obtain rfl := List.map_eq_nil_iff.1 same
    exact ⟨_, .value rfl named .none⟩
  · obtain ⟨token, rfl, named, -⟩ := name_eq_done.1 isName
    obtain ⟨expected, read, rfl, begins⟩ := viable_attributes _ _ _ _ refused
    exact ⟨expected, token :: read, rfl, begins.imp [token]
      fun more attributes all => ⟨_, .value rfl named all⟩⟩

theorem viable_member (kind : BlockKind) (bound : Nat) :
    Viable (Reader.member kind bound) (IsMember kind) := by
  intro tokens why rest refused
  unfold Reader.member at refused
  split at refused
  · rename_i holds
    exact (viable_assignment holds bound).map _ _ _ refused
  rename_i holdsNone
  by_cases first : next tokens = some (.punct .doubleAt)
  · obtain ⟨sign, others, rfl, isSign⟩ := exists_of_next first
    rw [declaration_sign isSign, map_eq_refused] at refused
    obtain ⟨expected, read, rfl, begins⟩ := viable_attributeAfter _ _ _ _ _ _ refused
    exact ⟨expected, sign :: read, rfl, begins.imp [sign]
      fun more attr one => ⟨_, .blockAttribute (by simpa using holdsNone) isSign one⟩⟩
  rw [declaration_plain first] at refused
  split at refused
  · rename_i isEnum
    obtain rfl : kind = .enum := by simpa using isEnum
    exact (viable_enumValue bound).map _ _ _ refused
  · rename_i notEnum
    have holds : kind.holdsFields = true := by
      cases kind <;> simp_all [BlockKind.holdsAssignments, BlockKind.holdsFields]
    exact (viable_field holds bound).map _ _ _ refused

/-! ## Blocks -/

/-- A block without its closing brace. -/
inductive IsOpenBlock (kind : BlockKind) (name : String) (opened : Mark) : List Token → Prop
  | intro {keyword token opening : Token} {ends body : List Token} {members : List Member} :
      keyword.lexeme = .keyword kind → keyword.mark = opened → token.lexeme.name? = some name →
      opening.lexeme = .punct .braceOpen → IsLineEnds ends → IsBody kind body members →
      IsOpenBlock kind name opened (keyword :: token :: opening :: ends ++ body)

def ConcernsNext (why : Refusal) : Prop := (∃ what, why = .expected what) ∨ why = .unexpected

theorem members_refused {kind : BlockKind} {name : String} {opened : Mark} {bound : Nat}
    {tokens rest : List Token} {why : Refusal}
    (refused : Reader.members kind name opened bound tokens = .refused why rest) :
    ∃ read, tokens = read ++ rest ∧ Begins (IsBody kind) read ∧
      (ConcernsNext why ∨ rest = [] ∧ why = .unterminatedBlock kind name opened ∧
        ∃ list, IsBody kind read list) := by
  induction bound generalizing tokens with
  | zero => cases refused
  | succ bound ih =>
      cases tokens with
      | nil =>
          cases refused
          exact ⟨[], rfl, .of .empty, .inr ⟨rfl, rfl, _, .empty⟩⟩
      | cons token others =>
          rw [Reader.members] at refused
          split at refused
          · cases refused
          simp only [andThen_eq_refused, map_eq_refused] at refused
          obtain refused | ⟨first, behind, taken, refused⟩ := refused
          · obtain ⟨expected, read, shape, begins⟩ := viable_member _ _ _ _ _ refused
            exact ⟨read, shape, begins.imp [] fun more m one => ⟨[m], .last one⟩,
              .inl (.inl expected)⟩
          obtain ⟨stretch, shape, one⟩ := member_sound _ _ _ _ _ taken
          rw [shape]
          obtain refused | ⟨_, onward, ended, refused⟩ := refused
          · obtain ⟨rfl, rfl⟩ := statementEnd_eq_refused refused
            exact ⟨stretch, rfl, .of (.last one), .inl (.inr rfl)⟩
          obtain ⟨ends, rfl, allEnds, brace⟩ := statementEnd_sound ended
          -- without a line end the brace comes next, and there is nothing to refuse
          have nonempty : ends ≠ [] := by
            rintro rfl
            obtain ⟨closing, behind, rfl, closes⟩ := exists_of_next (brace rfl)
            cases bound with
            | zero => cases refused
            | succ bound =>
                rw [Reader.members, if_pos closes] at refused
                cases refused
          obtain ⟨read, rfl, begins, cause⟩ := ih refused
          refine ⟨stretch ++ ends ++ read, by simp, begins.imp _ fun more list isBody =>
            ⟨first :: list, by simpa using IsBody.more one allEnds nonempty isBody⟩, ?_⟩
          refine cause.imp_right ?_
          rintro ⟨atEnd, unterminated, list, isBody⟩
          exact ⟨atEnd, unterminated, first :: list, .more one allEnds nonempty isBody⟩

theorem IsBlock.ofHeader {keyword token opening closing : Token} {kind : BlockKind} {name : String}
    (isKeyword : keyword.lexeme = .keyword kind) (named : token.lexeme.name? = some name)
    (opens : opening.lexeme = .punct .braceOpen) (closes : closing.lexeme = .punct .braceClose) :
    ∃ b, IsBlock [keyword, token, opening, closing] b :=
  have noEnds : IsLineEnds [] := by simp [IsLineEnds]
  ⟨_, by simpa using IsBlock.intro isKeyword named opens noEnds .empty closes⟩

theorem block_refused {bound : Nat} {tokens rest : List Token} {why : Refusal}
    (refused : Reader.block bound tokens = .refused why rest) :
    ∃ read, tokens = read ++ rest ∧ Begins IsBlock read ∧
      (ConcernsNext why ∨ rest = [] ∧ ∃ kind name opened,
        why = .unterminatedBlock kind name opened ∧ IsOpenBlock kind name opened read) := by
  by_cases isKeyword : ∃ kind, next tokens = some (.keyword kind)
  case neg =>
    rw [block_other fun kind first => isKeyword ⟨kind, first⟩] at refused
    cases refused
    refine ⟨[], rfl, ⟨[.keyword .enum, .word "x", .punct .braceOpen, .punct .braceClose],
      by decide, fun more same => ?_⟩, .inl (.inl ⟨_, rfl⟩)⟩
    obtain ⟨keyword, others, rfl, isKeyword, same⟩ := List.map_eq_cons_iff.1 same
    obtain ⟨token, others, rfl, named, same⟩ := map_eq_name same
    obtain ⟨opening, others, rfl, opens, same⟩ := List.map_eq_cons_iff.1 same
    obtain ⟨closing, rfl, closes⟩ := map_eq_singleton same
    exact IsBlock.ofHeader isKeyword named opens closes
  obtain ⟨kind, first⟩ := isKeyword
  obtain ⟨keyword, others, rfl, isKeyword⟩ := exists_of_next first
  simp only [block_keyword isKeyword, andThen_eq_refused, map_eq_refused, lineEnds_ne_refused,
    false_or] at refused
  obtain refused | ⟨⟨name, place⟩, between, isName, refused⟩ := refused
  · obtain ⟨rfl, rfl⟩ := name_eq_refused refused
    refine ⟨[keyword], rfl, ⟨[.word "x", .punct .braceOpen, .punct .braceClose], by decide,
      fun more same => ?_⟩, .inl (.inl ⟨_, rfl⟩)⟩
    obtain ⟨token, others, rfl, named, same⟩ := map_eq_name same
    obtain ⟨opening, others, rfl, opens, same⟩ := List.map_eq_cons_iff.1 same
    obtain ⟨closing, rfl, closes⟩ := map_eq_singleton same
    exact IsBlock.ofHeader isKeyword named opens closes
  obtain ⟨token, rfl, named, -⟩ := name_eq_done.1 isName
  obtain refused | ⟨mark, between, brace, _, behind, ended, refused⟩ := refused
  · obtain ⟨rfl, rfl⟩ := sign_eq_refused refused
    refine ⟨[keyword, token], rfl, ⟨[.punct .braceOpen, .punct .braceClose], by decide,
      fun more same => ?_⟩, .inl (.inl ⟨_, rfl⟩)⟩
    obtain ⟨opening, others, rfl, opens, same⟩ := List.map_eq_cons_iff.1 same
    obtain ⟨closing, rfl, closes⟩ := map_eq_singleton same
    exact IsBlock.ofHeader isKeyword named opens closes
  obtain ⟨opening, rfl, opens, -⟩ := sign_eq_done.1 brace
  obtain ⟨ends, rfl, allEnds⟩ := lineEnds_sound ended
  obtain ⟨read, rfl, begins, cause⟩ := members_refused refused
  refine ⟨keyword :: token :: opening :: ends ++ read, by simp, ?_, cause.imp_right ?_⟩
  · refine begins.further _ [.punct .braceClose] (by decide) fun more list back isBody same => ?_
    obtain ⟨closing, rfl, closes⟩ := map_eq_singleton same
    exact ⟨_, by simpa using IsBlock.intro isKeyword named opens allEnds isBody closes⟩
  · rintro ⟨rfl, rfl, list, isBody⟩
    exact ⟨rfl, kind, name, keyword.mark, rfl, .intro isKeyword rfl named opens allEnds isBody⟩

/-! ## Schemas -/

theorem IsSchema.ofLineEnds {ends : List Token} (allEnds : IsLineEnds ends) :
    IsSchema ends ⟨[]⟩ := by
  simpa using (IsSchema.lineEnds_append allEnds).2 .nil

theorem blocks_refused {bound : Nat} {tokens rest : List Token} {why : Refusal}
    (refused : Reader.blocks bound tokens = .refused why rest) :
    ∃ read, tokens = read ++ rest ∧ Begins IsSchema read ∧
      (ConcernsNext why ∨ rest = [] ∧ ∃ kind name opened front back schema,
        why = .unterminatedBlock kind name opened ∧ read = front ++ back ∧
          IsSchema front schema ∧ IsOpenBlock kind name opened back) := by
  induction bound generalizing tokens with
  | zero => cases refused
  | succ bound ih =>
      simp only [Reader.blocks, andThen_eq_refused, lineEnds_ne_refused, false_or] at refused
      obtain ⟨_, behind, ended, refused⟩ := refused
      obtain ⟨ends, rfl, allEnds⟩ := lineEnds_sound ended
      split at refused
      · cases refused
      simp only [andThen_eq_refused, map_eq_refused] at refused
      obtain refused | ⟨first, between, taken, refused⟩ := refused
      · obtain ⟨read, rfl, begins, cause⟩ := block_refused refused
        refine ⟨ends ++ read, by simp, begins.imp _ fun more b isBlock => ⟨⟨[b]⟩, ?_⟩,
          cause.imp_right ?_⟩
        · rw [List.append_assoc, IsSchema.lineEnds_append allEnds, ← List.append_nil (read ++ more),
            IsSchema.block_append isBlock]
          exact ⟨[], rfl, .nil⟩
        · rintro ⟨rfl, kind, name, opened, rfl, openBlock⟩
          exact ⟨rfl, kind, name, opened, ends, read, ⟨[]⟩, rfl, rfl, .ofLineEnds allEnds,
            openBlock⟩
      · obtain ⟨stretch, rfl, isBlock⟩ := block_sound _ _ _ _ taken
        obtain ⟨read, rfl, begins, cause⟩ := ih refused
        refine ⟨ends ++ stretch ++ read, by simp, begins.imp _ fun more schema derived =>
          ⟨⟨first :: schema.blocks⟩, ?_⟩, cause.imp_right ?_⟩
        · rw [List.append_assoc, List.append_assoc, IsSchema.lineEnds_append allEnds,
            IsSchema.block_append isBlock]
          exact ⟨schema.blocks, rfl, derived⟩
        · rintro ⟨rfl, kind, name, opened, front, back, schema, rfl, rfl, derived, openBlock⟩
          refine ⟨rfl, kind, name, opened, ends ++ stretch ++ front, back,
            ⟨first :: schema.blocks⟩, rfl, by simp, ?_, openBlock⟩
          rw [List.append_assoc, IsSchema.lineEnds_append allEnds, IsSchema.block_append isBlock]
          exact ⟨schema.blocks, rfl, derived⟩

end SchemaAssist.Grammar
