/-
# SchemaAssist.Proofs.Grammar.Locality — how far the readers look

A reader decides by the tokens that it takes and by the lexeme that comes next.  In
front of other tokens that start alike it ends in the same way, whether it answers or
refuses, and a larger bound changes nothing (`Keeps`).  Readers are put together from
readers of this sort, so the fact is proved of the leaves and carried upwards by
`EndsAlike.andThen`; where a reader looks at the first token, `EndsAlike.cons` takes
that token off.

The one reader that looks two tokens ahead is `argument`, for the colon behind a word;
the word is always taken, so the colon is again what comes next.
-/
import SchemaAssist.Proofs.Grammar.Reading

namespace SchemaAssist

set_option autoImplicit false

variable {α β : Type}

def Reading.rest? : Reading α → Option (List Token)
  | .done _ rest => some rest
  | .refused _ rest => some rest
  | .exhausted => none

def Reading.leaving (other : List Token) : Reading α → Reading α
  | .done a _ => .done a other
  | .refused why _ => .refused why other
  | .exhausted => .exhausted

namespace Grammar

/-! ## What comes next -/

theorem exists_of_next {tokens : List Token} {lexeme : Lexeme} (same : next tokens = some lexeme) :
    ∃ token rest, tokens = token :: rest ∧ token.lexeme = lexeme := by
  cases tokens with
  | nil => cases same
  | cons token rest => exact ⟨token, rest, rfl, Option.some.inj same⟩

theorem eq_nil_of_next {tokens : List Token} (same : next tokens = none) : tokens = [] := by
  cases tokens with
  | nil => rfl
  | cons token rest => cases same

/-- What comes first does not change with tokens that start alike. -/
theorem next_append_congr (read : List Token) {rest other : List Token}
    (same : next other = next rest) : next (read ++ other) = next (read ++ rest) := by
  cases read with
  | nil => exact same
  | cons token read => rfl

/-! ## Ending alike -/

/-- If the reading of `tokens` comes to an end, it does so behind a stretch of them, and
`reader` ends in the same way behind that stretch wherever the same lexeme comes next. -/
def EndsAlike (reading : Reading α) (tokens : List Token) (reader : Reader α) : Prop :=
  ∀ rest, reading.rest? = some rest → ∃ read, tokens = read ++ rest ∧
    ∀ other, next other = next rest → reader (read ++ other) = reading.leaving other

/-- Wherever the first reader comes to an end, the second one ends alike. -/
def Keeps (first second : Reader α) : Prop :=
  ∀ tokens, EndsAlike (first tokens) tokens second

namespace EndsAlike

variable {reading : Reading α} {tokens : List Token} {reader : Reader α}

theorem exhausted : EndsAlike .exhausted tokens reader := by
  intro rest ends
  cases ends

/-- Nothing is taken, and the outcome depends on the next lexeme alone. -/
theorem here (ends : reading.rest? = some tokens)
    (same : ∀ other, next other = next tokens → reader other = reading.leaving other) :
    EndsAlike reading tokens reader := by
  intro rest left
  obtain rfl := Option.some.inj (ends.symm.trans left)
  exact ⟨[], rfl, same⟩

theorem done (a : α) : EndsAlike (.done a tokens) tokens (fun others => .done a others) :=
  here rfl fun _ _ => rfl

/-- The first token is taken, and the rest is read by another reader. -/
theorem cons {token : Token} {inner : Reader α} (alike : EndsAlike reading tokens inner)
    (same : ∀ others, reader (token :: others) = inner others) :
    EndsAlike reading (token :: tokens) reader := by
  intro rest ends
  obtain ⟨read, rfl, onward⟩ := alike rest ends
  refine ⟨token :: read, rfl, fun other starts => ?_⟩
  rw [List.cons_append, same]
  exact onward other starts

/-- Readers that agree on all tokens with this first lexeme can stand for each other. -/
theorem congr {second : Reader α} (alike : EndsAlike reading tokens second)
    (same : ∀ others, next others = next tokens → reader others = second others) :
    EndsAlike reading tokens reader := by
  intro rest ends
  obtain ⟨read, rfl, onward⟩ := alike rest ends
  refine ⟨read, rfl, fun other starts => ?_⟩
  rw [same _ (next_append_congr read starts)]
  exact onward other starts

theorem andThen {f g : α → Reader β} (alike : EndsAlike reading tokens reader)
    (onward : ∀ a, Keeps (f a) (g a)) :
    EndsAlike (reading.andThen f) tokens (fun others => (reader others).andThen g) := by
  intro rest ends
  cases reading with
  | exhausted => cases ends
  | refused why left =>
      obtain rfl := Option.some.inj ends
      obtain ⟨read, rfl, first⟩ := alike left rfl
      refine ⟨read, rfl, fun other starts => ?_⟩
      simp only [first other starts]
      rfl
  | done a between =>
      obtain ⟨read, rfl, first⟩ := alike between rfl
      obtain ⟨more, rfl, second⟩ := onward a between rest ends
      refine ⟨read ++ more, by rw [List.append_assoc], fun other starts => ?_⟩
      rw [List.append_assoc]
      simp only [first _ (next_append_congr more starts), Reading.leaving, done_andThen]
      exact second other starts

theorem map (f : α → β) (alike : EndsAlike reading tokens reader) :
    EndsAlike (reading.map f) tokens (fun others => (reader others).map f) :=
  alike.andThen fun _ _ => .done _

end EndsAlike

/-! ## Leaves -/

theorem keeps_sign (wanted : Punct) : Keeps (Reader.sign wanted) (Reader.sign wanted) := by
  intro tokens
  cases tokens with
  | nil =>
      refine .here rfl fun other starts => ?_
      obtain rfl := eq_nil_of_next starts
      rfl
  | cons token rest =>
      by_cases present : token.lexeme = .punct wanted
      · rw [sign_present rest present]
        exact .cons (.done _) fun others => sign_present others present
      · rw [Reader.sign, if_neg present]
        refine .here rfl fun other starts => ?_
        obtain ⟨token', rest', rfl, same⟩ := exists_of_next starts
        rw [Reader.sign, if_neg (by rwa [same])]
        rfl

theorem keeps_name : Keeps Reader.name Reader.name := by
  intro tokens
  cases tokens with
  | nil =>
      refine .here rfl fun other starts => ?_
      obtain rfl := eq_nil_of_next starts
      rfl
  | cons token rest =>
      cases named : token.lexeme.name? with
      | some name =>
          rw [name_present rest named]
          exact .cons (.done _) fun others => name_present others named
      | none =>
          simp only [Reader.name, named]
          refine .here rfl fun other starts => ?_
          obtain ⟨token', rest', rfl, same⟩ := exists_of_next starts
          simp only [Reader.name, same, named]
          rfl

theorem keeps_optionalSign (wanted : Punct) :
    Keeps (Reader.optionalSign wanted) (Reader.optionalSign wanted) := by
  intro tokens
  by_cases present : next tokens = some (.punct wanted)
  · obtain ⟨token, rest, rfl, same⟩ := exists_of_next present
    rw [optionalSign_present rest same]
    exact .cons (.done _) fun others => optionalSign_present others same
  · rw [optionalSign_absent present]
    exact .here rfl fun other starts => optionalSign_absent (by rwa [starts])

theorem keeps_lineEnds : Keeps Reader.lineEnds Reader.lineEnds := by
  intro tokens
  induction tokens with
  | nil =>
      refine .here rfl fun other starts => ?_
      obtain rfl := eq_nil_of_next starts
      rfl
  | cons token rest ih =>
      by_cases isEnd : token.lexeme = .newline
      · rw [Reader.lineEnds, if_pos isEnd]
        exact .cons ih fun others => by rw [Reader.lineEnds, if_pos isEnd]
      · rw [Reader.lineEnds, if_neg isEnd]
        refine .here rfl fun other starts => ?_
        obtain ⟨token', rest', rfl, same⟩ := exists_of_next starts
        rw [Reader.lineEnds, if_neg (by rwa [same])]
        rfl

theorem keeps_statementEnd : Keeps Reader.statementEnd Reader.statementEnd := by
  intro tokens
  cases tokens with
  | nil =>
      refine .here rfl fun other starts => ?_
      obtain rfl := eq_nil_of_next starts
      rfl
  | cons token rest =>
      by_cases isEnd : token.lexeme = .newline
      · rw [Reader.statementEnd, if_pos isEnd]
        exact .cons (keeps_lineEnds rest) fun others => by rw [Reader.statementEnd, if_pos isEnd]
      · refine .here ?_ fun other starts => ?_
        · rw [Reader.statementEnd, if_neg isEnd]
          split <;> rfl
        · obtain ⟨token', rest', rfl, same⟩ := exists_of_next starts
          simp only [Reader.statementEnd, same, if_neg isEnd]
          split <;> rfl

theorem keeps_dottedName (start : String) :
    Keeps (Reader.dottedName start) (Reader.dottedName start) := by
  intro tokens
  fun_induction Reader.dottedName start tokens with
  | case1 start =>
      refine .here rfl fun other starts => ?_
      obtain rfl := eq_nil_of_next starts
      rw [Reader.dottedName]
      rfl
  | case2 start dot isDot =>
      -- the dot is taken, and the refusal is that of the name behind it
      intro rest ends
      obtain rfl := Option.some.inj ends
      refine ⟨[dot], rfl, fun other starts => ?_⟩
      obtain rfl := eq_nil_of_next starts
      simp only [List.append_nil, Reader.dottedName, if_pos isDot]
      rfl
  | case3 start dot isDot part rest text named ih =>
      intro left ends
      obtain ⟨read, rfl, onward⟩ := ih left ends
      refine ⟨dot :: part :: read, rfl, fun other starts => ?_⟩
      simp only [List.cons_append, Reader.dottedName, if_pos isDot, named]
      exact onward other starts
  | case4 start dot isDot part rest unnamed =>
      intro left ends
      obtain rfl := Option.some.inj ends
      refine ⟨[dot], rfl, fun other starts => ?_⟩
      obtain ⟨part', rest', rfl, same⟩ := exists_of_next starts
      simp only [List.singleton_append, Reader.dottedName, if_pos isDot, same, unnamed]
      rfl
  | case5 start token rest other =>
      refine .here rfl fun others starts => ?_
      obtain ⟨token', rest', rfl, same⟩ := exists_of_next starts
      rw [Reader.dottedName.eq_def]
      simp only [same, if_neg other]
      rfl

/-! ## Lists and values -/

theorem keeps_commaList {close : Punct} {item second : Reader α} (keeps : Keeps item second)
    {bound more : Nat} (le : bound ≤ more) :
    Keeps (Reader.commaList close item bound) (Reader.commaList close second more) := by
  induction bound generalizing more with
  | zero => exact fun _ => .exhausted
  | succ bound ih =>
      obtain ⟨more, rfl⟩ := Nat.exists_eq_add_one_of_ne_zero (by omega : more ≠ 0)
      intro tokens
      refine (keeps_optionalSign close tokens).andThen fun isClosed rest => ?_
      cases isClosed with
      | true => exact .done []
      | false =>
          refine (keeps rest).andThen fun first behind => ?_
          refine (keeps_optionalSign .comma behind).andThen fun hasMore others => ?_
          cases hasMore with
          | true => exact (ih (by omega) others).map (first :: ·)
          | false => exact (keeps_sign close others).map fun _ => [first]

theorem argument_named {value : Reader Value} {key colon : Token} {name : String}
    (isKey : key.lexeme = .word name) (isColon : colon.lexeme = .punct .colon)
    (rest : List Token) :
    Reader.argument value (key :: colon :: rest) = (value rest).map (⟨some name, ·⟩) := by
  obtain ⟨lexeme, mark⟩ := key
  obtain ⟨lexeme', mark'⟩ := colon
  subst isKey isColon
  rfl

/-- An argument has a name only if a word comes first and a colon behind it. -/
theorem argument_plain {value : Reader Value} {tokens : List Token}
    (plain : ∀ name, next tokens = some (.word name) → next tokens.tail ≠ some (.punct .colon)) :
    Reader.argument value tokens = (value tokens).map (⟨none, ·⟩) := by
  unfold Reader.argument
  split
  · exact absurd rfl (plain _ rfl)
  · rfl

def TakesNames (first second : Reader α) : Prop :=
  ∀ token name, token.lexeme.name? = some name →
    Keeps (fun rest => first (token :: rest)) (fun rest => second (token :: rest))

theorem keeps_argument {value second : Reader Value} (keeps : Keeps value second)
    (takes : TakesNames value second) :
    Keeps (Reader.argument value) (Reader.argument second) := by
  intro tokens
  by_cases word : ∃ name, next tokens = some (.word name)
  · obtain ⟨name, first⟩ := word
    obtain ⟨key, rest, rfl, isKey⟩ := exists_of_next first
    by_cases colon : next rest = some (.punct .colon)
    · obtain ⟨colon, rest, rfl, isColon⟩ := exists_of_next colon
      rw [argument_named isKey isColon]
      have named := (keeps rest).map fun v : Value => (⟨some name, v⟩ : Argument)
      exact (named.cons fun others => argument_named isKey isColon others).cons fun _ => rfl
    · have noName : Reader.argument value (key :: rest) = _ := argument_plain fun _ _ => colon
      rw [noName]
      have plain := (takes key name (by rw [isKey]; rfl) rest).map
        fun v : Value => (⟨none, v⟩ : Argument)
      refine (plain.congr fun others starts => ?_).cons fun _ => rfl
      exact argument_plain fun _ _ => by simpa [starts] using colon
  · rw [argument_plain fun name first => absurd ⟨name, first⟩ word]
    refine ((keeps tokens).map _).congr fun others starts => argument_plain fun name first => ?_
    exact absurd ⟨name, starts.symm.trans first⟩ word

theorem value_array {token : Token} (opens : token.lexeme = .punct .bracketOpen) (bound : Nat)
    (rest : List Token) :
    Reader.value (bound + 1) (token :: rest) =
      (Reader.commaList .bracketClose (Reader.value bound) bound rest).map
        (⟨.array, "", ·⟩) := by
  simp only [Reader.value, opens]

theorem value_other {token : Token} (other : ¬ StartsValue token.lexeme) (bound : Nat)
    (rest : List Token) :
    Reader.value (bound + 1) (token :: rest) = .refused (.expected .value) (token :: rest) := by
  cases lexeme : token.lexeme with
  | punct p => cases p <;> simp_all [Reader.value, StartsValue, Lexeme.name?]
  | newline => simp only [Reader.value, lexeme, Lexeme.name?]
  | _ => simp_all [StartsValue]

theorem keeps_value {bound more : Nat} (le : bound ≤ more) :
    Keeps (Reader.value bound) (Reader.value more) ∧
      TakesNames (Reader.value bound) (Reader.value more) := by
  induction bound generalizing more with
  | zero => exact ⟨fun _ => .exhausted, fun _ _ _ _ => .exhausted⟩
  | succ bound ih =>
      obtain ⟨more, rfl⟩ := Nat.exists_eq_add_one_of_ne_zero (by omega : more ≠ 0)
      have shorter : bound ≤ more := by omega
      obtain ⟨keeps, takes⟩ := ih shorter
      have takesNames : TakesNames (Reader.value (bound + 1)) (Reader.value (more + 1)) := by
        intro token name named rest
        simp only [value_name named]
        by_cases isBoolean : IsBoolean name
        · simp only [if_pos isBoolean]
          exact .done _
        · simp only [if_neg isBoolean]
          refine (keeps_optionalSign .parenOpen rest).andThen fun isCall behind => ?_
          cases isCall with
          | true => exact (keeps_commaList (keeps_argument keeps takes) shorter behind).map _
          | false => exact .done _
      refine ⟨fun tokens => ?_, takesNames⟩
      cases tokens with
      | nil =>
          refine .here rfl fun other starts => ?_
          obtain rfl := eq_nil_of_next starts
          rfl
      | cons token rest =>
          by_cases starts : StartsValue token.lexeme
          · cases lexeme : token.lexeme with
            | word name => exact .cons (takesNames token _ (by rw [lexeme]; rfl) rest) fun _ => rfl
            | keyword kind =>
                exact .cons (takesNames token _ (by rw [lexeme]; rfl) rest) fun _ => rfl
            | string text =>
                simp only [Reader.value, lexeme]
                exact .cons (.done _) fun others => by simp only [Reader.value, lexeme]
            | number text =>
                simp only [Reader.value, lexeme]
                exact .cons (.done _) fun others => by simp only [Reader.value, lexeme]
            | punct p =>
                obtain rfl : p = .bracketOpen := by
                  cases p <;> simp_all [StartsValue]
                rw [value_array lexeme]
                exact .cons ((keeps_commaList keeps shorter rest).map _) (value_array lexeme more)
            | newline => simp [lexeme, StartsValue] at starts
          · rw [value_other starts]
            refine .here rfl fun other same => ?_
            obtain ⟨token', rest', rfl, agrees⟩ := exists_of_next same
            exact value_other (by rwa [agrees]) _ _

/-! ## Attributes -/

theorem keeps_arguments {bound more : Nat} (le : bound ≤ more) :
    Keeps (Reader.arguments bound) (Reader.arguments more) := by
  intro tokens
  obtain ⟨keeps, takes⟩ := keeps_value le
  refine (keeps_optionalSign .parenOpen tokens).andThen fun isCall rest => ?_
  cases isCall with
  | true => exact keeps_commaList (keeps_argument keeps takes) le rest
  | false => exact .done []

theorem keeps_attributeAfter (isBlock : Bool) (mark : Mark) {bound more : Nat}
    (le : bound ≤ more) :
    Keeps (Reader.attributeAfter isBlock mark bound) (Reader.attributeAfter isBlock mark more) :=
  fun tokens =>
    (keeps_name tokens).andThen fun first rest =>
      (keeps_dottedName first.1 rest).andThen fun _ behind => (keeps_arguments le behind).map _

theorem keeps_attributes {bound more : Nat} (le : bound ≤ more) :
    Keeps (Reader.attributes bound) (Reader.attributes more) := by
  induction bound generalizing more with
  | zero => exact fun _ => .exhausted
  | succ bound ih =>
      obtain ⟨more, rfl⟩ := Nat.exists_eq_add_one_of_ne_zero (by omega : more ≠ 0)
      have shorter : bound ≤ more := by omega
      intro tokens
      cases tokens with
      | nil =>
          refine .here rfl fun other starts => ?_
          obtain rfl := eq_nil_of_next starts
          rfl
      | cons token rest =>
          by_cases isSign : token.lexeme = .punct .atSign
          · rw [Reader.attributes, if_pos isSign]
            refine .cons ((keeps_attributeAfter false token.mark shorter rest).andThen
              fun attr behind => (ih shorter behind).map (attr :: ·)) fun others => ?_
            rw [Reader.attributes, if_pos isSign]
          · rw [Reader.attributes, if_neg isSign]
            refine .here rfl fun other starts => ?_
            obtain ⟨token', rest', rfl, same⟩ := exists_of_next starts
            rw [Reader.attributes, if_neg (by rwa [same])]
            rfl

/-! ## Members -/

theorem keeps_listSuffix : Keeps Reader.listSuffix Reader.listSuffix := by
  intro tokens
  refine (keeps_optionalSign .bracketOpen tokens).andThen fun isList rest => ?_
  cases isList with
  | true => exact (keeps_sign .bracketClose rest).map fun _ => true
  | false => exact .done false

theorem keeps_assignment {bound more : Nat} (le : bound ≤ more) :
    Keeps (Reader.assignment bound) (Reader.assignment more) :=
  fun tokens =>
    (keeps_name tokens).andThen fun _ rest =>
      (keeps_sign .equals rest).andThen fun _ behind => ((keeps_value le).1 behind).map _

theorem keeps_field {bound more : Nat} (le : bound ≤ more) :
    Keeps (Reader.field bound) (Reader.field more) :=
  fun tokens =>
    (keeps_name tokens).andThen fun _ rest =>
      (keeps_name rest).andThen fun _ rest =>
        (keeps_listSuffix rest).andThen fun _ rest =>
          (keeps_optionalSign .question rest).andThen fun _ rest => (keeps_attributes le rest).map _

theorem keeps_enumValue {bound more : Nat} (le : bound ≤ more) :
    Keeps (Reader.enumValue bound) (Reader.enumValue more) :=
  fun tokens =>
    (keeps_name tokens).andThen fun _ rest => (keeps_attributes le rest).map _

theorem declaration_sign {sign : Token} (isSign : sign.lexeme = .punct .doubleAt) (isEnum : Bool)
    (bound : Nat) (rest : List Token) :
    Reader.declaration isEnum bound (sign :: rest) =
      (Reader.attributeAfter true sign.mark bound rest).map .blockAttribute := by
  obtain ⟨lexeme, mark⟩ := sign
  subst isSign
  rfl

theorem declaration_plain {tokens : List Token} (other : next tokens ≠ some (.punct .doubleAt))
    (isEnum : Bool) (bound : Nat) :
    Reader.declaration isEnum bound tokens =
      if isEnum then (Reader.enumValue bound tokens).map .value
      else (Reader.field bound tokens).map .field := by
  unfold Reader.declaration
  split
  · exact absurd rfl other
  · rfl

theorem keeps_member (kind : BlockKind) {bound more : Nat} (le : bound ≤ more) :
    Keeps (Reader.member kind bound) (Reader.member kind more) := by
  intro tokens
  unfold Reader.member
  by_cases holds : kind.holdsAssignments = true
  · simp only [if_pos holds]
    exact (keeps_assignment le tokens).map _
  simp only [if_neg holds]
  by_cases first : next tokens = some (.punct .doubleAt)
  · obtain ⟨sign, rest, rfl, isSign⟩ := exists_of_next first
    rw [declaration_sign isSign]
    exact .cons ((keeps_attributeAfter true sign.mark le rest).map _)
      (declaration_sign isSign _ more)
  · rw [declaration_plain first]
    have plain : ∀ others, next others = next tokens →
        Reader.declaration (kind == .enum) more others = _ :=
      fun others starts => declaration_plain (by rwa [starts]) _ _
    refine EndsAlike.congr ?_ plain
    cases kind == .enum with
    | true => exact (keeps_enumValue le tokens).map _
    | false => exact (keeps_field le tokens).map _

/-! ## Blocks -/

theorem keeps_members (kind : BlockKind) (name : String) (opened : Mark) {bound more : Nat}
    (le : bound ≤ more) :
    Keeps (Reader.members kind name opened bound) (Reader.members kind name opened more) := by
  induction bound generalizing more with
  | zero => exact fun _ => .exhausted
  | succ bound ih =>
      obtain ⟨more, rfl⟩ := Nat.exists_eq_add_one_of_ne_zero (by omega : more ≠ 0)
      have shorter : bound ≤ more := by omega
      intro tokens
      cases tokens with
      | nil =>
          refine .here rfl fun other starts => ?_
          obtain rfl := eq_nil_of_next starts
          rfl
      | cons token rest =>
          by_cases closes : token.lexeme = .punct .braceClose
          · rw [Reader.members, if_pos closes]
            exact .cons (.done _) fun others => by rw [Reader.members, if_pos closes]
          · rw [Reader.members, if_neg closes]
            refine ((keeps_member kind shorter (token :: rest)).andThen fun m behind =>
              (keeps_statementEnd behind).andThen fun _ others =>
                (ih shorter others).map fun read => (m :: read.1, read.2)).congr
              fun others starts => ?_
            obtain ⟨token', rest', rfl, same⟩ := exists_of_next starts
            rw [Reader.members, if_neg (by rwa [same])]

theorem block_keyword {keyword : Token} {kind : BlockKind}
    (isKeyword : keyword.lexeme = .keyword kind) (bound : Nat) (rest : List Token) :
    Reader.block bound (keyword :: rest) =
      (Reader.name rest).andThen fun (name, _) rest =>
        (Reader.sign .braceOpen rest).andThen fun _ rest =>
          (Reader.lineEnds rest).andThen fun _ rest =>
            (Reader.members kind name keyword.mark bound rest).map fun (members, closed) =>
              Block.ofMembers kind name keyword.mark closed members := by
  obtain ⟨lexeme, mark⟩ := keyword
  subst isKeyword
  rfl

theorem block_other {tokens : List Token} (other : ∀ kind, next tokens ≠ some (.keyword kind))
    (bound : Nat) : Reader.block bound tokens = .refused (.expected .blockKeyword) tokens := by
  unfold Reader.block
  split
  · exact absurd rfl (other _)
  · rfl

theorem keeps_block {bound more : Nat} (le : bound ≤ more) :
    Keeps (Reader.block bound) (Reader.block more) := by
  intro tokens
  by_cases isKeyword : ∃ kind, next tokens = some (.keyword kind)
  · obtain ⟨kind, first⟩ := isKeyword
    obtain ⟨keyword, rest, rfl, isKeyword⟩ := exists_of_next first
    rw [block_keyword isKeyword]
    refine .cons ((keeps_name rest).andThen fun name rest =>
      (keeps_sign .braceOpen rest).andThen fun _ rest =>
        (keeps_lineEnds rest).andThen fun _ rest => ?_) (block_keyword isKeyword more)
    exact (keeps_members kind name.1 keyword.mark le rest).map _
  · rw [block_other fun kind first => isKeyword ⟨kind, first⟩]
    exact .here rfl fun other starts =>
      block_other (fun kind first => isKeyword ⟨kind, starts.symm.trans first⟩) more

theorem keeps_blocks {bound more : Nat} (le : bound ≤ more) :
    Keeps (Reader.blocks bound) (Reader.blocks more) := by
  induction bound generalizing more with
  | zero => exact fun _ => .exhausted
  | succ bound ih =>
      obtain ⟨more, rfl⟩ := Nat.exists_eq_add_one_of_ne_zero (by omega : more ≠ 0)
      have shorter : bound ≤ more := by omega
      intro tokens
      refine (keeps_lineEnds tokens).andThen fun _ rest => ?_
      cases rest with
      | nil =>
          refine .here rfl fun other starts => ?_
          obtain rfl := eq_nil_of_next starts
          rfl
      | cons token rest =>
          refine ((keeps_block shorter (token :: rest)).andThen fun b behind =>
            (ih shorter behind).map (b :: ·)).congr fun others starts => ?_
          obtain ⟨token', rest', rfl, -⟩ := exists_of_next starts
          rfl

end Grammar

end SchemaAssist
