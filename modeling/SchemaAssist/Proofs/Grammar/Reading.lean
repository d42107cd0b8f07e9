/-
# SchemaAssist.Proofs.Grammar.Reading — reading values and attributes by the grammar

A reader is *sound* for a relation if every stretch that it takes is one of the
relation, and *complete* up to a length if it takes every such stretch, whatever
comes behind, as long as what comes next cannot prolong it.  Both are proved here
for the readers inside a statement, from the leaves up.

A complete reader also shows that its bound suffices: a reader with a bound takes
every stretch that is no longer than the bound.
-/
import SchemaAssist.Proofs.Grammar
import Mathlib.Tactic.Common

namespace SchemaAssist.Grammar

set_option autoImplicit false

variable {α β : Type}

/-! ## Readings in sequence -/

theorem andThen_eq_done {reading : Reading α} {f : α → Reader β} {b : β} {rest : List Token} :
    reading.andThen f = .done b rest ↔
      ∃ a between, reading = .done a between ∧ f a between = .done b rest := by
  cases reading <;> simp [Reading.andThen]

theorem map_eq_done {reading : Reading α} {f : α → β} {b : β} {rest : List Token} :
    reading.map f = .done b rest ↔ ∃ a, reading = .done a rest ∧ f a = b := by
  cases reading <;> simp [Reading.map, Reading.andThen, and_comm]

@[simp] theorem done_andThen (a : α) (rest : List Token) (f : α → Reader β) :
    (Reading.done a rest).andThen f = f a rest := rfl

@[simp] theorem done_map (a : α) (rest : List Token) (f : α → β) :
    (Reading.done a rest).map f = .done (f a) rest := rfl

def next (tokens : List Token) : Option Lexeme := tokens.head?.map (·.lexeme)

@[simp] theorem next_nil : next [] = none := rfl

@[simp] theorem next_cons (token : Token) (rest : List Token) :
    next (token :: rest) = some token.lexeme := rfl

theorem next_append {first : List Token} (second : List Token) (nonempty : next first ≠ none) :
    next (first ++ second) = next first := by
  cases first with
  | nil => exact absurd rfl nonempty
  | cons => rfl

/-- Every stretch that the reader takes is one of the relation. -/
def Sound (reader : Reader α) (relation : List Token → α → Prop) : Prop :=
  ∀ tokens a rest, reader tokens = .done a rest →
    ∃ read, tokens = read ++ rest ∧ relation read a

/-- The reader takes every stretch of the relation up to that length, if what comes
next satisfies `follows`. -/
def Complete (reader : Reader α) (relation : List Token → α → Prop)
    (follows : Option Lexeme → Prop) (length : Nat) : Prop :=
  ∀ read a rest, relation read a → follows (next rest) → read.length ≤ length →
    reader (read ++ rest) = .done a rest

/-! ## Leaves -/

theorem sign_eq_done {wanted : Punct} {tokens rest : List Token} {mark : Mark} :
    Reader.sign wanted tokens = .done mark rest ↔
      ∃ token, tokens = token :: rest ∧ token.lexeme = .punct wanted ∧ token.mark = mark := by
  cases tokens with
  | nil => simp [Reader.sign]
  | cons token others =>
      simp only [Reader.sign]
      split <;> simp_all [and_comm, and_left_comm]

theorem name_eq_done {tokens rest : List Token} {name : String} {mark : Mark} :
    Reader.name tokens = .done (name, mark) rest ↔
      ∃ token, tokens = token :: rest ∧ token.lexeme.name? = some name ∧ token.mark = mark := by
  cases tokens with
  | nil => simp [Reader.name]
  | cons token others =>
      simp only [Reader.name]
      split <;> simp_all [and_comm, and_left_comm, and_assoc]

theorem optionalSign_eq_done {wanted : Punct} {tokens rest : List Token} {found : Bool} :
    Reader.optionalSign wanted tokens = .done found rest ↔
      (found = true ∧ ∃ token, tokens = token :: rest ∧ token.lexeme = .punct wanted) ∨
      (found = false ∧ rest = tokens ∧ next tokens ≠ some (.punct wanted)) := by
  cases tokens with
  | nil => cases found <;> simp [Reader.optionalSign, eq_comm]
  | cons token others =>
      simp only [Reader.optionalSign]
      split <;> cases found <;> simp_all [eq_comm]

theorem optionalSign_present {wanted : Punct} {token : Token} (rest : List Token)
    (lexeme : token.lexeme = .punct wanted) :
    Reader.optionalSign wanted (token :: rest) = .done true rest := by
  simp [Reader.optionalSign, lexeme]

theorem optionalSign_absent {wanted : Punct} {tokens : List Token}
    (other : next tokens ≠ some (.punct wanted)) :
    Reader.optionalSign wanted tokens = .done false tokens :=
  optionalSign_eq_done.2 (.inr ⟨rfl, rfl, other⟩)

theorem sign_present {wanted : Punct} {token : Token} (rest : List Token)
    (lexeme : token.lexeme = .punct wanted) :
    Reader.sign wanted (token :: rest) = .done token.mark rest := by
  simp [Reader.sign, lexeme]

theorem name_present {token : Token} {name : String} (rest : List Token)
    (named : token.lexeme.name? = some name) :
    Reader.name (token :: rest) = .done (name, token.mark) rest := by
  simp [Reader.name, named]

theorem lineEnds_sound {tokens rest : List Token} (read : Reader.lineEnds tokens = .done () rest) :
    ∃ ends, tokens = ends ++ rest ∧ IsLineEnds ends := by
  induction tokens with
  | nil => exact ⟨[], by simp_all [Reader.lineEnds], by simp [IsLineEnds]⟩
  | cons token others ih =>
      simp only [Reader.lineEnds] at read
      split at read
      · rename_i isEnd
        obtain ⟨ends, rfl, all⟩ := ih read
        exact ⟨token :: ends, rfl, by simpa [IsLineEnds, isEnd] using all⟩
      · cases read
        exact ⟨[], rfl, by simp [IsLineEnds]⟩

theorem lineEnds_append {ends rest : List Token} (all : IsLineEnds ends)
    (other : next rest ≠ some .newline) : Reader.lineEnds (ends ++ rest) = .done () rest := by
  induction ends with
  | nil =>
      cases rest with
      | nil => rfl
      | cons token rest => simp_all [Reader.lineEnds]
  | cons token others ih =>
      have isEnd : token.lexeme = .newline := all token (by simp)
      simp only [List.cons_append, Reader.lineEnds, isEnd, if_true]
      exact ih fun t member => all t (by simp [member])

theorem statementEnd_sound {tokens rest : List Token}
    (read : Reader.statementEnd tokens = .done () rest) :
    ∃ ends, tokens = ends ++ rest ∧ IsLineEnds ends ∧
      (ends = [] → next rest = some (.punct .braceClose)) := by
  cases tokens with
  | nil => simp [Reader.statementEnd] at read
  | cons token others =>
      simp only [Reader.statementEnd] at read
      split at read
      · rename_i isEnd
        obtain ⟨ends, rfl, all⟩ := lineEnds_sound read
        exact ⟨token :: ends, rfl, by simpa [IsLineEnds, isEnd] using all, by simp⟩
      · split at read
        · rename_i closes
          cases read
          exact ⟨[], rfl, by simp [IsLineEnds], fun _ => by simp [closes]⟩
        · cases read

theorem statementEnd_append {ends rest : List Token} (all : IsLineEnds ends)
    (nonempty : ends ≠ []) (other : next rest ≠ some .newline) :
    Reader.statementEnd (ends ++ rest) = .done () rest := by
  cases ends with
  | nil => exact absurd rfl nonempty
  | cons token others =>
      have isEnd : token.lexeme = .newline := all token (by simp)
      simp only [List.cons_append, Reader.statementEnd, isEnd, if_true]
      exact lineEnds_append (fun t member => all t (by simp [member])) other

theorem statementEnd_brace {token : Token} (rest : List Token)
    (closes : token.lexeme = .punct .braceClose) :
    Reader.statementEnd (token :: rest) = .done () (token :: rest) := by
  simp [Reader.statementEnd, closes]

/-! ## Lists -/

theorem commaList_sound {close : Punct} {item : Reader α} {relation : List Token → α → Prop}
    (sound : Sound item relation) (bound : Nat) :
    Sound (Reader.commaList close item bound) fun read items =>
      ∃ inner closing, read = inner ++ [closing] ∧ closing.lexeme = .punct close ∧
        Separated relation inner items := by
  induction bound with
  | zero => intro tokens items rest read; simp [Reader.commaList] at read
  | succ bound ih =>
      intro tokens items rest read
      simp only [Reader.commaList, andThen_eq_done, optionalSign_eq_done] at read
      obtain ⟨isClosed, behind, ⟨rfl, closing, rfl, closes⟩ | ⟨rfl, rfl, -⟩, read⟩ := read
      · simp only [if_true, Reading.done.injEq] at read
        obtain ⟨rfl, rfl⟩ := read
        exact ⟨[closing], rfl, [], closing, rfl, closes, .empty⟩
      · simp only [Bool.false_eq_true, if_false, andThen_eq_done, optionalSign_eq_done] at read
        obtain ⟨first, afterFirst, taken, hasMore, behindComma, comma, read⟩ := read
        obtain ⟨stretch, rfl, one⟩ := sound _ _ _ taken
        obtain ⟨rfl, commaToken, rfl, isComma⟩ | ⟨rfl, rfl, -⟩ := comma
        · simp only [if_true, map_eq_done] at read
          obtain ⟨others, taken, rfl⟩ := read
          obtain ⟨-, rfl, inner, closing, rfl, closes, separated⟩ := ih _ _ _ taken
          exact ⟨stretch ++ commaToken :: inner ++ [closing], by simp,
            stretch ++ commaToken :: inner, closing, rfl, closes, .more one isComma separated⟩
        · simp only [Bool.false_eq_true, if_false, map_eq_done, sign_eq_done] at read
          obtain ⟨-, ⟨closing, rfl, closes, -⟩, rfl⟩ := read
          exact ⟨stretch ++ [closing], by simp, stretch, closing, rfl, closes, .last one⟩

theorem commaList_complete {close : Punct} {item : Reader α} {relation : List Token → α → Prop}
    {follows : Option Lexeme → Prop} {length : Nat}
    (complete : Complete item relation follows length)
    (starts : ∀ read a, relation read a → next read ≠ none ∧ next read ≠ some (.punct close))
    (noComma : close ≠ .comma) (afterComma : follows (some (.punct .comma)))
    (afterClose : follows (some (.punct close)))
    {inner : List Token} {items : List α} (separated : Separated relation inner items)
    {closing : Token} (closes : closing.lexeme = .punct close) (rest : List Token) (bound : Nat)
    (fits : inner.length ≤ length) (enough : inner.length < bound) :
    Reader.commaList close item bound (inner ++ closing :: rest) = .done items rest := by
  induction separated generalizing bound with
  | empty =>
      obtain ⟨bound, rfl⟩ := Nat.exists_eq_add_one_of_ne_zero (by omega : bound ≠ 0)
      simp [Reader.commaList, optionalSign_present _ closes]
  | @last tokens a one =>
      obtain ⟨bound, rfl⟩ := Nat.exists_eq_add_one_of_ne_zero (by omega : bound ≠ 0)
      obtain ⟨nonempty, other⟩ := starts _ _ one
      have opened : next (tokens ++ closing :: rest) ≠ some (.punct close) := by
        rwa [next_append _ nonempty]
      have taken := complete _ _ (closing :: rest) one (by simpa [closes] using afterClose) fits
      have behind : next (closing :: rest) ≠ some (.punct .comma) := by simp [closes, noComma]
      simp [Reader.commaList, optionalSign_absent opened, taken, optionalSign_absent behind,
        sign_present _ closes]
  | @more tokens others comma a items one isComma _ ih =>
      obtain ⟨bound, rfl⟩ := Nat.exists_eq_add_one_of_ne_zero (by omega : bound ≠ 0)
      obtain ⟨nonempty, other⟩ := starts _ _ one
      simp only [List.length_append, List.length_cons] at fits enough
      have opened :
          next (tokens ++ comma :: (others ++ closing :: rest)) ≠ some (.punct close) := by
        rwa [next_append _ nonempty]
      have taken := complete _ _ (comma :: (others ++ closing :: rest)) one
        (by simpa [isComma] using afterComma) (by omega)
      have recurse := ih bound (by omega) (by omega)
      simp [Reader.commaList, optionalSign_absent opened, taken, optionalSign_present _ isComma,
        recurse]

/-! ## Values -/

def StartsValue : Lexeme → Prop
  | .word _ | .keyword _ | .string _ | .number _ | .punct .bracketOpen => True
  | _ => False

theorem startsValue_of_name {lexeme : Lexeme} {name : String} (named : lexeme.name? = some name) :
    StartsValue lexeme := by
  cases lexeme <;> simp_all [StartsValue, Lexeme.name?]

theorem IsValue.starts {tokens : List Token} {v : Value} (value : IsValue tokens v) :
    ∃ token rest, tokens = token :: rest ∧ StartsValue token.lexeme := by
  cases value with
  | string lexeme => exact ⟨_, _, rfl, by simp [lexeme, StartsValue]⟩
  | number lexeme => exact ⟨_, _, rfl, by simp [lexeme, StartsValue]⟩
  | array opens _ _ => exact ⟨_, _, rfl, by simp [opens, StartsValue]⟩
  | boolean named _ => exact ⟨_, _, rfl, startsValue_of_name named⟩
  | identifier named _ => exact ⟨_, _, rfl, startsValue_of_name named⟩
  | call named _ _ _ _ => exact ⟨_, _, rfl, startsValue_of_name named⟩

theorem IsArgument.starts {tokens : List Token} {a : Argument}
    (argument : IsArgument IsValue tokens a) :
    ∃ token rest, tokens = token :: rest ∧ StartsValue token.lexeme := by
  cases argument with
  | plain value => exact value.starts
  | named key _ _ => exact ⟨_, _, rfl, by simp [key, StartsValue]⟩

/-- A value never starts as a named argument does. -/
theorem IsValue.no_colon {first second : Token} {rest : List Token} {v : Value}
    (value : IsValue (first :: second :: rest) v) {name : String}
    (word : first.lexeme = .word name) : second.lexeme ≠ .punct .colon := by
  generalize shape : first :: second :: rest = tokens at value
  cases value with
  | array opens _ _ => simp_all
  | call _ _ opens _ _ =>
      obtain ⟨rfl, rest⟩ := List.cons.inj shape
      obtain ⟨rfl, -⟩ := List.cons.inj rest
      simp [opens]
  | _ => simp at shape

theorem argument_sound {value : Reader Value} {relation : List Token → Value → Prop}
    (sound : Sound value relation) : Sound (Reader.argument value) (IsArgument relation) := by
  intro tokens a rest read
  unfold Reader.argument at read
  split at read
  · obtain ⟨v, taken, rfl⟩ := map_eq_done.1 read
    obtain ⟨stretch, rfl, one⟩ := sound _ _ _ taken
    exact ⟨_ :: _ :: stretch, rfl, .named rfl rfl one⟩
  · obtain ⟨v, taken, rfl⟩ := map_eq_done.1 read
    obtain ⟨stretch, rfl, one⟩ := sound _ _ _ taken
    exact ⟨stretch, rfl, .plain one⟩

/-- What may come behind an item of a list. -/
def EndsItem (lexeme : Option Lexeme) : Prop :=
  lexeme ≠ some (.punct .parenOpen) ∧ lexeme ≠ some (.punct .colon)

theorem argument_complete {length bound : Nat}
    (complete : Complete (Reader.value bound) IsValue (· ≠ some (.punct .parenOpen)) length) :
    Complete (Reader.argument (Reader.value bound)) (IsArgument IsValue) EndsItem length := by
  intro read a rest argument follows fits
  cases argument with
  | @plain _ v value =>
      have taken := complete _ _ _ value follows.1 fits
      have plain : Reader.argument (Reader.value bound) (read ++ rest) =
          (Reader.value bound (read ++ rest)).map (⟨none, ·⟩) := by
        unfold Reader.argument
        split
        · rename_i name _ _ others shape
          cases read with
          | nil => obtain ⟨_, _, impossible, -⟩ := value.starts; simp at impossible
          | cons first more =>
              cases more with
              | nil =>
                  obtain ⟨rfl, behind⟩ := List.cons.inj shape
                  exact absurd (by simp_all) follows.2
              | cons second more =>
                  obtain ⟨rfl, behind⟩ := List.cons.inj shape
                  obtain ⟨rfl, -⟩ := List.cons.inj behind
                  exact absurd rfl (value.no_colon rfl)
        · rfl
      simp [plain, taken]
  | @named key colon tokens name v isKey isColon value =>
      simp only [List.length_cons] at fits
      have taken := complete _ _ _ value follows.1 (by omega)
      obtain ⟨lexeme, mark⟩ := key
      obtain ⟨lexeme', mark'⟩ := colon
      subst isKey isColon
      simp [Reader.argument, taken]

theorem value_name {token : Token} {name : String} (named : token.lexeme.name? = some name)
    (bound : Nat) (rest : List Token) :
    Reader.value (bound + 1) (token :: rest) =
      if IsBoolean name then .done ⟨.boolean, name, []⟩ rest
      else
        (Reader.optionalSign .parenOpen rest).andThen fun isCall rest =>
          if isCall then
            (Reader.commaList .parenClose (Reader.argument (Reader.value bound)) bound rest).map
              fun arguments => ⟨.function, name, arguments.map (·.value)⟩
          else .done ⟨.identifier, name, []⟩ rest := by
  cases lexeme : token.lexeme <;> simp_all [Lexeme.name?, Reader.value] <;> rfl

theorem value_sound (bound : Nat) : Sound (Reader.value bound) IsValue := by
  induction bound with
  | zero => intro tokens v rest read; simp [Reader.value] at read
  | succ bound ih =>
      intro tokens v rest read
      cases tokens with
      | nil => simp [Reader.value] at read
      | cons token others =>
          cases named : token.lexeme.name? with
          | some name =>
              rw [value_name named] at read
              split at read
              · rename_i isBoolean
                cases read
                exact ⟨[token], rfl, .boolean named isBoolean⟩
              · rename_i other
                simp only [andThen_eq_done, optionalSign_eq_done] at read
                obtain ⟨isCall, behind, ⟨rfl, opening, rfl, opens⟩ | ⟨rfl, rfl, -⟩, read⟩ := read
                · obtain ⟨arguments, taken, rfl⟩ := map_eq_done.1 read
                  obtain ⟨-, rfl, inner, closing, rfl, closes, separated⟩ :=
                    commaList_sound (argument_sound ih) bound _ _ _ taken
                  exact ⟨token :: opening :: inner ++ [closing], by simp,
                    .call named other opens separated closes⟩
                · cases read
                  exact ⟨[token], rfl, .identifier named other⟩
          | none =>
              simp only [Reader.value] at read
              split at read
              · rename_i text lexeme
                cases read
                exact ⟨[token], rfl, .string lexeme⟩
              · rename_i text lexeme
                cases read
                exact ⟨[token], rfl, .number lexeme⟩
              · rename_i opens
                obtain ⟨items, taken, rfl⟩ := map_eq_done.1 read
                obtain ⟨-, rfl, inner, closing, rfl, closes, separated⟩ :=
                  commaList_sound ih bound _ _ _ taken
                exact ⟨token :: inner ++ [closing], by simp, .array opens separated closes⟩
              · rw [named] at read
                cases read

theorem next_of_starts {tokens : List Token} {close : Punct} (isClose : close ≠ .bracketOpen)
    (starts : ∃ token rest, tokens = token :: rest ∧ StartsValue token.lexeme) :
    next tokens ≠ none ∧ next tokens ≠ some (.punct close) := by
  obtain ⟨token, rest, rfl, starts⟩ := starts
  refine ⟨by simp, fun same => ?_⟩
  rw [next_cons, Option.some.injEq] at same
  rw [same] at starts
  cases close <;> simp_all [StartsValue]

theorem value_complete (bound : Nat) :
    Complete (Reader.value bound) IsValue (· ≠ some (.punct .parenOpen)) bound := by
  induction bound with
  | zero =>
      intro read v rest value _ fits
      obtain ⟨_, _, rfl, -⟩ := value.starts
      simp at fits
  | succ bound ih =>
      intro read v rest value follows fits
      cases value with
      | string lexeme => simp [Reader.value, lexeme]
      | number lexeme => simp [Reader.value, lexeme]
      | array opens separated closes =>
          simp only [List.length_append, List.length_cons, List.length_nil] at fits
          have taken := commaList_complete ih
            (fun _ _ item => next_of_starts (by simp) item.starts) (by simp) (by simp) (by simp)
            separated closes rest bound (by omega) (by omega)
          simp [Reader.value, opens, taken]
      | boolean named isBoolean => simp [value_name named, if_pos isBoolean]
      | identifier named other =>
          simp [value_name named, if_neg other, optionalSign_absent follows]
      | call named other opens separated closes =>
          simp only [List.length_append, List.length_cons, List.length_nil] at fits
          have taken := commaList_complete (argument_complete ih)
            (fun _ _ item => next_of_starts (by simp) item.starts) (by simp) (by simp [EndsItem])
            (by simp [EndsItem]) separated closes rest bound (by omega) (by omega)
          simp [value_name named, if_neg other, optionalSign_present _ opens, taken]

/-! ## Attributes -/

theorem dottedName_sound (start : String) :
    Sound (Reader.dottedName start) fun read full =>
      ∃ others, IsDotParts read others ∧ full = start ++ others := by
  intro tokens
  fun_induction Reader.dottedName start tokens with
  | case1 start =>
      intro full rest read
      cases read
      exact ⟨[], rfl, "", .none, by simp⟩
  | case2 => intro full rest read; cases read
  | case3 start dot isDot token rest name named ih =>
      intro full behind read
      obtain ⟨stretch, rfl, others, parts, rfl⟩ := ih _ _ read
      exact ⟨dot :: token :: stretch, rfl, _, .more isDot named parts,
        by simp [String.append_assoc]⟩
  | case4 => intro full rest read; cases read
  | case5 start token rest other =>
      intro full behind read
      cases read
      exact ⟨[], rfl, "", .none, by simp⟩

theorem dottedName_complete {read rest : List Token} {others : String}
    (parts : IsDotParts read others) (other : next rest ≠ some (.punct .dot)) (start : String) :
    Reader.dottedName start (read ++ rest) = .done (start ++ others) rest := by
  induction parts generalizing start with
  | none =>
      cases rest with
      | nil => simp [Reader.dottedName]
      | cons token rest =>
          have notDot : token.lexeme ≠ .punct .dot := by simpa using other
          unfold Reader.dottedName
          simp [notDot]
  | more isDot named _ ih =>
      simp [Reader.dottedName, isDot, named, ih, String.append_assoc]

theorem arguments_sound (bound : Nat) : Sound (Reader.arguments bound) IsArguments := by
  intro tokens list rest read
  simp only [Reader.arguments, andThen_eq_done, optionalSign_eq_done] at read
  obtain ⟨isCall, behind, ⟨rfl, opening, rfl, opens⟩ | ⟨rfl, rfl, -⟩, read⟩ := read
  · obtain ⟨-, rfl, inner, closing, rfl, closes, separated⟩ :=
      commaList_sound (argument_sound (value_sound bound)) bound _ _ _ read
    exact ⟨opening :: inner ++ [closing], by simp, .list opens separated closes⟩
  · cases read
    exact ⟨[], rfl, .absent⟩

theorem arguments_complete (bound : Nat) :
    Complete (Reader.arguments bound) IsArguments (· ≠ some (.punct .parenOpen)) bound := by
  intro read list rest arguments follows fits
  cases arguments with
  | absent => simp [Reader.arguments, optionalSign_absent follows]
  | list opens separated closes =>
      simp only [List.length_append, List.length_cons, List.length_nil] at fits
      have taken := commaList_complete (argument_complete (value_complete bound))
        (fun _ _ item => next_of_starts (by simp) item.starts) (by simp) (by simp [EndsItem])
        (by simp [EndsItem]) separated closes rest bound (by omega) (by omega)
      simp [Reader.arguments, optionalSign_present _ opens, taken]

theorem IsArguments.next {tokens : List Token} {list : List Argument}
    (arguments : IsArguments tokens list) :
    tokens = [] ∨ Grammar.next tokens = some (.punct .parenOpen) := by
  cases arguments with
  | absent => exact .inl rfl
  | list opens _ _ => exact .inr (by simp [opens])

def EndsAttribute (lexeme : Option Lexeme) : Prop :=
  lexeme ≠ some (.punct .dot) ∧ lexeme ≠ some (.punct .parenOpen)

theorem attributeAfter_sound (isBlock : Bool) (mark : Mark) (bound : Nat) :
    Sound (Reader.attributeAfter isBlock mark bound) (IsAttribute isBlock mark) := by
  intro tokens attr rest read
  simp only [Reader.attributeAfter, andThen_eq_done, map_eq_done] at read
  obtain ⟨⟨first, _⟩, behindName, isName, name, behindDots, dotted, list, taken, rfl⟩ := read
  obtain ⟨token, rfl, named, -⟩ := name_eq_done.1 isName
  obtain ⟨dots, rfl, others, parts, rfl⟩ := dottedName_sound _ _ _ _ dotted
  obtain ⟨inner, rfl, arguments⟩ := arguments_sound _ _ _ _ taken
  exact ⟨token :: dots ++ inner, by simp, .intro named parts arguments⟩

theorem attributeAfter_complete (isBlock : Bool) (mark : Mark) (bound : Nat) :
    Complete (Reader.attributeAfter isBlock mark bound) (IsAttribute isBlock mark)
      EndsAttribute bound := by
  intro read attr rest derived follows fits
  obtain ⟨named, parts, arguments⟩ := derived
  rename_i token dots inner first others list
  simp only [List.length_append, List.length_cons] at fits
  have noDot : next (inner ++ rest) ≠ some (.punct .dot) := by
    rcases arguments.next with rfl | opens
    · exact follows.1
    · rw [next_append _ (by simp [opens]), opens]
      simp
  have taken := arguments_complete bound _ _ rest arguments follows.2 (by omega)
  simp [Reader.attributeAfter, name_present _ named, dottedName_complete parts noDot, taken]

def EndsAttributes (lexeme : Option Lexeme) : Prop :=
  EndsAttribute lexeme ∧ lexeme ≠ some (.punct .atSign)

theorem attributes_sound (bound : Nat) : Sound (Reader.attributes bound) IsAttributes := by
  induction bound with
  | zero => intro tokens list rest read; simp [Reader.attributes] at read
  | succ bound ih =>
      intro tokens list rest read
      cases tokens with
      | nil =>
          cases read
          exact ⟨[], rfl, .none⟩
      | cons token others =>
          simp only [Reader.attributes] at read
          split at read
          · rename_i sign
            simp only [andThen_eq_done, map_eq_done] at read
            obtain ⟨first, behind, taken, more, takenMore, rfl⟩ := read
            obtain ⟨stretch, rfl, one⟩ := attributeAfter_sound _ _ _ _ _ _ taken
            obtain ⟨stretch', rfl, list⟩ := ih _ _ _ takenMore
            exact ⟨token :: stretch ++ stretch', by simp, .more sign one list⟩
          · cases read
            exact ⟨[], rfl, .none⟩

theorem attributes_complete (bound : Nat) :
    Complete (Reader.attributes (bound + 1)) IsAttributes EndsAttributes bound := by
  intro read list rest derived follows fits
  induction derived generalizing bound with
  | none =>
      cases rest with
      | nil => rfl
      | cons token rest =>
          have other := follows.2
          simp_all [Reader.attributes]
  | @more sign tokens others attr _ isSign one list ih =>
      simp only [List.length_append, List.length_cons] at fits
      obtain ⟨bound, rfl⟩ := Nat.exists_eq_add_one_of_ne_zero (by omega : bound ≠ 0)
      have ends : EndsAttribute (next (others ++ rest)) := by
        cases list with
        | none => exact follows.1
        | more isSign' _ _ => simp [EndsAttribute, isSign']
      have taken := attributeAfter_complete false sign.mark (bound + 1) _ _ (others ++ rest) one
        ends (by omega)
      have recurse := ih bound (by omega)
      simp [Reader.attributes, isSign, taken, recurse]

end SchemaAssist.Grammar
