/-
# SchemaAssist.Proofs.Grammar — the grammar of schemas, as relations

Each relation says that a stretch of tokens spells one piece of a tree:

    schema      := NL* (block NL*)*
    block       := KEYWORD name '{' NL* body '}'
    body        := (member NL+)* [member]
    member      := assignment        in datasource and generator blocks
                 | '@@' attribute    in models, type aliases and enums
                 | field             in models and type aliases
                 | enum value        in enums
    attribute   := name ('.' name)* ['(' arguments ')']
    arguments   := [argument (',' argument)* [',']]
    argument    := [WORD ':'] value

The relations speak of stretches and not of what follows them, so they know
nothing of look-ahead or of bounds.  `Separated` is the list with commas, for
values and for arguments alike; values nest through it, and `IsValue.induct` is
the induction that a proof about values needs.

A stretch of a statement holds no line end and no brace, and closes every
parenthesis and bracket that it opens (`Inside`).  This is said once for each
relation; what a block looks like from outside follows from it.
-/
import SchemaAssist.Tree.Parser

namespace SchemaAssist.Grammar

set_option autoImplicit false

/-! ## Lists and values -/

/-- Items with commas between them, and perhaps one after the last. -/
inductive Separated {α : Type} (item : List Token → α → Prop) : List Token → List α → Prop
  | empty : Separated item [] []
  | last {tokens : List Token} {a : α} : item tokens a → Separated item tokens [a]
  | more {tokens rest : List Token} {comma : Token} {a : α} {others : List α} :
      item tokens a → comma.lexeme = .punct .comma → Separated item rest others →
      Separated item (tokens ++ comma :: rest) (a :: others)

inductive IsArgument (value : List Token → Value → Prop) : List Token → Argument → Prop
  | plain {tokens : List Token} {v : Value} : value tokens v → IsArgument value tokens ⟨none, v⟩
  | named {key colon : Token} {tokens : List Token} {name : String} {v : Value} :
      key.lexeme = .word name → colon.lexeme = .punct .colon → value tokens v →
      IsArgument value (key :: colon :: tokens) ⟨some name, v⟩

/-- The names that are values of their own. -/
def IsBoolean (name : String) : Prop := name = "true" ∨ name = "false"

instance : DecidablePred IsBoolean := fun _ => inferInstanceAs (Decidable (_ ∨ _))

inductive IsValue : List Token → Value → Prop
  | string {token : Token} {text : String} :
      token.lexeme = .string text → IsValue [token] ⟨.string, text, []⟩
  | number {token : Token} {text : String} :
      token.lexeme = .number text → IsValue [token] ⟨.number, text, []⟩
  | array {opening closing : Token} {inner : List Token} {items : List Value} :
      opening.lexeme = .punct .bracketOpen → Separated IsValue inner items →
      closing.lexeme = .punct .bracketClose →
      IsValue (opening :: inner ++ [closing]) ⟨.array, "", items⟩
  | boolean {token : Token} {name : String} :
      token.lexeme.name? = some name → IsBoolean name → IsValue [token] ⟨.boolean, name, []⟩
  | identifier {token : Token} {name : String} :
      token.lexeme.name? = some name → ¬ IsBoolean name →
      IsValue [token] ⟨.identifier, name, []⟩
  | call {token opening closing : Token} {inner : List Token} {name : String}
      {arguments : List Argument} :
      token.lexeme.name? = some name → ¬ IsBoolean name →
      opening.lexeme = .punct .parenOpen → Separated (IsArgument IsValue) inner arguments →
      closing.lexeme = .punct .parenClose →
      IsValue (token :: opening :: inner ++ [closing])
        ⟨.function, name, arguments.map (·.value)⟩

/-! ## Attributes -/

/-- The parts of a dotted name behind its first, each with its dot. -/
inductive IsDotParts : List Token → String → Prop
  | none : IsDotParts [] ""
  | more {dot token : Token} {rest : List Token} {name others : String} :
      dot.lexeme = .punct .dot → token.lexeme.name? = some name → IsDotParts rest others →
      IsDotParts (dot :: token :: rest) ("." ++ name ++ others)

/-- The arguments of an attribute: nothing, or a list in parentheses. -/
inductive IsArguments : List Token → List Argument → Prop
  | absent : IsArguments [] []
  | list {opening closing : Token} {inner : List Token} {arguments : List Argument} :
      opening.lexeme = .punct .parenOpen → Separated (IsArgument IsValue) inner arguments →
      closing.lexeme = .punct .parenClose → IsArguments (opening :: inner ++ [closing]) arguments

/-- An attribute behind its at-signs, which stood at `mark`. -/
inductive IsAttribute (isBlock : Bool) (mark : Mark) : List Token → Attribute → Prop
  | intro {token : Token} {dotted inner : List Token} {first others : String}
      {arguments : List Argument} :
      token.lexeme.name? = some first → IsDotParts dotted others → IsArguments inner arguments →
      IsAttribute isBlock mark (token :: dotted ++ inner)
        ⟨first ++ others, isBlock, arguments, mark.row⟩

inductive IsAttributes : List Token → List Attribute → Prop
  | none : IsAttributes [] []
  | more {sign : Token} {tokens rest : List Token} {attr : Attribute} {others : List Attribute} :
      sign.lexeme = .punct .atSign → IsAttribute false sign.mark tokens attr →
      IsAttributes rest others → IsAttributes (sign :: tokens ++ rest) (attr :: others)

/-! ## Members -/

inductive IsListSuffix : List Token → Bool → Prop
  | absent : IsListSuffix [] false
  | brackets {opening closing : Token} :
      opening.lexeme = .punct .bracketOpen → closing.lexeme = .punct .bracketClose →
      IsListSuffix [opening, closing] true

inductive IsOptionalSuffix : List Token → Bool → Prop
  | absent : IsOptionalSuffix [] false
  | question {token : Token} :
      token.lexeme = .punct .question → IsOptionalSuffix [token] true

inductive IsMember (kind : BlockKind) : List Token → Member → Prop
  | assignment {token equals : Token} {tokens : List Token} {key : String} {v : Value} :
      kind.holdsAssignments = true → token.lexeme.name? = some key →
      equals.lexeme = .punct .equals → IsValue tokens v →
      IsMember kind (token :: equals :: tokens) (.assignment ⟨key, v, token.mark.row⟩)
  | field {token type : Token} {list optional tokens : List Token} {name typeName : String}
      {isList isOptional : Bool} {attributes : List Attribute} :
      kind.holdsFields = true → token.lexeme.name? = some name →
      type.lexeme.name? = some typeName → IsListSuffix list isList →
      IsOptionalSuffix optional isOptional → IsAttributes tokens attributes →
      IsMember kind (token :: type :: list ++ optional ++ tokens)
        (.field ⟨name, ⟨typeName, isList, isOptional⟩, attributes, token.mark.row⟩)
  | value {token : Token} {tokens : List Token} {name : String} {attributes : List Attribute} :
      kind = .enum → token.lexeme.name? = some name → IsAttributes tokens attributes →
      IsMember kind (token :: tokens) (.value ⟨name, attributes, token.mark.row⟩)
  | blockAttribute {sign : Token} {tokens : List Token} {attr : Attribute} :
      kind.holdsAssignments = false → sign.lexeme = .punct .doubleAt →
      IsAttribute true sign.mark tokens attr →
      IsMember kind (sign :: tokens) (.blockAttribute attr)

/-! ## Blocks and schemas -/

def IsLineEnds (tokens : List Token) : Prop := ∀ token ∈ tokens, token.lexeme = .newline

/-- Members with line ends behind them; the last may go without. -/
inductive IsBody (kind : BlockKind) : List Token → List Member → Prop
  | empty : IsBody kind [] []
  | last {tokens : List Token} {m : Member} : IsMember kind tokens m → IsBody kind tokens [m]
  | more {tokens ends rest : List Token} {m : Member} {others : List Member} :
      IsMember kind tokens m → IsLineEnds ends → ends ≠ [] → IsBody kind rest others →
      IsBody kind (tokens ++ ends ++ rest) (m :: others)

inductive IsBlock : List Token → Block → Prop
  | intro {keyword token opening closing : Token} {ends body : List Token} {kind : BlockKind}
      {name : String} {members : List Member} :
      keyword.lexeme = .keyword kind → token.lexeme.name? = some name →
      opening.lexeme = .punct .braceOpen → IsLineEnds ends → IsBody kind body members →
      closing.lexeme = .punct .braceClose →
      IsBlock (keyword :: token :: opening :: ends ++ body ++ [closing])
        (Block.ofMembers kind name keyword.mark closing.mark members)

/-- Blocks with any number of line ends behind each. -/
inductive IsBlocks : List Token → List Block → Prop
  | none : IsBlocks [] []
  | more {tokens ends rest : List Token} {b : Block} {others : List Block} :
      IsBlock tokens b → IsLineEnds ends → IsBlocks rest others →
      IsBlocks (tokens ++ ends ++ rest) (b :: others)

inductive IsSchema : List Token → Schema → Prop
  | intro {ends rest : List Token} {blocks : List Block} :
      IsLineEnds ends → IsBlocks rest blocks → IsSchema (ends ++ rest) ⟨blocks⟩

/-! ## Induction on values -/

/-- Induction on a value: what holds of the values inside an array or a call may be
used, each still with its own derivation. -/
theorem IsValue.induct {motive : List Token → Value → Prop}
    (string : ∀ {token text}, token.lexeme = .string text → motive [token] ⟨.string, text, []⟩)
    (number : ∀ {token text}, token.lexeme = .number text → motive [token] ⟨.number, text, []⟩)
    (array : ∀ {opening closing inner items}, opening.lexeme = .punct .bracketOpen →
      Separated (fun tokens v => IsValue tokens v ∧ motive tokens v) inner items →
      closing.lexeme = .punct .bracketClose →
      motive (opening :: inner ++ [closing]) ⟨.array, "", items⟩)
    (boolean : ∀ {token name}, token.lexeme.name? = some name → IsBoolean name →
      motive [token] ⟨.boolean, name, []⟩)
    (identifier : ∀ {token name}, token.lexeme.name? = some name → ¬ IsBoolean name →
      motive [token] ⟨.identifier, name, []⟩)
    (call : ∀ {token opening closing inner name arguments}, token.lexeme.name? = some name →
      ¬ IsBoolean name → opening.lexeme = .punct .parenOpen →
      Separated (IsArgument fun tokens v => IsValue tokens v ∧ motive tokens v) inner arguments →
      closing.lexeme = .punct .parenClose →
      motive (token :: opening :: inner ++ [closing])
        ⟨.function, name, arguments.map (·.value)⟩)
    {tokens : List Token} {v : Value} (value : IsValue tokens v) : motive tokens v := by
  let known (tokens : List Token) (v : Value) : Prop := IsValue tokens v ∧ motive tokens v
  have both : known tokens v := by
    refine @IsValue.rec (fun tokens v _ => known tokens v)
      (fun tokens items _ => Separated known tokens items)
      (fun tokens arguments _ => Separated (IsArgument known) tokens arguments)
      (fun tokens a _ => IsArgument known tokens a)
      ?_ ?_ ?_ ?_ ?_ ?_ ?_ ?_ ?_ ?_ ?_ ?_ ?_ ?_ tokens v value
    · exact fun lexeme => ⟨.string lexeme, string lexeme⟩
    · exact fun lexeme => ⟨.number lexeme, number lexeme⟩
    · exact fun opens items closes ih => ⟨.array opens items closes, array opens ih closes⟩
    · exact fun name boole => ⟨.boolean name boole, boolean name boole⟩
    · exact fun name other => ⟨.identifier name other, identifier name other⟩
    · exact fun name other opens arguments closes ih =>
        ⟨.call name other opens arguments closes, call name other opens ih closes⟩
    · exact .empty
    · exact fun _ ih => .last ih
    · exact fun _ comma _ ih others => .more ih comma others
    · exact .empty
    · exact fun _ ih => .last ih
    · exact fun _ comma _ ih others => .more ih comma others
    · exact fun _ ih => .plain ih
    · exact fun key colon _ ih => .named key colon ih
  exact both.2

/-! ## Stretches inside a statement -/

def depthBehind (depth : Nat) (tokens : List Token) : Nat :=
  tokens.foldl (fun depth token => depthAfter depth (some token.lexeme)) depth

@[simp] theorem depthBehind_nil (depth : Nat) : depthBehind depth [] = depth := rfl

@[simp] theorem depthBehind_cons (depth : Nat) (token : Token) (tokens : List Token) :
    depthBehind depth (token :: tokens) =
      depthBehind (depthAfter depth (some token.lexeme)) tokens := rfl

@[simp] theorem depthBehind_append (depth : Nat) (first second : List Token) :
    depthBehind depth (first ++ second) = depthBehind (depthBehind depth first) second :=
  List.foldl_append

/-- Whether a lexeme may stand inside a statement. -/
def IsInner (lexeme : Lexeme) : Prop :=
  lexeme ≠ .newline ∧ lexeme ≠ .punct .braceOpen ∧ lexeme ≠ .punct .braceClose

/-- Tokens that may stand inside a statement, with every parenthesis and bracket
closed that is opened. -/
structure Inside (tokens : List Token) : Prop where
  inner : ∀ token ∈ tokens, IsInner token.lexeme
  balanced : ∀ depth, depthBehind depth tokens = depth

namespace Inside

theorem nil : Inside [] := ⟨by simp, fun _ => rfl⟩

theorem append {first second : List Token} (h₁ : Inside first) (h₂ : Inside second) :
    Inside (first ++ second) where
  inner token member := (List.mem_append.1 member).elim (h₁.inner token) (h₂.inner token)
  balanced depth := by rw [depthBehind_append, h₁.balanced, h₂.balanced]

theorem cons {token : Token} {rest : List Token} (inner : IsInner token.lexeme)
    (flat : ∀ depth, depthAfter depth (some token.lexeme) = depth) (h : Inside rest) :
    Inside (token :: rest) where
  inner other member := by
    rcases List.mem_cons.1 member with rfl | member
    · exact inner
    · exact h.inner other member
  balanced depth := by rw [depthBehind_cons, flat, h.balanced]

theorem name {token : Token} {rest : List Token} {name : String}
    (named : token.lexeme.name? = some name) (h : Inside rest) : Inside (token :: rest) := by
  have shape : (∃ text, token.lexeme = .word text) ∨ ∃ kind, token.lexeme = .keyword kind := by
    cases lexeme : token.lexeme <;> simp_all [Lexeme.name?]
  rcases shape with ⟨text, lexeme⟩ | ⟨kind, lexeme⟩
  · exact cons (by simp [lexeme, IsInner]) (by rw [lexeme]; exact fun _ => rfl) h
  · exact cons (by simp [lexeme, IsInner]) (by rw [lexeme]; exact fun _ => rfl) h

/-- A pair of parentheses or of brackets around such a stretch. -/
theorem enclose {opening closing : Token} {inner : List Token} {p q : Punct}
    (opens : opening.lexeme = .punct p) (closes : closing.lexeme = .punct q)
    (pair : (p, q) = (.parenOpen, .parenClose) ∨ (p, q) = (.bracketOpen, .bracketClose))
    (h : Inside inner) : Inside (opening :: inner ++ [closing]) where
  inner token member := by
    simp only [List.cons_append, List.mem_cons, List.mem_append, List.not_mem_nil,
      or_false] at member
    rcases member with rfl | member | rfl
    · rcases pair with pair | pair <;> cases pair <;> simp [opens, IsInner]
    · exact h.inner token member
    · rcases pair with pair | pair <;> cases pair <;> simp [closes, IsInner]
  balanced depth := by
    rw [List.cons_append, depthBehind_cons, depthBehind_append, h.balanced, depthBehind_cons,
      depthBehind_nil, opens, closes]
    rcases pair with pair | pair <;> cases pair <;> rfl

end Inside

theorem Separated.inside {α : Type} {item : List Token → α → Prop}
    (inside : ∀ tokens a, item tokens a → Inside tokens) {tokens : List Token} {items : List α}
    (separated : Separated item tokens items) : Inside tokens := by
  induction separated with
  | empty => exact .nil
  | last one => exact inside _ _ one
  | more one comma _ ih =>
      exact (inside _ _ one).append
        (.cons (by simp [comma, IsInner]) (by rw [comma]; exact fun _ => rfl) ih)

theorem IsArgument.inside {value : List Token → Value → Prop}
    (inside : ∀ tokens v, value tokens v → Inside tokens) {tokens : List Token} {a : Argument}
    (argument : IsArgument value tokens a) : Inside tokens := by
  cases argument with
  | plain one => exact inside _ _ one
  | named key colon one =>
      exact .name (by rw [key]; rfl)
        (.cons (by simp [colon, IsInner]) (by rw [colon]; exact fun _ => rfl) (inside _ _ one))

theorem IsValue.inside {tokens : List Token} {v : Value} (value : IsValue tokens v) :
    Inside tokens := by
  refine value.induct (motive := fun tokens _ => Inside tokens)
    ?string ?number ?array ?boolean ?identifier ?call
  case string =>
    exact fun lexeme => .cons (by simp [lexeme, IsInner]) (by rw [lexeme]; exact fun _ => rfl) .nil
  case number =>
    exact fun lexeme => .cons (by simp [lexeme, IsInner]) (by rw [lexeme]; exact fun _ => rfl) .nil
  case array =>
    exact fun opens items closes =>
      .enclose opens closes (.inr rfl) (items.inside fun _ _ known => known.2)
  case boolean => exact fun named _ => .name named .nil
  case identifier => exact fun named _ => .name named .nil
  case call =>
    intro token opening closing inner name arguments named _ opens separated closes
    have inside := separated.inside fun _ _ a => a.inside fun _ _ known => known.2
    exact .name named (.enclose opens closes (.inl rfl) inside)

theorem IsDotParts.inside {tokens : List Token} {others : String}
    (parts : IsDotParts tokens others) : Inside tokens := by
  induction parts with
  | none => exact .nil
  | more dot named _ ih =>
      exact .cons (by simp [dot, IsInner]) (by rw [dot]; exact fun _ => rfl) (.name named ih)

theorem IsArguments.inside {tokens : List Token} {arguments : List Argument}
    (list : IsArguments tokens arguments) : Inside tokens := by
  cases list with
  | absent => exact .nil
  | list opens inner closes =>
      exact .enclose opens closes (.inl rfl)
        (inner.inside fun _ _ a => a.inside fun _ _ value => value.inside)

theorem IsAttribute.inside {isBlock : Bool} {mark : Mark} {tokens : List Token}
    {attr : Attribute} (derived : IsAttribute isBlock mark tokens attr) : Inside tokens := by
  cases derived with
  | intro named dotted arguments => exact (Inside.name named dotted.inside).append arguments.inside

theorem IsAttributes.inside {tokens : List Token} {attributes : List Attribute}
    (list : IsAttributes tokens attributes) : Inside tokens := by
  induction list with
  | none => exact .nil
  | more sign first _ ih =>
      exact (Inside.cons (by simp [sign, IsInner]) (by rw [sign]; exact fun _ => rfl)
        first.inside).append ih

theorem IsListSuffix.inside {tokens : List Token} {isList : Bool}
    (suffix : IsListSuffix tokens isList) : Inside tokens := by
  cases suffix with
  | absent => exact .nil
  | brackets opens closes => exact .enclose opens closes (.inr rfl) .nil

theorem IsOptionalSuffix.inside {tokens : List Token} {isOptional : Bool}
    (suffix : IsOptionalSuffix tokens isOptional) : Inside tokens := by
  cases suffix with
  | absent => exact .nil
  | question sign => exact .cons (by simp [sign, IsInner]) (by rw [sign]; exact fun _ => rfl) .nil

theorem IsMember.inside {kind : BlockKind} {tokens : List Token} {m : Member}
    (member : IsMember kind tokens m) : Inside tokens := by
  cases member with
  | assignment _ named equals value =>
      exact .name named
        (.cons (by simp [equals, IsInner]) (by rw [equals]; exact fun _ => rfl) value.inside)
  | field _ named typed list optional attributes =>
      exact (Inside.append (.name named (.name typed list.inside)) optional.inside).append
        attributes.inside
  | value _ named attributes => exact .name named attributes.inside
  | blockAttribute _ sign attr =>
      exact .cons (by simp [sign, IsInner]) (by rw [sign]; exact fun _ => rfl) attr.inside

/-! ## Whole schemas leave nothing open -/

theorem IsLineEnds.balanced {tokens : List Token} (allEnds : IsLineEnds tokens) (depth : Nat) :
    depthBehind depth tokens = depth := by
  induction tokens with
  | nil => rfl
  | cons token rest ih =>
      have isEnd : token.lexeme = .newline := allEnds token (by simp)
      rw [depthBehind_cons, isEnd]
      exact ih fun t member => allEnds t (by simp [member])

theorem IsBody.balanced {kind : BlockKind} {body : List Token} {members : List Member}
    (isBody : IsBody kind body members) (depth : Nat) : depthBehind depth body = depth := by
  induction isBody with
  | empty => rfl
  | last member => exact member.inside.balanced depth
  | more member allEnds _ _ ih =>
      rw [depthBehind_append, depthBehind_append, member.inside.balanced, allEnds.balanced, ih]

/-- The header of a block, up to its opening brace. -/
theorem depthBehind_header {keyword token opening : Token} {kind : BlockKind} {name : String}
    (isKeyword : keyword.lexeme = .keyword kind) (named : token.lexeme.name? = some name)
    (opens : opening.lexeme = .punct .braceOpen) (depth : Nat) :
    depthBehind depth [keyword, token, opening] = depth := by
  have passed := (Inside.name named .nil).balanced depth
  rw [depthBehind_cons, depthBehind_nil] at passed
  rw [depthBehind_cons, depthBehind_cons, depthBehind_cons, depthBehind_nil, isKeyword, opens]
  exact passed

theorem IsBlock.balanced {tokens : List Token} {b : Block} (isBlock : IsBlock tokens b)
    (depth : Nat) : depthBehind depth tokens = depth := by
  cases isBlock with
  | @intro keyword token opening closing ends body kind name members isKeyword named opens
      allEnds isBody closes =>
      have front := depthBehind_header isKeyword named opens depth
      have back : depthBehind depth [closing] = depth := by
        rw [depthBehind_cons, depthBehind_nil, closes]; rfl
      show depthBehind depth ([keyword, token, opening] ++ ends ++ body ++ [closing]) = depth
      rw [depthBehind_append, depthBehind_append, depthBehind_append, front, allEnds.balanced,
        isBody.balanced, back]

theorem IsBlocks.balanced {tokens : List Token} {blocks : List Block}
    (isBlocks : IsBlocks tokens blocks) (depth : Nat) : depthBehind depth tokens = depth := by
  induction isBlocks with
  | none => rfl
  | more isBlock allEnds _ ih =>
      rw [depthBehind_append, depthBehind_append, isBlock.balanced, allEnds.balanced, ih]

/-- A schema closes every parenthesis and bracket that it opens. -/
theorem IsSchema.balanced {tokens : List Token} {schema : Schema}
    (derived : IsSchema tokens schema) (depth : Nat) : depthBehind depth tokens = depth := by
  cases derived with
  | intro allEnds isBlocks => rw [depthBehind_append, allEnds.balanced, isBlocks.balanced]

end SchemaAssist.Grammar
