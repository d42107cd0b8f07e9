/-
# SchemaAssist.Tree.Parser — from tokens to a tree

The grammar, with `NL` for a line end and names that may be block keywords:

    schema      := NL* (block NL*)*
    block       := KEYWORD name '{' NL* (member NL+)* [member] '}'
    member      := assignment        in datasource and generator blocks
                 | '@@' attribute    in models, type aliases and enums
                 | field             in models and type aliases
                 | enum value        in enums
    assignment  := name '=' value
    field       := name name ['[' ']'] ['?'] ('@' attribute)*
    enum value  := name ('@' attribute)*
    attribute   := name ('.' name)* ['(' arguments ')']
    arguments   := [argument (',' argument)* [',']]
    argument    := [WORD ':'] value
    value       := STRING | NUMBER | '[' [value (',' value)* [',']] ']'
                 | name | name '(' arguments ')'

The names `true` and `false` are values of their own and take no arguments.

A reader takes the tokens still to come and answers with a result and the rest,
or refuses, keeping the tokens from the offending one on.  Readers that loop or
nest count down a bound on the tokens left and answer `exhausted` at its end;
`Schema.ofTokens` gives them a bound above the number of tokens, and since every
turn takes a token, that answer is never given.
-/
import SchemaAssist.Token.Lexer

namespace SchemaAssist

set_option autoImplicit false

/-! ## Readers -/

/-- Why a reader refuses the tokens in front of it. -/
inductive Refusal where
  | expected (what : Expectation)
  | unexpected
  | unterminatedBlock (kind : BlockKind) (name : String) (opened : Mark)
  deriving DecidableEq, Inhabited

/-- The answer of a reader. -/
inductive Reading (α : Type) where
  | done (result : α) (rest : List Token)
  | refused (why : Refusal) (rest : List Token)
  | exhausted
  deriving DecidableEq, Inhabited

abbrev Reader (α : Type) := List Token → Reading α

def Reading.andThen {α β : Type} (reading : Reading α) (next : α → Reader β) : Reading β :=
  match reading with
  | .done result rest => next result rest
  | .refused why rest => .refused why rest
  | .exhausted => .exhausted

def Reading.map {α β : Type} (f : α → β) (reading : Reading α) : Reading β :=
  reading.andThen fun result rest => .done (f result) rest

namespace Reader

def sign (wanted : Punct) : Reader Mark
  | [] => .refused (.expected (.sign wanted)) []
  | token :: rest =>
      if token.lexeme = .punct wanted then .done token.mark rest
      else .refused (.expected (.sign wanted)) (token :: rest)

def name : Reader (String × Mark)
  | [] => .refused (.expected .name) []
  | token :: rest =>
      match token.lexeme.name? with
      | some text => .done (text, token.mark) rest
      | none => .refused (.expected .name) (token :: rest)

def optionalSign (wanted : Punct) : Reader Bool
  | [] => .done false []
  | token :: rest =>
      if token.lexeme = .punct wanted then .done true rest else .done false (token :: rest)

def lineEnds : Reader Unit
  | [] => .done () []
  | token :: rest => if token.lexeme = .newline then lineEnds rest else .done () (token :: rest)

/-- The end of a statement: line ends, or the closing brace, which is left in
place. -/
def statementEnd : Reader Unit
  | [] => .refused .unexpected []
  | token :: rest =>
      if token.lexeme = .newline then lineEnds rest
      else if token.lexeme = .punct .braceClose then .done () (token :: rest)
      else .refused .unexpected (token :: rest)

/-! ## Values -/

/-- The items of a list up to its closing sign, with commas between them and
perhaps after the last. -/
def commaList {α : Type} (close : Punct) (item : Reader α) : Nat → Reader (List α)
  | 0, _ => .exhausted
  | bound + 1, tokens =>
      (optionalSign close tokens).andThen fun isClosed rest =>
        if isClosed then .done [] rest
        else
          (item rest).andThen fun first rest =>
            (optionalSign .comma rest).andThen fun more rest =>
              if more then (commaList close item bound rest).map (first :: ·)
              else (sign close rest).map fun _ => [first]

def argument (value : Reader Value) : Reader Argument
  | ⟨.word name, _⟩ :: ⟨.punct .colon, _⟩ :: rest => (value rest).map (⟨some name, ·⟩)
  | tokens => (value tokens).map (⟨none, ·⟩)

def value : Nat → Reader Value
  | 0, _ => .exhausted
  | _ + 1, [] => .refused (.expected .value) []
  | bound + 1, token :: rest =>
      match token.lexeme with
      | .string text => .done ⟨.string, text, []⟩ rest
      | .number text => .done ⟨.number, text, []⟩ rest
      | .punct .bracketOpen =>
          (commaList .bracketClose (value bound) bound rest).map (⟨.array, "", ·⟩)
      | lexeme =>
          match lexeme.name? with
          | none => .refused (.expected .value) (token :: rest)
          | some text =>
              if text = "true" ∨ text = "false" then .done ⟨.boolean, text, []⟩ rest
              else
                (optionalSign .parenOpen rest).andThen fun isCall rest =>
                  if isCall then
                    (commaList .parenClose (argument (value bound)) bound rest).map
                      fun arguments => ⟨.function, text, arguments.map (·.value)⟩
                  else .done ⟨.identifier, text, []⟩ rest

/-! ## Attributes -/

/-- Reads the parts of a dotted name behind its first. -/
def dottedName (start : String) : Reader String
  | [] => .done start []
  | token :: rest =>
      if token.lexeme = .punct .dot then
        match rest with
        | [] => .refused (.expected .name) []
        | part :: rest =>
            match part.lexeme.name? with
            | some text => dottedName (start ++ "." ++ text) rest
            | none => .refused (.expected .name) (part :: rest)
      else .done start (token :: rest)

def arguments (bound : Nat) : Reader (List Argument) := fun tokens =>
  (optionalSign .parenOpen tokens).andThen fun isCall rest =>
    if isCall then commaList .parenClose (argument (value bound)) bound rest
    else .done [] rest

/-- Reads an attribute whose at-signs stood at `mark`. -/
def attributeAfter (isBlock : Bool) (mark : Mark) (bound : Nat) : Reader Attribute := fun tokens =>
  (name tokens).andThen fun (start, _) rest =>
    (dottedName start rest).andThen fun name rest =>
      (arguments bound rest).map fun arguments =>
        ⟨name, isBlock, arguments, mark.row⟩

def attributes : Nat → Reader (List Attribute)
  | 0, _ => .exhausted
  | _ + 1, [] => .done [] []
  | bound + 1, token :: rest =>
      if token.lexeme = .punct .atSign then
        (attributeAfter false token.mark bound rest).andThen fun first rest =>
          (attributes bound rest).map (first :: ·)
      else .done [] (token :: rest)

end Reader

/-! ## Members and blocks -/

inductive Member where
  | assignment (assignment : Assignment)
  | field (field : Field)
  | value (value : EnumValue)
  | blockAttribute (attr : Attribute)
  deriving DecidableEq, Inhabited

namespace Member

def assignment? : Member → Option Assignment
  | assignment a => some a
  | _ => none

def field? : Member → Option Field
  | field f => some f
  | _ => none

def value? : Member → Option EnumValue
  | value v => some v
  | _ => none

def blockAttribute? : Member → Option Attribute
  | blockAttribute a => some a
  | _ => none

end Member

def Block.ofMembers (kind : BlockKind) (name : String) (opened closed : Mark)
    (members : List Member) : Block where
  kind := kind
  name := name
  startLine := opened.row
  endLine := closed.row
  assignments := members.filterMap Member.assignment?
  fields := members.filterMap Member.field?
  attributes := members.filterMap Member.blockAttribute?
  values := members.filterMap Member.value?

namespace Reader

def assignment (bound : Nat) : Reader Assignment := fun tokens =>
  (name tokens).andThen fun (key, mark) rest =>
    (sign .equals rest).andThen fun _ rest =>
      (value bound rest).map fun value => ⟨key, value, mark.row⟩

/-- Reads the brackets that make a type a list, if they stand there. -/
def listSuffix : Reader Bool := fun tokens =>
  (optionalSign .bracketOpen tokens).andThen fun isList rest =>
    if isList then (sign .bracketClose rest).map fun _ => true else .done false rest

def field (bound : Nat) : Reader Field := fun tokens =>
  (name tokens).andThen fun (fieldName, mark) rest =>
    (name rest).andThen fun (typeName, _) rest =>
      (listSuffix rest).andThen fun isList rest =>
        (optionalSign .question rest).andThen fun isOptional rest =>
          (attributes bound rest).map fun attributes =>
            ⟨fieldName, ⟨typeName, isList, isOptional⟩, attributes, mark.row⟩

def enumValue (bound : Nat) : Reader EnumValue := fun tokens =>
  (name tokens).andThen fun (valueName, mark) rest =>
    (attributes bound rest).map fun attributes => ⟨valueName, attributes, mark.row⟩

/-- Reads a member of a block that holds no assignments and is an enum or not. -/
def declaration (isEnum : Bool) (bound : Nat) : Reader Member := fun tokens =>
  match tokens with
  | ⟨.punct .doubleAt, mark⟩ :: rest => (attributeAfter true mark bound rest).map .blockAttribute
  | _ =>
      if isEnum then (enumValue bound tokens).map .value
      else (field bound tokens).map .field

def member (kind : BlockKind) (bound : Nat) : Reader Member := fun tokens =>
  if kind.holdsAssignments then (assignment bound tokens).map .assignment
  else declaration (kind == .enum) bound tokens

/-- Reads the members of a block up to its closing brace, and answers where that
stands. -/
def members (kind : BlockKind) (blockName : String) (opened : Mark) :
    Nat → Reader (List Member × Mark)
  | 0, _ => .exhausted
  | _ + 1, [] => .refused (.unterminatedBlock kind blockName opened) []
  | bound + 1, token :: rest =>
      if token.lexeme = .punct .braceClose then .done ([], token.mark) rest
      else
        (member kind bound (token :: rest)).andThen fun first rest =>
          (statementEnd rest).andThen fun _ rest =>
            (members kind blockName opened bound rest).map fun (others, closed) =>
              (first :: others, closed)

def block (bound : Nat) : Reader Block := fun tokens =>
  match tokens with
  | ⟨.keyword kind, opened⟩ :: rest =>
      (name rest).andThen fun (blockName, _) rest =>
        (sign .braceOpen rest).andThen fun _ rest =>
          (lineEnds rest).andThen fun _ rest =>
            (members kind blockName opened bound rest).map fun (members, closed) =>
              Block.ofMembers kind blockName opened closed members
  | _ => .refused (.expected .blockKeyword) tokens

def blocks : Nat → Reader (List Block)
  | 0, _ => .exhausted
  | bound + 1, tokens =>
      (lineEnds tokens).andThen fun _ rest =>
        if rest.isEmpty then .done [] []
        else
          (block bound rest).andThen fun first rest =>
            (blocks bound rest).map (first :: ·)

end Reader

/-! ## Schemas -/

/-- The refusal of the tokens from the offending one on, for a stream that ends
at `stop`. -/
def Refusal.error (stop : Mark) (rest : List Token) : Refusal → SyntaxError
  | expected what =>
      ⟨.expected what (rest.head?.map (·.lexeme)), (rest.head?.map (·.mark)).getD stop⟩
  | unexpected => ⟨.unexpected (rest.head?.map (·.lexeme)), (rest.head?.map (·.mark)).getD stop⟩
  | unterminatedBlock kind name opened => ⟨.unterminatedBlock kind name, opened⟩

namespace Schema

def ofTokens (stream : TokenStream) : Except SyntaxError Schema :=
  match Reader.blocks (stream.tokens.length + 1) stream.tokens with
  | .done blocks _ => .ok ⟨blocks⟩
  | .refused why rest => .error (why.error stream.stop rest)
  | .exhausted => .error ⟨.unexpected none, stream.stop⟩

def parse (text : String) : Except SyntaxError Schema :=
  match TokenStream.ofText text with
  | .error error => .error error
  | .ok stream => ofTokens stream

def parse? (text : String) : Option Schema := (parse text).toOption

end Schema

end SchemaAssist
