/-
# SchemaAssist.Proofs.Layout.FieldLines — a field alone on its line

Where the text has a line of two names and the tree has a field with the first name on
that line, the line is the field: the other tokens of the text stand above and below it
(`FieldLine.of_slot`).  So the second name can be exchanged for any other one, and
nothing but the type of that field changes in the tree (`parse?_exchangeType`).
-/
import SchemaAssist.Proofs.Grammar.Exchange
import SchemaAssist.Proofs.Token.Words
import SchemaAssist.Proofs.Parsing

namespace SchemaAssist

set_option autoImplicit false

open Text Grammar

def fieldText (before indent name type after : List Char) : List Char :=
  before ++ (indent ++ (name ++ ([' '] ++ (type ++ after))))

def Field.plain (name type : String) (line : Int) : Field := ⟨name, ⟨type, false, false⟩, [], line⟩

theorem Grammar.IsMember.field_name {kind : BlockKind} {own : List Token} {field : Field}
    (member : IsMember kind own (.field field)) :
    ∃ token type more, own = token :: type :: more ∧ token.lexeme.name? = some field.name ∧
      token.mark.row = field.line ∧ Inside more := by
  generalize shape : Member.field field = m at member
  cases member with
  | field _ named typed list optional attributes =>
      cases shape
      refine ⟨_, _, _, by simp only [List.cons_append, List.append_assoc]; rfl, named, rfl, ?_⟩
      exact list.inside.append (optional.inside.append attributes.inside)
  | _ => cases shape

theorem Grammar.IsMember.eq_plain {kind : BlockKind} {first second : Token} {field : Field}
    (member : IsMember kind [first, second] (.field field)) :
    kind.holdsFields = true ∧ ∃ type, second.lexeme.name? = some type ∧
      field = .plain field.name type first.mark.row := by
  generalize shape : Member.field field = m, same : [first, second] = own at member
  cases member with
  | @field token typeToken list optional attributes' _ typeName _ _ _ holds named typed isList
      isOptional attributes =>
      cases shape
      simp only [List.cons_append, List.cons.injEq, List.nil_eq, List.append_eq_nil_iff] at same
      obtain ⟨rfl, rfl, ⟨rfl, rfl⟩, rfl⟩ := same
      refine ⟨holds, typeName, typed, ?_⟩
      cases isList
      cases isOptional
      cases attributes
      rfl
  | _ => cases shape

theorem Grammar.isMember_plain {kind : BlockKind} (holds : kind.holdsFields = true)
    {first second : Token} {name type : String} (named : first.lexeme.name? = some name)
    (typed : second.lexeme.name? = some type) :
    IsMember kind [first, second] (.field (.plain name type first.mark.row)) :=
  .field holds named typed .absent .absent .none

/-! ## The line of a field -/

/-- A text with a line of two names, and its segments: those above the line, those of the
line, and those from its end on. -/
structure FieldLine (before indent name type after : List Char) (segments : List Segment)
    (above others : List Segment) : Prop where
  shape : segments = above ++
    (pairSegments (Mark.start.behind before) indent name type ++ others)
  alone : FeedsAlone above
  endsInFeed : EndsInFeed before
  blank : ∀ c ∈ indent, IsGapChar c
  isName : IsName name
  isType : IsName type
  ends : StartsWithLineEnd after
  front : Segmented 0 .start before above
  onward : Segmented (depthBehind 0 (tokensOf above))
    (((((Mark.start.behind before).behind indent).behind name).behind [' ']).behind type) after
    others

theorem exists_fieldLine {before indent name type after : List Char} {segments : List Segment}
    (segmented : Segmented 0 .start (fieldText before indent name type after) segments)
    (alone : FeedsAlone segments) (endsInFeed : EndsInFeed before)
    (blank : ∀ c ∈ indent, IsGapChar c) (isName : IsName name) (isType : IsName type)
    (ends : StartsWithLineEnd after) :
    ∃ above others, FieldLine before indent name type after segments above others := by
  obtain ⟨above, rest, rfl, front, behind⟩ := segmented.cut_feed alone endsInFeed
  obtain ⟨others, rfl, onward⟩ := (Segmented.pair_iff blank isName isType ends.noWord).1 behind
  exact ⟨above, others, rfl, fun s isIn => alone s (List.mem_append_left _ isIn), endsInFeed,
    blank, isName, isType, ends, front, onward⟩

namespace FieldLine

variable {before indent name type after : List Char} {segments above others : List Segment}
  {kind : BlockKind} {derives : List Token → Field → Prop} {field : Field}
  {front own ends back : List Token}

def first (before indent name : List Char) : Token :=
  ⟨wordLexeme (String.ofList name), (Mark.start.behind before).behind indent⟩

def second (before indent name type : List Char) : Token :=
  ⟨wordLexeme (String.ofList type),
    ((((Mark.start.behind before).behind indent).behind name).behind [' '])⟩

theorem tokens (line : FieldLine before indent name type after segments above others) :
    tokensOf segments = tokensOf above ++
      first before indent name :: second before indent name type :: tokensOf others := by
  rw [line.shape, tokensOf_append, tokensOf_append, tokensOf_pairSegments]
  rfl

theorem line_indent (line : FieldLine before indent name type after segments above others) :
    ((Mark.start.behind before).behind indent).line = (Mark.start.behind before).line :=
  Mark.line_behind_of_noFeed (IsGapChar.noFeed line.blank) _

/-- The place behind the line is on it. -/
theorem line_behind (line : FieldLine before indent name type after segments above others)
    {other : List Char} (isOther : IsName other) :
    (((((Mark.start.behind before).behind indent).behind name).behind [' ']).behind other).line =
      (Mark.start.behind before).line := by
  have noFeed : '\n' ∉ [' '] := by decide
  rw [Mark.line_behind_of_noFeed isOther.noFeed, Mark.line_behind_of_noFeed noFeed,
    Mark.line_behind_of_noFeed line.isName.noFeed, line.line_indent]

/-- A field of that line starts with its first name. -/
theorem starts (line : FieldLine before indent name type after segments above others)
    (slot : Slot kind derives (tokensOf segments) field front own ends back)
    (here : field.line = (Mark.start.behind before).row) :
    tokensOf above = front ∧
      first before indent name :: second before indent name type :: tokensOf others =
        own ++ ends ++ back := by
  obtain ⟨token, typeToken, more, rfl, named, row, -⟩ := slot.isField.field_name
  have tokenLine : token.mark.line = (Mark.start.behind before).line := by
    rw [← row, Mark.row, Mark.row] at here
    omega
  have shape := line.tokens.symm.trans slot.shape
  rw [List.append_assoc, List.append_assoc] at shape
  rcases List.append_eq_append_iff.1 shape with ⟨between, rfl, tail⟩ | ⟨between, aboveTokens, tail⟩
  · rcases between with _ | ⟨single, _ | ⟨pair, between⟩⟩
    · exact ⟨by simp, by simpa using tail⟩
    · -- a name would stand directly before the field
      obtain ⟨rfl, -⟩ := List.cons.inj tail
      have unnamed := slot.starts (first before indent name) (by simp)
      simp [first] at unnamed
    · -- only a line end is left on the line
      have isIn : token ∈ tokensOf others := by
        rw [List.cons_append, List.cons_append, List.cons.injEq, List.cons.injEq] at tail
        rw [tail.2.2]
        simp
      have isEnd := line.onward.newline_of_line line.ends token isIn
        (tokenLine.trans (line.line_behind line.isType).symm)
      rw [isEnd] at named
      cases named
  · cases between with
    | nil => exact ⟨by simpa using aboveTokens, by simpa using tail.symm⟩
    | cons token' between =>
        obtain ⟨rfl, -⟩ := List.cons.inj tail
        have isIn : token ∈ tokensOf above := by rw [aboveTokens]; simp
        obtain ⟨segment, known, -, same⟩ := token_mem_iff.1 isIn
        have lower := line.front.line_lt line.endsInFeed segment known
        rw [same] at lower
        omega

/-- **The line is the field**, and what follows is the end of the line. -/
theorem of_slot (line : FieldLine before indent name type after segments above others)
    (slot : Slot kind derives (tokensOf segments) field front own ends back)
    (here : field.line = (Mark.start.behind before).row) :
    tokensOf above = front ∧ own = [first before indent name, second before indent name type] ∧
      tokensOf others = ends ++ back := by
  obtain ⟨rfl, tail⟩ := line.starts slot here
  obtain ⟨token, typeToken, more, rfl, -, -, inside⟩ := slot.isField.field_name
  have onward := line.onward
  rw [slot.balanced] at onward
  obtain ⟨_, _, behind⟩ := onward.slide line.ends rfl
  simp only [List.cons_append, List.append_assoc, List.cons.injEq] at tail
  obtain ⟨rfl, rfl, tail⟩ := tail
  cases more with
  | nil => exact ⟨rfl, rfl, by simpa using tail⟩
  | cons token more =>
      have inner := (inside.inner token (by simp)).1
      rcases behind with ⟨none, -⟩ | ⟨place, -, others', shape, -⟩
      · rw [none] at tail
        cases tail
      · rw [shape] at tail
        obtain ⟨rfl, -⟩ := List.cons.inj tail
        exact absurd rfl inner

/-- With another type, the line is another field, and nothing else changes. -/
theorem exchange (line : FieldLine before indent name type after segments above others)
    (slot : Slot kind derives (tokensOf segments) field front own ends back)
    (here : field.line = (Mark.start.behind before).row)
    (named : field.name = String.ofList name) {other : List Char} (isOther : IsName other) :
    field = .plain field.name (String.ofList type) field.line ∧
      ∃ segments', Segmented 0 .start (fieldText before indent name other after) segments' ∧
        derives (tokensOf segments') (.plain field.name (String.ofList other) field.line) := by
  obtain ⟨rfl, rfl, behind⟩ := line.of_slot slot here
  obtain ⟨holds, typeName, typed, shape⟩ := slot.isField.eq_plain
  have onward := line.onward
  rw [slot.balanced] at onward
  obtain ⟨moved, further, same⟩ := onward.slide line.ends
    ((line.line_behind isOther).trans (line.line_behind line.isType).symm)
  -- only the line end moves, and one is as good as another
  obtain ⟨ends', allEnds', kept, tail⟩ : ∃ ends', IsLineEnds ends' ∧ (ends' = [] → ends = []) ∧
      tokensOf moved = ends' ++ back := by
    rcases same with ⟨none, none'⟩ | ⟨place, place', others', shape, shape'⟩
    · rw [none, List.nil_eq_append_iff] at behind
      exact ⟨[], List.forall_mem_nil _, fun _ => behind.1, by rw [none', behind.2]; rfl⟩
    · rw [shape] at behind
      cases ends with
      | nil =>
          refine absurd ?_ slot.stops
          rw [← List.nil_append back, ← behind]
          rfl
      | cons lineEnd ends =>
          obtain ⟨-, rfl⟩ := List.cons.inj behind
          refine ⟨⟨.newline, place'⟩ :: ends, List.forall_mem_cons.2 ⟨rfl, fun t isIn =>
            slot.allEnds t (List.mem_cons_of_mem _ isIn)⟩, nofun, shape'⟩
  have typed' : (second before indent name other).lexeme.name? = some (String.ofList other) :=
    name?_wordLexeme _
  have named' : (first before indent name).lexeme.name? = some field.name := by
    rw [named]
    exact name?_wordLexeme _
  obtain rfl : typeName = String.ofList type :=
    Option.some.inj (typed.symm.trans (name?_wordLexeme _))
  have row : (first before indent name).mark.row = field.line := by rw [shape]; rfl
  rw [row] at shape
  refine ⟨shape, above ++ (pairSegments (Mark.start.behind before) indent name other ++ moved),
    ?_, ?_⟩
  · refine line.front.append_feed line.alone line.endsInFeed ?_
    rw [slot.balanced]
    exact (Segmented.pair_iff line.blank line.isName isOther line.ends.noWord).2
      ⟨moved, rfl, further⟩
  · have member := isMember_plain holds named' typed'
    rw [row] at member
    have whole := slot.exchange _ ends' _ member allEnds' kept
    rw [tokensOf_append, tokensOf_append, tokensOf_pairSegments, tail]
    show derives (tokensOf above ++ ([first before indent name, second before indent name other] ++
      (ends' ++ back))) _
    rw [List.append_assoc, List.append_assoc] at whole
    exact whole

end FieldLine

/-- The name of a field is one that the lexer has read. -/
theorem isName_of_field {text : String} {segments : List Segment} {above below : List Block}
    {b : Block} {fields₁ fields₂ : List Field} {field : Field}
    (parsed : Schema.parse? text = some ⟨above ++ b :: below⟩)
    (segmented : Segmented 0 .start text.toList segments)
    (fields : b.fields = fields₁ ++ field :: fields₂) : IsName field.name.toList := by
  obtain ⟨front, own, ends, back, slot⟩ := (isSchema_of_parse? parsed segmented).slot fields
  obtain ⟨token, typeToken, more, rfl, named, -⟩ := slot.isField.field_name
  have isIn : token ∈ tokensOf segments := by
    rw [slot.shape]
    simp
  obtain ⟨segment, known, lexeme, -⟩ := token_mem_iff.1 isIn
  obtain ⟨under, rest, here⟩ := segmented.exists_front known
  rw [lexeme] at here
  exact here.isName named

/-- **The type of a field can be exchanged** in its text: nothing else changes in the
tree. -/
theorem parse?_exchangeType {before indent name type after : List Char} {segments : List Segment}
    {above below : List Block} {b : Block} {fields₁ fields₂ : List Field} {field : Field}
    (parsed : Schema.parse? (String.ofList (fieldText before indent name type after)) =
      some ⟨above ++ b :: below⟩)
    (segmented : Segmented 0 .start (fieldText before indent name type after) segments)
    (alone : FeedsAlone segments) (endsInFeed : EndsInFeed before)
    (blank : ∀ c ∈ indent, IsGapChar c) (isType : IsName type) (ends : StartsWithLineEnd after)
    (fields : b.fields = fields₁ ++ field :: fields₂) (named : field.name = String.ofList name)
    (here : field.line = (Mark.start.behind before).row) {other : List Char}
    (isOther : IsName other) :
    Schema.parse? (String.ofList (fieldText before indent name other after)) = some ⟨above ++
      b.withFields (fields₁ ++ { field with type := { field.type with
        name := String.ofList other } } :: fields₂) :: below⟩ := by
  have cut : Segmented 0 .start
      (String.ofList (fieldText before indent name type after)).toList segments := by
    rwa [String.toList_ofList]
  obtain ⟨front, own, ends', back, slot⟩ := (isSchema_of_parse? parsed cut).slot fields
  have isName := isName_of_field parsed cut fields
  rw [named, String.toList_ofList] at isName
  obtain ⟨_, _, line⟩ := exists_fieldLine segmented alone endsInFeed blank isName isType ends
  obtain ⟨plain, segments', segmented', derived'⟩ := line.exchange slot here named isOther
  rw [parse?_eq_some, parse_eq_ok, String.toList_ofList]
  refine ⟨segments', segmented', ?_⟩
  rw [plain]
  exact derived'

end SchemaAssist
