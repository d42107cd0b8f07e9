/-
# SchemaAssist.Proofs.TypeCompletion — accepting a type gives a valid document

While the type of a field is missing its document does not parse, and completion goes by
the lines alone.  Behind an indentation and a name it takes the cursor for the place of a
type or for none (`ofBodyText_typePlace`), and every type that it offers is a name, be it a
scalar type or one that scanning has found (`isName_of_offered`).  So whichever is
accepted, the document parses, and its tree differs in the type of that field alone
(`parse?_acceptType`).
-/
import SchemaAssist.Completion
import SchemaAssist.Proofs.FieldFronts
import SchemaAssist.Proofs.Layout.FieldLines
import SchemaAssist.Proofs.Layout.TypeNames
import SchemaAssist.Proofs.TypeSuggestions

namespace SchemaAssist

set_option autoImplicit false

open Text Scan Grammar

/-! ## The place of a type -/

theorem IsName.isWord {name : List Char} (isName : IsName name) : IsWord name :=
  ⟨isName.ne_nil, isName.wordChars⟩

section

variable {indent name : List Char}

theorem ofAttributeText_typePlace (blank : ∀ c ∈ indent, isBlank c = true) (isName : IsName name) :
    Context.ofAttributeText (indent ++ (name ++ [' '])) = none := by
  have noCall : openCall? (indent ++ (name ++ [' '])) = none :=
    openCall?_eq_none (Context.StartsType.nil.openParens_eq_nil blank isName.isWord)
  have noAttribute : endsInAttribute (indent ++ (name ++ [' '])) = false :=
    not_endsInAttribute
      (Context.StartsType.nil.not_mem blank isName.isWord (by decide) (by decide) (by decide))
  rw [Context.ofAttributeText, noCall]
  simp only [not_continuesArguments_named blank isName.isWord, noAttribute]
  rfl

/-- **Behind a name on a line of its own there is the place of a type**, or none. -/
theorem ofBodyText_typePlace (blank : ∀ c ∈ indent, isBlank c = true) (isName : IsName name)
    (kind : BlockKind) :
    Context.ofBodyText kind (indent ++ (name ++ [' '])) =
      if kind.holdsFields then .fieldType else .nothing := by
  have noEquals : (indent ++ (name ++ [' '])).contains '=' = false := by
    rw [List.contains_eq_mem, decide_eq_false_iff_not]
    exact Context.StartsType.nil.not_mem blank isName.isWord (by decide) (by decide) (by decide)
  rw [Context.ofBodyText, ofAttributeText_typePlace blank isName, ite_self]
  simp only [not_isFirstWord_named blank isName.isWord,
    Context.StartsType.nil.isTypePosition blank isName.isWord, noEquals]
  cases kind <;> rfl

/-- At such a cursor a type belongs, or nothing. -/
theorem atCursor_typePlace (blank : ∀ c ∈ indent, isBlank c = true) (isName : IsName name)
    {document : Document} {cursor : Cursor}
    (before : document.textBefore cursor = indent ++ (name ++ [' '])) (block : Option BlockView) :
    Context.atCursor document cursor block = .nothing ∨
      Context.atCursor document cursor block = .fieldType ∧ ∃ view, block = some view := by
  unfold Context.atCursor
  rw [before]
  cases block with
  | none =>
      left
      simp only [not_isFirstWord_named blank isName.isWord]
      rfl
  | some view =>
      simp only [ofBodyText_typePlace blank isName]
      split
      · exact .inl rfl
      · split
        · exact .inl rfl
        · split
          · exact .inr ⟨rfl, view, rfl⟩
          · exact .inl rfl

end

/-! ## The lines of the text -/

/-- A text with a line of its own for a field without suffix and attributes. -/
def fieldSource (before indent name type after : String) : String :=
  before ++ indent ++ name ++ " " ++ type ++ after

theorem toList_fieldSource (before indent name type after : String) :
    (fieldSource before indent name type after).toList =
      fieldText before.toList indent.toList name.toList type.toList after.toList := by
  have blank : " ".toList = [' '] := rfl
  simp only [fieldSource, fieldText, String.toList_append, blank, List.append_assoc]

/-- What surrounds the line: other lines, and only an indentation on the line itself. -/
structure OwnLine (before indent after : String) : Prop where
  above : EndsInFeed before.toList
  blank : ∀ c ∈ indent.toList, c = ' ' ∨ c = '\t'
  below : StartsWithLineEnd after.toList

namespace OwnLine

variable {before indent after : String}

theorem gap (own : OwnLine before indent after) : ∀ c ∈ indent.toList, IsGapChar c :=
  fun c isIn => (own.blank c isIn).imp_right .inl

theorem blank_indent (own : OwnLine before indent after) : ∀ c ∈ indent.toList, isBlank c = true :=
  fun c isIn => (own.gap c isIn).isBlank

/-- The lines of the text are the line of the field between others. -/
theorem editorLines_eq (own : OwnLine before indent after) {name type : List Char}
    (isName : IsName name) (isType : ∀ c ∈ type, OnLine c) :
    editorLines (fieldText before.toList indent.toList name type after.toList) =
      editorLines before.toList ++
        (indent.toList ++ (name ++ ([' '] ++ type))) :: (editorLines after.toList).tail := by
  have onLine : ∀ c ∈ indent.toList ++ (name ++ ([' '] ++ type)), OnLine c := by
    intro c isIn
    simp only [List.mem_append, List.mem_singleton] at isIn
    rcases isIn with isIn | isIn | rfl | isIn
    · rcases own.blank c isIn with rfl | rfl <;> exact ⟨by decide, by decide, by decide⟩
    · exact isName.onLine c isIn
    · exact ⟨by decide, by decide, by decide⟩
    · exact isType c isIn
  rw [fieldText, editorLines_append (own.above.endsLine _),
    ← editorLines_line (by simp) onLine own.below]
  simp only [List.append_assoc]

end OwnLine

/-! ## What is offered -/

theorem isName_int : IsName "Int".toList := ⟨_, _, rfl, by decide, by decide, by decide⟩

theorem isName_scalarType : ∀ entry ∈ Catalogue.scalarTypes, IsName entry.label.toList := by
  intro entry isIn
  simp only [Catalogue.scalarTypes, List.mem_cons, List.not_mem_nil, or_false] at isIn
  rcases isIn with rfl | rfl | rfl | rfl | rfl <;>
    exact ⟨_, _, rfl, by decide, by decide, by decide⟩

/-- The types that are offered without a tree are scalar types or are found by scanning. -/
theorem typeItems_label {block : BlockView} {document : Document} {item : Item}
    (isIn : item ∈ Completion.typeItems (some block) document none) :
    (∃ entry ∈ Catalogue.scalarTypes, entry.label = item.label) ∨
      ∃ line ∈ document.lines, ∃ found, header? line = some found ∧ found.name = item.label := by
  obtain ⟨-, scalar | ⟨n, -, isType⟩⟩ := exists_typeItem_iff.1 ⟨item, isIn, rfl⟩
  · exact .inl scalar
  · obtain ⟨found, isHeader, same⟩ := exists_header_of_typeName? isType
    have inside : n < document.lines.length :=
      lt_length_of_isBoundary (by
        rw [← Document.line_natCast, isBoundary, isHeader]
        rfl)
    rw [Document.line_natCast, List.getD_eq_getElem _ _ inside] at isHeader
    exact .inr ⟨_, List.getElem_mem inside, found, isHeader, same⟩

/-- A text that is laid out for completing the type of a field: the field has a line of its
own, there are no rare line ends, and no string runs over a line end. -/
structure TypeLine (before indent name after : String) (segments : List Segment) : Prop extends
    OwnLine before indent after where
  lineEnds : PlainLineEnds (fieldSource before indent name "Int" after).toList
  segmented : Segmented 0 .start (fieldSource before indent name "Int" after).toList segments
  strings : ∀ segment ∈ segments, ∀ content, segment.lexeme = some (.string content) →
    '\n' ∉ segment.chars

namespace TypeLine

variable {before indent name after : String} {segments : List Segment}

/-- In front of the cursor stands what is left of the line. -/
theorem textBefore (text : TypeLine before indent name after segments)
    (isName : IsName name.toList) :
    (Document.ofText (fieldSource before indent name "" after)).textBefore
      ⟨before.toList.count '\n', (indent ++ name ++ " ").length⟩ =
        indent.toList ++ (name.toList ++ [' ']) := by
  have lineEnds := text.lineEnds
  rw [toList_fieldSource] at lineEnds
  have lines := text.editorLines_eq isName (List.forall_mem_nil OnLine)
  have size := length_editorLines lineEnds text.above
  have width : (indent ++ name ++ " ").length =
      (indent.toList ++ (name.toList ++ [' '])).length := by
    have blank : " ".toList = [' '] := rfl
    rw [← String.length_toList, String.toList_append, String.toList_append, blank,
      List.append_assoc]
  rw [Document.textBefore, Document.line_natCast, Document.ofText, toList_fieldSource]
  show ((editorLines (fieldText before.toList indent.toList name.toList [] after.toList)).getD
    (before.toList.count '\n') []).take (indent ++ name ++ " ").length = _
  rw [lines, ← size, List.getD_append_right _ _ _ _ (Nat.le_refl _), Nat.sub_self,
    List.getD_cons_zero, List.append_nil, width, List.take_length]

/-- Only types are offered. -/
theorem exists_block_of_offered (text : TypeLine before indent name after segments)
    (isName : IsName name.toList) {settings : CompletionSettings} {item : Item}
    (offered : item ∈ Completion.items (.ofText (fieldSource before indent name "" after))
      ⟨before.toList.count '\n', (indent ++ name ++ " ").length⟩ none settings) :
    ∃ block, item ∈ Completion.typeItems (some block)
      (.ofText (fieldSource before indent name "" after)) none := by
  unfold Completion.items at offered
  split at offered
  · cases offered
  · simp only at offered
    rcases atCursor_typePlace text.blank_indent isName (text.textBefore isName) (BlockView.find? _ _ none)
      with nothing | ⟨isType, view, found⟩
    · rw [nothing] at offered
      cases offered
    · rw [isType, found] at offered
      exact ⟨view, offered⟩

/-- Every type that is offered is a name. -/
theorem isName_of_offered (text : TypeLine before indent name after segments)
    (isName : IsName name.toList) {schema : Schema}
    (parsed : Schema.parse? (fieldSource before indent name "Int" after) = some schema)
    {settings : CompletionSettings} {item : Item}
    (offered : item ∈ Completion.items (.ofText (fieldSource before indent name "" after))
      ⟨before.toList.count '\n', (indent ++ name ++ " ").length⟩ none settings) :
    IsName item.label.toList := by
  obtain ⟨block, isType⟩ := text.exists_block_of_offered isName offered
  rcases typeItems_label isType with ⟨entry, known, same⟩ | ⟨line, known, found, isHeader, same⟩
  · rw [← same]
    exact isName_scalarType entry known
  · rw [← same]
    -- the line of the cursor is no header, and the other lines are those of the text
    have isIn : line ∈ editorLines (fieldSource before indent name "Int" after).toList := by
      have lines := text.editorLines_eq isName (List.forall_mem_nil OnLine)
      have brace : line ≠ indent.toList ++ (name.toList ++ [' ']) := by
        rintro rfl
        obtain ⟨front, back, shape, -⟩ := exists_of_header? isHeader
        have noBrace : '\x7b' ∉ indent.toList ++ (name.toList ++ [' ']) :=
          Context.StartsType.nil.not_mem text.blank_indent isName.isWord (by decide) (by decide)
            (by decide)
        rw [shape] at noBrace
        simp at noBrace
      rw [Document.ofText, toList_fieldSource] at known
      have known' : line ∈ editorLines (fieldText before.toList indent.toList name.toList []
        after.toList) := known
      rw [lines, List.append_nil, List.mem_append, List.mem_cons] at known'
      rw [toList_fieldSource, text.editorLines_eq isName isName_int.onLine, List.mem_append,
        List.mem_cons]
      exact known'.imp_right fun below => .inr (below.resolve_left brace)
    obtain ⟨number, shown⟩ : ∃ number, editorLine
        (fieldSource before indent name "Int" after).toList number = line := by
      obtain ⟨number, below, rfl⟩ := List.mem_iff_getElem.1 isIn
      exact ⟨number, by rw [editorLine, List.getD_eq_getElem _ _ below]⟩
    rw [← shown] at isHeader
    exact isName_of_header? text.segmented (text.segmented.feedsAlone text.strings) text.lineEnds
      (isSchema_of_parse? parsed text.segmented) isHeader

end TypeLine

/-- **Accepting any type that is offered gives a valid document**, and nothing but the type
of the field changes in its tree. -/
theorem parse?_acceptType {before indent name after : String} {segments : List Segment}
    (text : TypeLine before indent name after segments) {above below : List Block} {b : Block}
    {fields₁ fields₂ : List Field} {field : Field}
    (parsed : Schema.parse? (fieldSource before indent name "Int" after) =
      some ⟨above ++ b :: below⟩)
    (fields : b.fields = fields₁ ++ field :: fields₂) (named : field.name = name)
    (here : field.line = before.toList.count '\n') (settings : CompletionSettings) {item : Item}
    (offered : item ∈ Completion.items (.ofText (fieldSource before indent name "" after))
      ⟨before.toList.count '\n', (indent ++ name ++ " ").length⟩ none settings) :
    Schema.parse? (fieldSource before indent name item.label after) = some ⟨above ++
      b.withFields (fields₁ ++ { field with type := { field.type with name := item.label } } ::
        fields₂) :: below⟩ := by
  have isName := isName_of_field parsed text.segmented fields
  rw [named] at isName
  have isOther := text.isName_of_offered isName parsed offered
  have source : ∀ type, fieldSource before indent name type after = String.ofList
      (fieldText before.toList indent.toList name.toList type.toList after.toList) := fun type => by
    rw [← toList_fieldSource, String.ofList_toList]
  have segmented := text.segmented
  rw [toList_fieldSource] at segmented
  rw [source] at parsed ⊢
  have row : field.line = (Mark.start.behind before.toList).row := by
    rw [here, Mark.row_behind_start]
  have exchanged := parse?_exchangeType parsed segmented
    (text.segmented.feedsAlone text.strings) text.above text.gap isName_int text.below fields
    (by rw [named, String.ofList_toList]) row isOther
  rwa [String.ofList_toList] at exchanged

/-- What stands above and below a field of a model. -/
def roleAbove : String := "enum Role \x7b\n ADMIN\n\x7d\nmodel User \x7b\n id Int @id\n"

def roleBelow : String := "\n\x7d\n"

def roleEnum : Block :=
  .ofMembers .enum "Role" ⟨1, 1⟩ ⟨3, 1⟩ [.value ⟨"ADMIN", [], 1⟩]

def roleModel (type : String) : Block :=
  .ofMembers .model "User" ⟨4, 1⟩ ⟨7, 1⟩
    [.field ⟨"id", ⟨"Int", false, false⟩, [⟨"id", false, [], 4⟩], 4⟩,
      .field (.plain "role" type 5)]

theorem roleSource_typeLine {segments : List Segment}
    (segmented : Segmented 0 .start (fieldSource roleAbove " " "role" "Int" roleBelow).toList
      segments) : TypeLine roleAbove " " "role" roleBelow segments where
  above := by
    have last : roleAbove.toList.getLast? = some '\n' := by decide +kernel
    intro c isLast
    rw [last] at isLast
    exact (Option.some.inj isLast).symm
  blank := List.forall_mem_singleton.2 (.inl rfl)
  below := .inr ⟨[], _, .inl rfl, rfl⟩
  lineEnds := .of_all (by decide +kernel)
  segmented := segmented
  strings := by
    intro segment isIn content isString
    obtain ⟨depth, rest, front⟩ := segmented.exists_front isIn
    rw [isString] at front
    obtain ⟨body, _, shape, -⟩ := front.stringLexeme
    have quoted : '"' ∈ (fieldSource roleAbove " " "role" "Int" roleBelow).toList := by
      rw [← segmented.flatten, List.mem_flatMap]
      exact ⟨segment, isIn, by rw [shape]; simp⟩
    exact absurd quoted (by decide +kernel)

theorem parse?_acceptRole :
    Schema.parse? (fieldSource roleAbove " " "role" "Int" roleBelow) =
        some ⟨[roleEnum, roleModel "Int"]⟩ ∧
      Item.ofLabel .typeParameter "Role" ∈ Completion.items
        (.ofText (fieldSource roleAbove " " "role" "" roleBelow)) ⟨5, 6⟩ none {} ∧
      Schema.parse? (fieldSource roleAbove " " "role" "Role" roleBelow) =
        some ⟨[roleEnum, roleModel "Role"]⟩ := by
  have parsed : Schema.parse? (fieldSource roleAbove " " "role" "Int" roleBelow) =
      some ⟨[roleEnum, roleModel "Int"]⟩ := by decide +kernel
  have offered : Item.ofLabel .typeParameter "Role" ∈ Completion.items
      (.ofText (fieldSource roleAbove " " "role" "" roleBelow)) ⟨5, 6⟩ none {} := by
    decide +kernel
  obtain ⟨segments, segmented, -⟩ := parse_eq_ok.1 (parse?_eq_some.1 parsed)
  have accepted := @parse?_acceptType _ _ _ _ _ (roleSource_typeLine segmented) [roleEnum] []
    (roleModel "Int") [⟨"id", ⟨"Int", false, false⟩, [⟨"id", false, [], 4⟩], 4⟩] []
    (.plain "role" "Int" 5) parsed rfl rfl (by decide +kernel) {} _ offered
  exact ⟨parsed, offered, accepted⟩

end SchemaAssist
