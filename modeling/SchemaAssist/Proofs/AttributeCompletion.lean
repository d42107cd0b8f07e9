/-
# SchemaAssist.Proofs.AttributeCompletion — accepting an attribute gives a valid document

Behind a blank no at-sign has been typed, so the label of an attribute of a field is written
out in full: an at-sign, the name, perhaps an empty list of arguments (`label_of_offered`).
Where a field ends its line with one space behind it (`FieldEnd`), such a label is one more
attribute of that field.  Of the rest of the text only the line end moves along the line, so
nothing else changes in the tree (`parse?_acceptAttribute`).

Nothing is said about how the field came to its last token: its type may have any suffix,
and its attributes may have lists of arguments that began on earlier lines.
-/
import SchemaAssist.Proofs.AttributeSuggestions
import SchemaAssist.Proofs.Grammar.FieldPlaces
import SchemaAssist.Proofs.Parsing
import SchemaAssist.Proofs.Token.Insertion
import SchemaAssist.Proofs.Token.Words
import Mathlib.Data.List.GetD

namespace SchemaAssist

set_option autoImplicit false

open Text Grammar

/-- An attribute of a field that is offered comes from the table. -/
theorem Completion.exists_spec_of_offered {document : Document} {cursor : Cursor}
    {schema : Option Schema} {settings : CompletionSettings} {item : Item}
    (offered : item ∈ items document cursor schema settings) (target : item.target = some .field) :
    ∃ spec ∈ Catalogue.fieldAttributes,
      item = .ofSpec (AttributeStart.atCursor document cursor).typed spec := by
  obtain ⟨view, spec, -, suggested, rfl⟩ := exists_spec_of_targeted offered target
  have isField : spec.target = .field := Option.some.inj target
  rcases List.mem_append.1 (mem_attributeSpecs.1 suggested).1 with isIn | isIn
  · exact ⟨spec, isIn, rfl⟩
  · rw [Catalogue.target_modelAttributes spec isIn] at isField
    cases isField

/-! ## What is written -/

/-- Behind a blank at the end of its line, a cursor has no at-signs in front of it. -/
theorem AttributeStart.atCursor_eq_plain {document : Document} {cursor : Cursor}
    {line : List Char} (shape : document.line cursor.line = line ++ [' '])
    (ends : cursor.character = (document.line cursor.line).length) :
    AttributeStart.atCursor document cursor = .plain := by
  have text : document.textBefore cursor = line ++ [' '] := by
    rw [Document.textBefore, ends, Int.toNat_natCast, List.take_length, shape]
  have start : (((line ++ [' ']).length : Int) - 2).toNat ≤ line.length := by
    rw [List.length_append, List.length_singleton]
    omega
  have last : (document.symbolBefore cursor 2).getLast? = some ' ' := by
    rw [document.symbolBefore_eq_drop 2 (by omega), text, List.drop_append_of_le_length start,
      List.getLast?_concat]
  unfold AttributeStart.atCursor
  simp only
  rw [if_neg, if_neg]
  · intro same
    rw [same] at last
    cases last
  · intro same
    rw [same] at last
    cases last

def Item.bareLabel (item : Item) : String :=
  String.ofList (item.label.toList.filter fun c => c != '@' && c != '(' && c != ')')

/-- Written out, an attribute of a field is an at-sign, its name, and perhaps an empty list of
arguments. -/
theorem label_of_spec {spec : AttributeSpec} (isIn : spec ∈ Catalogue.fieldAttributes) :
    ∃ suffix, (suffix = [] ∨ suffix = ['(', ')']) ∧
      IsName (Item.ofSpec "" spec).bareLabel.toList ∧
      (Item.ofSpec "" spec).label.toList =
        '@' :: ((Item.ofSpec "" spec).bareLabel.toList ++ suffix) := by
  simp only [Catalogue.fieldAttributes, List.mem_cons, List.not_mem_nil, or_false] at isIn
  rcases isIn with rfl | rfl | rfl | rfl | rfl
  · exact ⟨[], .inl rfl, ⟨_, _, rfl, by decide, by decide, by decide⟩, by decide⟩
  · exact ⟨[], .inl rfl, ⟨_, _, rfl, by decide, by decide, by decide⟩, by decide⟩
  · exact ⟨_, .inr rfl, ⟨_, _, rfl, by decide, by decide, by decide⟩, by decide⟩
  · exact ⟨_, .inr rfl, ⟨_, _, rfl, by decide, by decide, by decide⟩, by decide⟩
  · exact ⟨_, .inr rfl, ⟨_, _, rfl, by decide, by decide, by decide⟩, by decide⟩

/-- An attribute without arguments stands on one line. -/
theorem IsName.noFeed_attribute {name suffix : List Char} (isName : IsName name)
    (isSuffix : suffix = [] ∨ suffix = ['(', ')']) : '\n' ∉ '@' :: (name ++ suffix) := by
  have noFeed := isName.noFeed
  rcases isSuffix with rfl | rfl
  · simpa using noFeed
  · simpa using noFeed

/-- The sign and the name of an attribute. -/
theorem Segmented.signAndName {mark : Mark} {name rest : List Char} {others : List Segment}
    (isName : IsName name) (ends : rest.head?.any isWordChar = false)
    (behind : Segmented 0 ((mark.behind ['@']).behind name) rest others) :
    Segmented 0 mark ('@' :: (name ++ rest)) (⟨mark, ['@'], some (.punct .atSign)⟩ ::
      ⟨mark.behind ['@'], name, some (wordLexeme (String.ofList name))⟩ :: others) := by
  have single : (name ++ rest).head? ≠ some '@' := by
    have word := isName.wordChars
    obtain ⟨c, inner, rfl⟩ := List.exists_cons_of_ne_nil isName.ne_nil
    intro same
    obtain rfl : c = '@' := by simpa using same
    exact absurd (word '@' (by simp)) (by decide)
  have named := Segmented.cons (isName.front 0 ends)
    ((depthAfter_wordLexeme 0 _).symm ▸ behind)
  exact .cons (.atSign single) named

theorem isAttributes_singleton {sign token : Token} {inner : List Token} {name : String}
    {arguments : List Argument} (isSign : sign.lexeme = .punct .atSign)
    (named : token.lexeme.name? = some name) (isArguments : IsArguments inner arguments) :
    IsAttributes (sign :: token :: inner) [⟨name, false, arguments, sign.mark.row⟩] := by
  have whole := IsAttributes.more isSign (.intro named .none isArguments) .none
  rwa [String.append_empty, List.append_nil] at whole

/-- An attribute without arguments can be written in front of a line end. -/
theorem Segmented.emptyAttribute {mark : Mark} {name suffix after : List Char}
    {others : List Segment} (isName : IsName name) (isSuffix : suffix = [] ∨ suffix = ['(', ')'])
    (starts : StartsWithLineEnd after)
    (behind : Segmented 0 (mark.behind ('@' :: (name ++ suffix))) after others) :
    ∃ own, Segmented 0 mark ('@' :: (name ++ (suffix ++ after))) (own ++ others) ∧
      IsAttributes (tokensOf own) [⟨String.ofList name, false, [], mark.row⟩] := by
  rcases isSuffix with rfl | rfl
  · rw [List.append_nil] at behind
    exact ⟨[_, _], .signAndName isName starts.noWord behind,
      isAttributes_singleton rfl (name?_wordLexeme _) .absent⟩
  · rw [← List.cons_append, Mark.behind_append] at behind
    have opens : Front 0 ['('] (some (.punct .parenOpen)) (')' :: after) := .sign rfl
    have closes : Front 1 [')'] (some (.punct .parenClose)) after := .sign rfl
    have pair := Segmented.cons opens (Segmented.cons closes behind)
    have noWord : isWordChar '(' = false := by decide
    exact ⟨[_, _, _, _], .signAndName isName noWord pair,
      isAttributes_singleton rfl (name?_wordLexeme _) (.list rfl .empty rfl)⟩

/-! ## The end of a field's line -/

/-- A text with a line that ends in the last token of a field and one space: the text up to
the space, and the text from the line end on. -/
structure FieldEnd (above below : List Block) (b : Block) (fields₁ fields₂ : List Field)
    (field : Field) (before after : String) : Prop where
  lineEnds : PlainLineEnds (before ++ " " ++ after).toList
  starts : StartsWithLineEnd after.toList
  place : ∃ upTo others front own,
    Segmented 0 .start (before ++ " " ++ after).toList (upTo ++ others) ∧
      upTo.flatMap (·.chars) = before.toList ∧ tokensOf upTo = front ++ own ∧
      FieldPlace above below field b fields₁ fields₂ front own (tokensOf others)

/-- The cursor at the end of the line on which `before` stops and one space follows. -/
def endOfLine (before after : String) : Cursor :=
  let line : Int := (before.toList.count '\n' : Nat)
  ⟨line, ((Document.ofText (before ++ " " ++ after)).line line).length⟩

namespace FieldEnd

variable {above below : List Block} {b : Block} {fields₁ fields₂ : List Field} {field : Field}
  {before after : String}

/-- The text has the tree that the field is part of. -/
theorem parsed (text : FieldEnd above below b fields₁ fields₂ field before after) :
    Schema.parse? (before ++ " " ++ after) = some ⟨above ++ b :: below⟩ ∧
      b.fields = fields₁ ++ field :: fields₂ := by
  obtain ⟨upTo, others, front, own, segmented, -, tokens, place⟩ := text.place
  refine ⟨?_, place.fields⟩
  rw [parse?_eq_some, parse_eq_ok]
  refine ⟨_, segmented, ?_⟩
  rw [tokensOf_append, tokens, List.append_assoc]
  exact place.derives

/-- The line of the cursor ends in the space. -/
theorem exists_line (text : FieldEnd above below b fields₁ fields₂ field before after) :
    ∃ line, (Document.ofText (before ++ " " ++ after)).line (endOfLine before after).line =
      line ++ [' '] := by
  obtain ⟨upper, line, shape, ends, noFeed⟩ := exists_lastLine before.toList
  have whole : (before ++ " " ++ after).toList = upper ++ ((line ++ [' ']) ++ after.toList) := by
    have blank : " ".toList = [' '] := rfl
    simp only [String.toList_append, blank, shape, List.append_assoc]
  have lineEnds := text.lineEnds
  rw [whole] at lineEnds
  have onLine := lineEnds.onLine (by simpa using noFeed) (by simp)
  have count : before.toList.count '\n' = (editorLines upper).length := by
    rw [length_editorLines lineEnds ends, shape, List.count_append,
      List.count_eq_zero_of_not_mem noFeed, Nat.add_zero]
  refine ⟨line, ?_⟩
  show (Document.ofText _).line ((before.toList.count '\n' : Nat) : Int) = _
  rw [Document.line_natCast, Document.ofText, whole]
  show (editorLines _).getD _ [] = _
  rw [editorLines_append (ends.endsLine _), editorLines_line (by simp) onLine text.starts, count,
    List.getD_append_right _ _ _ _ (Nat.le_refl _), Nat.sub_self, List.getD_cons_zero]

/-- What is offered for a field is written out in full. -/
theorem label_of_offered (text : FieldEnd above below b fields₁ fields₂ field before after)
    {schema : Option Schema} {settings : CompletionSettings} {item : Item}
    (offered : item ∈ Completion.items (.ofText (before ++ " " ++ after))
      (endOfLine before after) schema settings)
    (target : item.target = some .field) :
    ∃ suffix, (suffix = [] ∨ suffix = ['(', ')']) ∧ IsName item.bareLabel.toList ∧
      item.label.toList = '@' :: (item.bareLabel.toList ++ suffix) := by
  obtain ⟨line, shape⟩ := text.exists_line
  obtain ⟨spec, isIn, rfl⟩ := Completion.exists_spec_of_offered offered target
  rw [AttributeStart.atCursor_eq_plain shape rfl]
  exact label_of_spec isIn

/-- **An attribute without arguments can be written** behind the space, and is one more of the
field. -/
theorem parse?_write (text : FieldEnd above below b fields₁ fields₂ field before after)
    {name suffix : List Char} (isName : IsName name)
    (isSuffix : suffix = [] ∨ suffix = ['(', ')']) :
    Schema.parse? (String.ofList
        (before.toList ++ ([' '] ++ '@' :: (name ++ (suffix ++ after.toList))))) =
      some ⟨above ++ b.withFields (fields₁ ++ { field with attributes := field.attributes ++
        [⟨String.ofList name, false, [], (endOfLine before after).line⟩] } :: fields₂) ::
          below⟩ := by
  obtain ⟨upTo, others, front, own, segmented, shape, tokens, place⟩ := text.place
  have flat : depthBehind 0 (tokensOf upTo) = 0 := by rw [tokens, place.balanced]
  -- up to the space, the text stays as it is
  have blank : " ".toList = [' '] := rfl
  have source : (before ++ " " ++ after).toList = before.toList ++ ([' '] ++ after.toList) := by
    simp only [String.toList_append, blank, List.append_assoc]
  rw [source] at segmented
  obtain ⟨rest, same, behind⟩ := segmented.cut
  rw [shape] at same behind
  obtain rfl := List.append_cancel_left same
  rw [flat] at behind
  have space (rest : List Char) : Front 0 [' '] none rest := .blank (.inl rfl)
  obtain ⟨others, rfl, onward⟩ := (Segmented.front_iff (space _)).1 behind
  -- of what follows, the line end moves along the line
  obtain ⟨moved, further, lineEnd⟩ := onward.slide text.starts
    (Mark.line_behind_of_noFeed (isName.noFeed_attribute isSuffix)
      ((Mark.start.behind before.toList).behind [' ']))
  obtain ⟨own', written, attributes⟩ :=
    Segmented.emptyAttribute isName isSuffix text.starts further
  have spaced := Segmented.cons (space _) written
  rw [← flat] at spaced
  have sameStart : ([' '] ++ '@' :: (name ++ (suffix ++ after.toList))).head? =
      ([' '] ++ after.toList).head? := rfl
  have spliced := segmented.splice shape sameStart spaced
  rw [tokensOf_gap] at place
  rcases lineEnd with ⟨none, -⟩ | ⟨mark, mark', tail, ended, ended'⟩
  · rw [none] at place
    exact absurd rfl place.back_ne_nil
  have isEnd (place : Mark) : (⟨.newline, place⟩ : Token).lexeme = .newline := rfl
  have row : ((Mark.start.behind before.toList).behind [' ']).row =
      (endOfLine before after).line := by
    rw [← Mark.behind_append, Mark.row_behind_start]
    simp [endOfLine]
  rw [ended] at place
  have member := place.isMember.field_append attributes
  rw [row] at member
  have derived := (place.exchange (isEnd mark) (isEnd mark') member).derives
  rw [parse?_eq_some, parse_eq_ok, String.toList_ofList]
  refine ⟨_, spliced, ?_⟩
  rw [tokensOf_append, tokensOf_gap, tokensOf_append, tokens, ended']
  simpa only [List.append_assoc] using derived

end FieldEnd

/-- **Accepting any attribute that is offered for a field gives a valid document**, and nothing
but the attributes of that field changes in its tree: they get one more, without arguments, on
the line of the cursor. -/
theorem parse?_acceptAttribute {above below : List Block} {b : Block}
    {fields₁ fields₂ : List Field} {field : Field} {before after : String}
    (text : FieldEnd above below b fields₁ fields₂ field before after)
    (settings : CompletionSettings) {item : Item}
    (offered : item ∈ Completion.items (.ofText (before ++ " " ++ after))
      (endOfLine before after) (some ⟨above ++ b :: below⟩) settings)
    (target : item.target = some .field) :
    Schema.parse? (before ++ " " ++ item.label ++ after) = some ⟨above ++
      b.withFields (fields₁ ++ { field with attributes := field.attributes ++
        [⟨item.bareLabel, false, [], (endOfLine before after).line⟩] } :: fields₂) :: below⟩ := by
  obtain ⟨suffix, isSuffix, isName, label⟩ := text.label_of_offered offered target
  have source : before ++ " " ++ item.label ++ after = String.ofList (before.toList ++
      ([' '] ++ '@' :: (item.bareLabel.toList ++ (suffix ++ after.toList)))) := by
    have blank : " ".toList = [' '] := rfl
    rw [← String.toList_inj]
    simp only [String.toList_append, String.toList_ofList, blank, label, List.append_assoc,
      List.cons_append]
  have written := text.parse?_write isName isSuffix
  rwa [String.ofList_toList, ← source] at written

/-- A model with strings among the arguments that look like ends and attributes, the last of
them on a line of its own. -/
def mappedModel : String := "model A \x7b\n  x String? @default(\"(\") @map(\n    \") @y\")"

def mappedField (attributes : List Attribute) : Field :=
  ⟨"x", ⟨"String", false, true⟩, ⟨"default", false, [⟨none, ⟨.string, "(", []⟩⟩], 1⟩ ::
    ⟨"map", false, [⟨none, ⟨.string, ") @y", []⟩⟩], 1⟩ :: attributes, 1⟩

def mappedBlock (attributes : List Attribute) : Block :=
  .ofMembers .model "A" ⟨1, 1⟩ ⟨4, 1⟩ [.field (mappedField attributes)]

def mappedFront : List Token :=
  [⟨.keyword .model, ⟨1, 1⟩⟩, ⟨.word "A", ⟨1, 7⟩⟩, ⟨.punct .braceOpen, ⟨1, 9⟩⟩,
    ⟨.newline, ⟨1, 10⟩⟩]

def mappedOwn : List Token :=
  [⟨.word "x", ⟨2, 3⟩⟩, ⟨.word "String", ⟨2, 5⟩⟩, ⟨.punct .question, ⟨2, 11⟩⟩,
    ⟨.punct .atSign, ⟨2, 13⟩⟩, ⟨.word "default", ⟨2, 14⟩⟩, ⟨.punct .parenOpen, ⟨2, 21⟩⟩,
    ⟨.string "(", ⟨2, 22⟩⟩, ⟨.punct .parenClose, ⟨2, 25⟩⟩, ⟨.punct .atSign, ⟨2, 27⟩⟩,
    ⟨.word "map", ⟨2, 28⟩⟩, ⟨.punct .parenOpen, ⟨2, 31⟩⟩, ⟨.string ") @y", ⟨3, 5⟩⟩]

theorem mappedField_place : FieldPlace [] [] (mappedField []) (mappedBlock []) [] [] mappedFront
    (mappedOwn ++ [⟨.punct .parenClose, ⟨3, 11⟩⟩])
    [⟨.newline, ⟨3, 13⟩⟩, ⟨.punct .braceClose, ⟨4, 1⟩⟩] := by
  have noEnds : IsLineEnds [] := List.forall_mem_nil _
  have quoted (name text : String) (sign first opening inner closing : Mark) :
      IsAttributes [⟨.punct .atSign, sign⟩, ⟨.word name, first⟩, ⟨.punct .parenOpen, opening⟩,
        ⟨.string text, inner⟩, ⟨.punct .parenClose, closing⟩]
        [⟨name, false, [⟨none, ⟨.string, text, []⟩⟩], sign.row⟩] :=
    isAttributes_singleton rfl rfl (.list rfl (.last (.plain (.string rfl))) rfl)
  have attributes : IsAttributes (mappedOwn.drop 3 ++ [⟨.punct .parenClose, ⟨3, 11⟩⟩])
      (mappedField []).attributes :=
    (quoted "default" "(" ⟨2, 13⟩ ⟨2, 14⟩ ⟨2, 21⟩ ⟨2, 22⟩ ⟨2, 25⟩).append
      (quoted "map" ") @y" ⟨2, 27⟩ ⟨2, 28⟩ ⟨2, 31⟩ ⟨3, 5⟩ ⟨3, 11⟩)
  have plain : IsMember .model (mappedOwn.take 3)
      (.field { mappedField [] with attributes := [] }) := by
    have typed : IsOptionalSuffix [⟨.punct .question, ⟨2, 11⟩⟩] true := .question rfl
    exact .field rfl rfl rfl .absent typed .none
  have member : IsMember .model (mappedOwn ++ [⟨.punct .parenClose, ⟨3, 11⟩⟩])
      (.field (mappedField [])) := plain.field_append attributes
  have lineEnd (mark : Mark) : IsLineEnds [⟨.newline, mark⟩] := List.forall_mem_singleton.2 rfl
  have place : MemberPlace .model [] (.field (mappedField [])) [] []
      (mappedOwn ++ [⟨.punct .parenClose, ⟨3, 11⟩⟩]) [⟨.newline, ⟨3, 13⟩⟩] [] :=
    ⟨.empty, nofun, member, lineEnd _, nofun, .empty⟩
  have noBlocks : IsSchema [] ⟨[]⟩ := .intro noEnds .none
  have isKeyword : (⟨.keyword .model, ⟨1, 1⟩⟩ : Token).lexeme = .keyword .model := rfl
  have named : (⟨.word "A", ⟨1, 7⟩⟩ : Token).lexeme.name? = some "A" := rfl
  have opens : (⟨.punct .braceOpen, ⟨1, 9⟩⟩ : Token).lexeme = .punct .braceOpen := rfl
  have closes : (⟨.punct .braceClose, ⟨4, 1⟩⟩ : Token).lexeme = .punct .braceClose := rfl
  have whole := FieldPlace.intro noBlocks isKeyword named opens (lineEnd ⟨1, 10⟩) place closes
    noBlocks
  exact whole

theorem mappedField_fieldEnd :
    FieldEnd [] [] (mappedBlock []) [] [] (mappedField []) mappedModel "\n\x7d" where
  lineEnds := .of_all (by decide +kernel)
  starts := .inr ⟨[], _, .inl rfl, rfl⟩
  place := by
    have lexed : TokenStream.ofText (mappedModel ++ " " ++ "\n\x7d") =
        .ok ⟨mappedFront ++ mappedOwn ++ ⟨.punct .parenClose, ⟨3, 11⟩⟩ ::
          [⟨.newline, ⟨3, 13⟩⟩, ⟨.punct .braceClose, ⟨4, 1⟩⟩], ⟨4, 2⟩⟩ := by decide +kernel
    obtain ⟨segments, segmented, same⟩ := ofText_eq_ok.1 lexed
    have listed := (congrArg TokenStream.tokens same).symm
    have split : (mappedModel ++ " " ++ "\n\x7d").toList =
        mappedModel.toList ++ [' ', '\n', '\x7d'] := by decide +kernel
    rw [split] at segmented ⊢
    have ends : Token.EndsAt (mappedModel.toList ++ [' ', '\n', '\x7d'])
        ⟨.punct .parenClose, ⟨3, 11⟩⟩ mappedModel.toList.length :=
      ⟨[')'], [' ', '\n', '\x7d'], by decide +kernel, rfl, by decide +kernel⟩
    obtain ⟨upTo, others, rfl, shape, -, tokens⟩ := segmented.cut_behind listed ends
    have behind : tokensOf others = [⟨.newline, ⟨3, 13⟩⟩, ⟨.punct .braceClose, ⟨4, 1⟩⟩] := by
      simpa [tokensOf_append, tokens] using listed
    refine ⟨upTo, others, _, _, segmented, shape, ?_, behind ▸ mappedField_place⟩
    rw [tokens, List.append_assoc]

theorem parse?_acceptRelation :
    (Item.ofSpec "" Catalogue.fieldAttributes[4] ∈ Completion.items
        (.ofText (mappedModel ++ " " ++ "\n\x7d")) (endOfLine mappedModel "\n\x7d")
        (some ⟨[mappedBlock []]⟩) {}) ∧
      Schema.parse? (mappedModel ++ " " ++ "@relation()" ++ "\n\x7d") =
        some ⟨[mappedBlock [⟨"relation", false, [], 2⟩]]⟩ := by
  have offered : Item.ofSpec "" Catalogue.fieldAttributes[4] ∈ Completion.items
      (.ofText (mappedModel ++ " " ++ "\n\x7d")) (endOfLine mappedModel "\n\x7d")
      (some ⟨[mappedBlock []]⟩) {} := by decide +kernel
  have accepted := parse?_acceptAttribute mappedField_fieldEnd {} offered rfl
  have label : (Item.ofSpec "" Catalogue.fieldAttributes[4]).label = "@relation()" := by
    decide +kernel
  have bare : (Item.ofSpec "" Catalogue.fieldAttributes[4]).bareLabel = "relation" := by
    decide +kernel
  have line : (endOfLine mappedModel "\n\x7d").line = 2 := by decide +kernel
  rw [label, bare, line] at accepted
  exact ⟨offered, accepted⟩

end SchemaAssist
