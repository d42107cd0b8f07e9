/-
# SchemaAssist.Proofs.FieldContexts — the contexts along the line of a field

The line of a field is an indentation and a name, a type with or without suffixes, and attributes
with or without arguments (`WrittenField`).  Each of these is a stretch of the line with a context
of its own, and a column has the context of the stretch that it ends or lies in (`contextAt`).

That a stretch has its context behind each of its characters depends on what stands in front of it
only through the words at its start and the parentheses that are open, so the stretches of the
attributes are told one after the other (`told_attributes`).
-/
import SchemaAssist.Proofs.FieldFronts

namespace SchemaAssist

set_option autoImplicit false

open Text Scan

/-! ## The line of a field -/

/-- An attribute of a field as it is written: a name, and arguments if there is a list of them. -/
structure WrittenAttribute where
  name : List Char
  arguments : Option (List Char)
  nonempty : name ≠ []
  isName : ∀ c ∈ name, isMemberChar c = true
  noParen : ∀ chars ∈ arguments, ∀ c ∈ chars, c ≠ '(' ∧ c ≠ ')'

/-- Part of a line, with the context that belongs to the columns in it. -/
structure Stretch where
  chars : List Char
  context : Context

namespace WrittenAttribute

def text (written : WrittenAttribute) : List Char :=
  ' ' :: '@' :: written.name ++ (written.arguments.elim [] fun chars => '(' :: (chars ++ [')']))

def inside (written : WrittenAttribute) : Context :=
  if written.name = "default".toList ∨ written.name = "relation".toList then .attributeArgument
  else .nothing

def stretches (written : WrittenAttribute) : List Stretch :=
  ⟨' ' :: '@' :: written.name, .attributeName⟩ ::
    written.arguments.elim [] fun chars =>
      [⟨'(' :: chars, written.inside⟩, ⟨[')'], .attributeName⟩]

theorem flatMap_stretches (written : WrittenAttribute) :
    written.stretches.flatMap Stretch.chars = written.text := by
  rw [stretches, text]
  cases written.arguments <;> simp

end WrittenAttribute

/-- The line of a field as it is written: a name and a type with blanks in front, suffixes of the
type and attributes. -/
structure WrittenField where
  indent : List Char
  name : List Char
  type : List Char
  suffix : List Char
  attributes : List WrittenAttribute
  blank : ∀ c ∈ indent, c = ' ' ∨ c = '\t'
  isName : IsWord name
  isType : IsWord type
  isSuffix : suffix ∈ ["".toList, "?".toList, "[]".toList, "[]?".toList]

namespace WrittenField

def text (field : WrittenField) : List Char :=
  field.indent ++ field.name ++ ' ' :: (field.type ++ field.suffix) ++
    field.attributes.flatMap WrittenAttribute.text

def stretches (field : WrittenField) : List Stretch :=
  ⟨field.indent ++ field.name, .firstMember⟩ ::
    ⟨' ' :: (field.type ++ field.suffix), .fieldType⟩ ::
      field.attributes.flatMap WrittenAttribute.stretches

theorem flatMap_stretches (field : WrittenField) :
    field.stretches.flatMap Stretch.chars = field.text := by
  simp [stretches, text, List.flatMap_assoc, WrittenAttribute.flatMap_stretches]

end WrittenField

/-- What belongs to a column: the context of the stretch that ends there or that it lies in. -/
def contextAt : List Stretch → Nat → Context
  | [], _ => .nothing
  | stretch :: rest, column =>
      if column ≤ stretch.chars.length then stretch.context
      else contextAt rest (column - stretch.chars.length)

/-- Every stretch of a line that starts with `front` has its context behind each of its
characters. -/
inductive Told (kind : BlockKind) : List Char → List Stretch → Prop
  | nil (front : List Char) : Told kind front []
  | cons {front : List Char} {stretch : Stretch} {rest : List Stretch} :
      (∀ start, start <+: stretch.chars → start ≠ [] →
        Context.behind kind (front ++ start) = stretch.context) →
      Told kind (front ++ stretch.chars) rest → Told kind front (stretch :: rest)

namespace Told

variable {kind : BlockKind} {front : List Char} {stretches further : List Stretch}

theorem append (told : Told kind front stretches)
    (onward : Told kind (front ++ stretches.flatMap Stretch.chars) further) :
    Told kind front (stretches ++ further) := by
  induction told with
  | nil front => simpa using onward
  | cons here _ ih =>
      refine .cons here (ih ?_)
      simpa using onward

/-- So behind every column there is the context of that column. -/
theorem behind_take (told : Told kind front stretches) {column : Nat} (positive : 0 < column)
    (inside : column ≤ (stretches.flatMap Stretch.chars).length) :
    Context.behind kind (front ++ (stretches.flatMap Stretch.chars).take column) =
      contextAt stretches column := by
  induction told generalizing column with
  | nil front => simp at inside; omega
  | @cons front stretch rest here _ ih =>
      -- either the column is in this stretch, or the whole stretch is part of what is in front
      rw [List.flatMap_cons] at inside ⊢
      unfold contextAt
      split
      · rename_i within
        rw [List.take_append_of_le_length within]
        refine here _ (List.take_prefix _ _) ?_
        rw [← List.length_pos_iff, List.length_take]
        omega
      · rename_i beyond
        rw [List.length_append] at inside
        rw [List.take_append, List.take_of_length_le (by omega), ← List.append_assoc]
        exact ih (by omega) (by omega)

end Told

/-! ## The contexts along the line -/

theorem Context.contains_argumentAttributes {name : List Char} (noSign : '@' ∉ name) :
    Context.argumentAttributes.contains (String.ofList ('@' :: name)) = true ↔
      name = "default".toList ∨ name = "relation".toList := by
  have twoSigns (rest : List Char) : name ≠ '@' :: rest := by
    rintro rfl
    exact noSign List.mem_cons_self
  rw [List.contains_iff_mem, Context.argumentAttributes]
  simp only [List.mem_cons, List.not_mem_nil, ← String.toList_inj, String.toList_ofList]
  have signs : "@default".toList = '@' :: "default".toList ∧
      "@relation".toList = '@' :: "relation".toList ∧
      "@@unique".toList = '@' :: '@' :: "unique".toList ∧
      "@@id".toList = '@' :: '@' :: "id".toList ∧
      "@@index".toList = '@' :: '@' :: "index".toList := ⟨rfl, rfl, rfl, rfl, rfl⟩
  simp only [signs, List.cons.injEq, true_and, twoSigns, or_false]

namespace WrittenAttribute

variable (written : WrittenAttribute) {front : List Char} {kind : BlockKind}

theorem inside_eq : written.inside =
    if Context.argumentAttributes.contains (String.ofList ('@' :: written.name)) then
      .attributeArgument
    else .nothing := by
  have noSign : '@' ∉ written.name := fun isIn => absurd (written.isName '@' isIn) (by decide)
  simp only [inside, Context.contains_argumentAttributes noSign]

theorem openParens_text (noneOpen : openParens front = []) :
    openParens (front ++ written.text) = [] := by
  have named : openSigns '(' ')' (front ++ ' ' :: '@' :: written.name) = [] :=
    (openSigns_neither (Context.noParen_signed written.isName) front).trans noneOpen
  rw [openParens, text, ← List.append_assoc]
  cases known : written.arguments with
  | none => simpa using named
  | some chars =>
      rw [Option.elim_some, ← List.cons_append, ← List.append_assoc,
        openSigns_closing (by decide), openSigns_opened (written.noParen chars known), named]
      rfl

theorem startsField (starts : Context.StartsField (front ++ [' '])) :
    Context.StartsField (front ++ written.text) := by
  rw [text, List.cons_append, List.append_cons]
  exact starts.append _

theorem told (starts : Context.StartsField (front ++ [' '])) (noneOpen : openParens front = [])
    (holdsFields : kind.holdsFields = true) : Told kind front written.stretches := by
  have label : ∀ start, start <+: ' ' :: '@' :: written.name → start ≠ [] →
      Context.behind kind (front ++ start) = .attributeName := by
    intro start isStart nonempty
    have noParen : ∀ c ∈ start, c ≠ '(' ∧ c ≠ ')' := fun c isIn =>
      Context.noParen_signed written.isName c (isStart.subset isIn)
    have closed : openParens (front ++ start) = [] :=
      (openSigns_neither noParen front).trans noneOpen
    obtain ⟨c, inner, rfl⟩ := List.exists_cons_of_ne_nil nonempty
    obtain ⟨rfl, -⟩ := List.cons_prefix_cons.1 isStart
    have behindBlank : Context.StartsField (front ++ ' ' :: inner) := by
      rw [List.append_cons]
      exact starts.append inner
    exact behindBlank.behind_attribute holdsFields closed
  rw [stretches]
  cases known : written.arguments with
  | none => exact .cons label (.nil _)
  | some chars =>
      have enclosed : ∀ start, start <+: '(' :: chars → start ≠ [] →
          Context.behind kind (front ++ ' ' :: '@' :: written.name ++ start) = written.inside := by
        intro start isStart nonempty
        obtain ⟨c, inner, rfl⟩ := List.exists_cons_of_ne_nil nonempty
        obtain ⟨rfl, shorter⟩ := List.cons_prefix_cons.1 isStart
        rw [inside_eq]
        exact starts.behind_argument holdsFields noneOpen written.nonempty written.isName
          fun c isIn => written.noParen chars known c (shorter.subset isIn)
      -- behind its closing parenthesis the whole attribute stands in front, and nothing is open
      have close : ∀ start, start <+: [')'] → start ≠ [] →
          Context.behind kind (front ++ ' ' :: '@' :: written.name ++ '(' :: chars ++ start) =
            .attributeName := by
        intro start isStart nonempty
        obtain ⟨c, inner, rfl⟩ := List.exists_cons_of_ne_nil nonempty
        obtain ⟨rfl, shorter⟩ := List.cons_prefix_cons.1 isStart
        obtain rfl := List.prefix_nil.1 shorter
        have whole : front ++ ' ' :: '@' :: written.name ++ '(' :: chars ++ [')'] =
            front ++ written.text := by simp [text, known]
        rw [whole]
        exact (written.startsField starts).behind_attribute holdsFields
          (written.openParens_text noneOpen)
      exact .cons label (.cons enclosed (.cons close (.nil _)))

end WrittenAttribute

theorem told_attributes (attributes : List WrittenAttribute) {front : List Char}
    {kind : BlockKind} (starts : Context.StartsField (front ++ [' ']))
    (noneOpen : openParens front = []) (holdsFields : kind.holdsFields = true) :
    Told kind front (attributes.flatMap WrittenAttribute.stretches) := by
  induction attributes generalizing front with
  | nil => exact .nil front
  | cons written attributes ih =>
      rw [List.flatMap_cons]
      refine (written.told starts noneOpen holdsFields).append ?_
      rw [written.flatMap_stretches]
      exact ih ((written.startsField starts).append [' ']) (written.openParens_text noneOpen)

namespace WrittenField

variable (field : WrittenField) {kind : BlockKind}

theorem startsType : Context.StartsType (field.type ++ field.suffix) where
  starts nonempty := field.isType.starts List.prefix_rfl nonempty
  plain c isIn := by
    rcases List.mem_append.1 isIn with isIn | isIn
    · exact .inl (field.isType.wordChars c isIn)
    · have signs : ["".toList, "?".toList, "[]".toList, "[]?".toList].all
          (·.all ['?', '[', ']'].contains) = true := by decide
      have known := List.all_eq_true.1 (List.all_eq_true.1 signs _ field.isSuffix) c isIn
      exact .inr (List.contains_iff_mem.1 known)

theorem blank_indent : ∀ c ∈ field.indent, isBlank c = true := by
  intro c isIn
  rcases field.blank c isIn with rfl | rfl <;> decide

theorem told (holdsFields : kind.holdsFields = true) : Told kind [] field.stretches := by
  have member : ∀ start, start <+: field.indent ++ field.name → start ≠ [] →
      Context.behind kind ([] ++ start) = .firstMember := by
    intro start isStart _
    exact Context.behind_firstWord field.blank_indent field.isName.wordChars holdsFields isStart
  have type : ∀ start, start <+: ' ' :: (field.type ++ field.suffix) → start ≠ [] →
      Context.behind kind ([] ++ (field.indent ++ field.name) ++ start) = .fieldType := by
    intro start isStart nonempty
    obtain ⟨c, inner, rfl⟩ := List.exists_cons_of_ne_nil nonempty
    obtain ⟨rfl, shorter⟩ := List.cons_prefix_cons.1 isStart
    rw [List.nil_append, List.append_assoc]
    exact Context.behind_type field.blank_indent field.isName holdsFields
      (field.startsType.mono shorter)
  refine .cons member (.cons type (told_attributes field.attributes ?_ ?_ holdsFields))
  · refine ⟨field.indent, field.name, field.type ++ field.suffix, [], by simp, field.blank_indent,
      field.isName, ?_, field.startsType.noBlank⟩
    simp [field.isType.ne_nil]
  · rw [List.nil_append, List.append_assoc]
    exact field.startsType.openParens_eq_nil field.blank_indent field.isName

end WrittenField

/-- **Every column of the line of a field has its context**: a member up to the end of the name, a
type behind the blank, and behind the type an attribute, but for what parentheses enclose. -/
theorem Context.atCursor_field (field : WrittenField) {document : Document} {cursor : Cursor}
    {view : BlockView} (holdsFields : view.kind.holdsFields = true)
    (wellFormed : view.isWellFormed = true) (line : document.line cursor.line = field.text)
    (inside : cursor.character ≤ field.text.length) :
    Context.atCursor document cursor (some view) =
      contextAt field.stretches cursor.character.toNat := by
  rw [Context.atCursor_wellFormed wellFormed, Document.textBefore, line]
  rw [← field.flatMap_stretches] at inside ⊢
  cases reached : cursor.character.toNat with
  | zero =>
      rw [List.take_zero]
      exact Context.behind_firstWord field.blank_indent field.isName.wordChars holdsFields
        List.nil_prefix
  | succ column =>
      exact (field.told holdsFields).behind_take (Nat.succ_pos column) (by omega)

/-- A field whose arguments have blanks, brackets, a colon and at-signs in them. -/
def taggedField : WrittenField where
  indent := "\t ".toList
  name := "tags".toList
  type := "Tag".toList
  suffix := "[]?".toList
  attributes :=
    [⟨"default".toList, some "[\"a b\", x: @c".toList, by decide,
        List.all_eq_true.1 (by decide), by simp⟩,
      ⟨"db.Text".toList, some "9 @z".toList, by decide,
        List.all_eq_true.1 (by decide), by simp⟩,
      ⟨"map".toList, none, by decide, List.all_eq_true.1 (by decide), nofun⟩]
  blank := by simp
  isName := ⟨by decide, List.all_eq_true.1 (by decide)⟩
  isType := ⟨by decide, List.all_eq_true.1 (by decide)⟩
  isSuffix := by decide

def taggedModel : Document :=
  .ofText "model A \x7b\n\t tags Tag[]? @default([\"a b\", x: @c) @db.Text(9 @z) @map\n\x7d"

def taggedBlock : BlockView := .scanned ⟨.model, "A", 0, 2, taggedModel.lines⟩

theorem Context.atCursor_taggedField :
    BlockView.find? taggedModel 1 none = some taggedBlock ∧
      taggedModel.line 1 = taggedField.text ∧
      Context.atCursor taggedModel ⟨1, 14⟩ (some taggedBlock) = .attributeName ∧
      Context.atCursor taggedModel ⟨1, 36⟩ (some taggedBlock) = .attributeArgument := by
  have line : taggedModel.line 1 = taggedField.text := by decide +kernel
  refine ⟨by decide +kernel, line, ?_, ?_⟩
  · exact (Context.atCursor_field taggedField rfl (by decide) line (by decide +kernel)).trans
      (by decide +kernel)
  · exact (Context.atCursor_field taggedField rfl (by decide) line (by decide +kernel)).trans
      (by decide +kernel)

end SchemaAssist
