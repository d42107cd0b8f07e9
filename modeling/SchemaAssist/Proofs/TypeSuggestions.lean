/-
# SchemaAssist.Proofs.TypeSuggestions — the types that are offered for a field

The types are the scalar ones and those declared by models and enums.  A tree offers the declared
ones under another name than that of the block around the cursor; without a tree they are those of
all lines but the header of the block (`DeclaredBeside`, `exists_typeItem_iff`).

So everything declared under another name is offered.  The block's own name is not, except where
scanning finds it declared on a further line (`items_ownName_iff`): a document in which two models
have one name offers that name inside of both (`items_repeatedModel`), and with its tree it would
not.
-/
import SchemaAssist.Proofs.AttributeSuggestions
import SchemaAssist.Proofs.Layout.Walks

namespace SchemaAssist

set_option autoImplicit false

open Text Scan

/-! ## Declared types -/

/-- The types declared on the lines of a document but one. -/
theorem mem_typeNames {document : Document} {exclude : Option Int} {name : String} :
    name ∈ typeNames document exclude ↔
      ∃ n : Nat, exclude ≠ some (n : Int) ∧ typeName? (document.line n) = some name := by
  obtain ⟨lines⟩ := document
  simp only [typeNames_eq, Document.line_natCast, List.mem_filterMap, List.mem_range'_1,
    Nat.zero_le, true_and, Nat.zero_add]
  constructor
  · rintro ⟨n, -, found⟩
    split at found
    · cases found
    · rename_i other
      exact ⟨n, other, found⟩
  · rintro ⟨n, other, found⟩
    refine ⟨n, ?_, by rwa [if_neg other]⟩
    -- a line past the end is empty and declares nothing
    by_contra beyond
    rw [List.getD_eq_default _ _ (by omega)] at found
    cases found

/-- A line that declares a type is a header of that name. -/
theorem exists_header_of_typeName? {line : List Char} {name : String}
    (found : typeName? line = some name) :
    ∃ header, header? line = some header ∧ header.name = name := by
  unfold typeName? at found
  split at found
  · rename_i other isHeader
    exact ⟨_, isHeader, Option.some.inj found⟩
  · rename_i other isHeader
    exact ⟨_, isHeader, Option.some.inj found⟩
  · cases found

/-- A model or an enum of that name is declared: in the tree if there is one, on a line of the
document otherwise. -/
def Declares (document : Document) (schema : Option Schema) (name : String) : Prop :=
  match schema with
  | some schema => ∃ block ∈ schema.blocks, (block.kind = .model ∨ block.kind = .enum) ∧
      block.name = name
  | none => ∃ n : Nat, typeName? (document.line n) = some name

/-- The type is declared beside the block: under another name than the block's in the tree, or on
another line than the header of the block. -/
def DeclaredBeside (view : BlockView) (document : Document) (schema : Option Schema)
    (name : String) : Prop :=
  match schema with
  | some schema => Declares document (some schema) name ∧ name ≠ view.name
  | none => ∃ n : Nat, (n : Int) ≠ view.startLine ∧ typeName? (document.line n) = some name

section

variable {document : Document} {schema : Option Schema} {view : BlockView} {name : String}

theorem mem_declaredTypes :
    name ∈ Completion.declaredTypes (some view) document schema ↔
      DeclaredBeside view document schema name := by
  cases schema with
  | none =>
      simp only [Completion.declaredTypes, Option.map_some, mem_typeNames, DeclaredBeside, ne_eq,
        Option.some.injEq, eq_comm]
  | some schema =>
      simp only [Completion.declaredTypes, Schema.blocksOfKind, Option.map_some, List.mem_map,
        List.mem_filter, List.contains_eq_mem, List.mem_cons, List.not_mem_nil, or_false,
        decide_eq_true_eq, bne_iff_ne, ne_eq, Option.some.injEq, DeclaredBeside, Declares]
      constructor
      · rintro ⟨block, ⟨⟨isIn, isType⟩, other⟩, rfl⟩
        exact ⟨⟨block, isIn, isType, rfl⟩, Ne.symm other⟩
      · rintro ⟨⟨block, isIn, isType, rfl⟩, other⟩
        exact ⟨block, ⟨⟨isIn, isType⟩, Ne.symm other⟩, rfl⟩

/-- The labels that are offered are the scalar types and those declared beside the block. -/
theorem exists_typeItem_iff :
    (∃ item ∈ Completion.typeItems (some view) document schema, item.label = name) ↔
      view.isWellFormed = true ∧ ((∃ entry ∈ Catalogue.scalarTypes, entry.label = name) ∨
        DeclaredBeside view document schema name) := by
  rw [← mem_declaredTypes, Completion.typeItems, Option.any_some]
  cases view.isWellFormed with
  | false => simp
  | true =>
      simp only [Bool.not_true, Bool.false_eq_true, if_false, true_and, List.mem_append,
        List.mem_map, or_and_right, exists_or]
      refine or_congr ⟨?_, ?_⟩ ⟨?_, ?_⟩
      · rintro ⟨_, ⟨entry, isIn, rfl⟩, same⟩
        exact ⟨entry, isIn, same⟩
      · rintro ⟨entry, isIn, same⟩
        exact ⟨_, ⟨entry, isIn, rfl⟩, same⟩
      · rintro ⟨_, ⟨other, isIn, rfl⟩, rfl⟩
        exact isIn
      · intro isIn
        exact ⟨_, ⟨name, isIn, rfl⟩, rfl⟩

/-! ## The block around the cursor -/

/-- A scanned block has the kind and the name of its header. -/
theorem ScannedBlock.header?_startLine {number : Int} {block : ScannedBlock}
    (found : at? document number = some block) :
    header? (document.line block.startLine) = some ⟨block.kind, block.name⟩ := by
  obtain ⟨⟨start, stop⟩, -, isBlock⟩ := Option.bind_eq_some_iff.1 found
  obtain ⟨header, isHeader, rfl⟩ := Option.map_eq_some_iff.1 isBlock
  exact isHeader

/-- What is declared under another name is declared beside the block. -/
theorem Declares.beside {number : Int} (declared : Declares document schema name)
    (found : BlockView.find? document number schema = some view) (other : name ≠ view.name) :
    DeclaredBeside view document schema name := by
  cases schema with
  | some schema => exact ⟨declared, other⟩
  | none =>
      obtain ⟨n, isType⟩ := declared
      obtain ⟨block, isBlock, rfl⟩ := Option.map_eq_some_iff.1 found
      refine ⟨n, fun header => other ?_, isType⟩
      obtain ⟨own, isHeader, rfl⟩ := exists_header_of_typeName? isType
      have same := ScannedBlock.header?_startLine isBlock
      rw [← show (n : Int) = block.startLine from header, isHeader] at same
      exact congrArg Header.name (Option.some.inj same)

variable {cursor : Cursor}

/-- At the place of a type the suggestions are types. -/
theorem items_of_fieldType
    (found : BlockView.find? document cursor.line schema = some view)
    (place : Context.atCursor document cursor (some view) = .fieldType)
    (settings : CompletionSettings) :
    view.isWellFormed = true ∧ Completion.items document cursor schema settings =
      Completion.typeItems (some view) document schema := by
  have isPlace : isTypePosition (document.textBefore cursor) = true :=
    Context.fits_of_atCursor place
  have typed : document.textBefore cursor ≠ [] := by
    intro empty
    rw [empty] at isPlace
    exact absurd isPlace (by decide)
  constructor
  · by_contra inverted
    rw [Context.atCursor, if_pos (by simpa using inverted)] at place
    cases place
  · rw [Completion.items, if_neg (Document.inside_of_textBefore typed), found]
    show Completion.itemsIn (Context.atCursor document cursor (some view)) _ _ _ _ _ = _
    rw [place]
    rfl

/-- **Of the declared types only the block's own name is left out**, unless it is a scalar type.
Without a tree it is offered as well if another line than the header of the block declares it. -/
theorem items_ownName_iff
    (found : BlockView.find? document cursor.line schema = some view)
    (place : Context.atCursor document cursor (some view) = .fieldType)
    (noScalar : ∀ entry ∈ Catalogue.scalarTypes, entry.label ≠ view.name)
    (settings : CompletionSettings) :
    ((∃ item ∈ Completion.items document cursor schema settings, item.label = view.name) ↔
        schema = none ∧ ∃ n : Nat, (n : Int) ≠ view.startLine ∧
          typeName? (document.line n) = some view.name) ∧
      ∀ name, Declares document schema name → name ≠ view.name →
        ∃ item ∈ Completion.items document cursor schema settings, item.label = name := by
  obtain ⟨wellFormed, types⟩ := items_of_fieldType found place settings
  rw [types]
  constructor
  · have scalar : ¬ ∃ entry ∈ Catalogue.scalarTypes, entry.label = view.name :=
      fun ⟨entry, isIn, same⟩ => noScalar entry isIn same
    rw [exists_typeItem_iff, or_iff_right scalar, and_iff_right wellFormed]
    cases schema with
    | none => simp [DeclaredBeside]
    | some schema => simp [DeclaredBeside]
  · intro name declared other
    exact exists_typeItem_iff.2 ⟨wellFormed, .inr (declared.beside found other)⟩

end

/-- A model that is being edited and not closed, between an enum and another model. -/
def openModel : Document :=
  .ofText "enum Role \x7b\n\x7d\nmodel A \x7b\n  role \nmodel B \x7b\n  a A\n\x7d"

theorem items_openModel :
    (∀ item ∈ Completion.items openModel ⟨3, 7⟩ none {}, item.label ≠ "A") ∧
      (∃ item ∈ Completion.items openModel ⟨3, 7⟩ none {}, item.label = "Role") ∧
      ∃ item ∈ Completion.items openModel ⟨3, 7⟩ none {}, item.label = "B" := by
  have found : BlockView.find? openModel 3 none =
      some (.scanned ⟨.model, "A", 2, 4, openModel.lines⟩) := by decide +kernel
  have place : Context.atCursor openModel ⟨3, 7⟩
      (some (.scanned ⟨.model, "A", 2, 4, openModel.lines⟩)) = .fieldType := by decide +kernel
  have lines : openModel.lines.length = 7 := by decide +kernel
  have single : ∀ n : Nat, n < 7 → n ≠ 2 → typeName? (openModel.line (n : Int)) ≠ some "A" := by
    decide +kernel
  obtain ⟨own, others⟩ := items_ownName_iff found place (by decide +kernel) {}
  refine ⟨fun item isIn same => ?_, others "Role" ⟨0, by decide +kernel⟩ (by decide),
    others "B" ⟨4, by decide +kernel⟩ (by decide)⟩
  obtain ⟨-, n, notOwn, isType⟩ := own.1 ⟨item, isIn, same⟩
  by_cases inside : n < 7
  · exact single n inside (fun two => notOwn (congrArg Nat.cast two)) isType
  · rw [Document.line_natCast, List.getD_eq_default _ _ (by omega)] at isType
    cases isType

def repeatedModel : Document := .ofText "model A \x7b\n  x \n\x7d\nmodel A \x7b\n\x7d"

/-- The name of a block can be offered inside of it, if scanning finds it on another line too. -/
theorem items_repeatedModel :
    ¬ ∀ (document : Document) (cursor : Cursor) (schema : Option Schema)
      (settings : CompletionSettings) (view : BlockView),
      BlockView.find? document cursor.line schema = some view →
        Context.atCursor document cursor (some view) = .fieldType →
          (∀ entry ∈ Catalogue.scalarTypes, entry.label ≠ view.name) →
            ∀ item ∈ Completion.items document cursor schema settings, item.label ≠ view.name := by
  intro never
  refine never repeatedModel ⟨1, 4⟩ none {} (.scanned ⟨.model, "A", 0, 2, repeatedModel.lines⟩) ?_
    ?_ ?_ (.ofLabel .typeParameter "A") ?_ rfl
  all_goals decide +kernel

end SchemaAssist
