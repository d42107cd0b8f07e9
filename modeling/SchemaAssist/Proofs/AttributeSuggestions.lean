/-
# SchemaAssist.Proofs.AttributeSuggestions — which attributes are suggested

Which attributes may stand at a cursor is a rule about the block around it, the two characters
in front of it and its line (`AttributeSpec.AllowedAt`).  An item has a target exactly if it
comes from the table of attributes, and then the rule allows it there and what has been typed of
its at-signs completes its label.  At the place of an attribute all allowed ones are suggested,
each once and in the order of the table (`targetedItems_sound_complete`).

Items with a target are made at two positions: at the place of an attribute, and at the start of
a line, where no at-sign has been typed (`AttributeStart.atCursor_of_isFirstWord`).
-/
import SchemaAssist.Proofs.Contexts
import SchemaAssist.Proofs.Text.Blanks
import Mathlib.Data.List.GetD

namespace SchemaAssist

set_option autoImplicit false

open Text

/-! ## Whole words -/

/-- The word stands on the line with no word character beside it. -/
def HasWord (word line : List Char) : Prop :=
  ∃ front back, line = front ++ (word ++ back) ∧ front.getLast?.any isWordChar = false ∧
    back.head?.any isWordChar = false

theorem wholeWord_eq_some {c : Char} {word : List Char} {before : Option Char} {text : List Char}
    (first : isWordChar c = true) (last : (c :: word).getLast?.any isWordChar = true) :
    wholeWord (c :: word) before text = some () ↔
      ∃ back, text = c :: word ++ back ∧ before.any isWordChar = false ∧
        back.head?.any isWordChar = false := by
  have starts : ∀ back, isWordBoundary before (c :: word ++ back).head? =
      !before.any isWordChar := by
    intro back
    simp [isWordBoundary, first]
  have ends : ∀ back : List Char, isWordBoundary (c :: word).getLast? back.head? =
      !back.head?.any isWordChar := by
    intro back
    rw [isWordBoundary, last]
    simp
  unfold wholeWord endingWord
  constructor
  · intro found
    split at found
    · rename_i boundary
      split at found
      · rename_i back shape
        obtain rfl := stripWord_eq_some.1 shape
        rw [starts] at boundary
        rw [ends] at found
        refine ⟨back, rfl, by simpa using boundary, ?_⟩
        by_contra goesOn
        simp [goesOn] at found
      · cases found
    · cases found
  · rintro ⟨back, rfl, before, behind⟩
    simp only [starts, before, stripWord_append, ends, behind]
    rfl

/-- Searching for a whole word finds it wherever it stands. -/
theorem firstMatch_wholeWord {c : Char} {word line : List Char} (first : isWordChar c = true)
    (last : (c :: word).getLast?.any isWordChar = true) :
    (firstMatch (wholeWord (c :: word)) line).isSome = true ↔ HasWord (c :: word) line := by
  constructor
  · intro found
    obtain ⟨answer, found⟩ := Option.isSome_iff_exists.1 found
    obtain ⟨front, text, rfl, here⟩ := exists_of_firstMatchFrom found
    rw [Option.or_none] at here
    obtain ⟨back, rfl, before, behind⟩ := (wholeWord_eq_some first last).1 here
    exact ⟨front, back, rfl, before, behind⟩
  · rintro ⟨front, back, rfl, before, behind⟩
    apply firstMatchFrom_isSome
    rw [Option.or_none, (wholeWord_eq_some first last).2 ⟨back, rfl, before, behind⟩]
    rfl

theorem Catalogue.mentionsInt_iff (line : List Char) :
    Catalogue.mentionsInt line = true ↔ HasWord "Int".toList line :=
  firstMatch_wholeWord (by decide) (by decide)

/-! ## The rule -/

def Catalogue.attributes : List AttributeSpec := fieldAttributes ++ modelAttributes

/-- Whether an attribute may be suggested at a cursor inside a block of that kind: attributes of
a block inside models; attributes of a field inside models and type aliases, but not behind two
at-signs, and `id` only on a line with the type `Int`. -/
def AttributeSpec.AllowedAt (spec : AttributeSpec) (kind : BlockKind) (document : Document)
    (cursor : Cursor) : Prop :=
  match spec.target with
  | .block => kind = .model
  | .field => (kind = .model ∨ kind = .typeAlias) ∧ document.symbolBefore cursor 2 ≠ ['@', '@'] ∧
      (spec.name = "id" → HasWord "Int".toList (document.line cursor.line))

def Completion.attributeSpecs (kind : BlockKind) (document : Document) (cursor : Cursor) :
    List AttributeSpec :=
  (if AttributeStart.atCursor document cursor = .block then []
    else Catalogue.fieldAttributesOf (some kind) (document.line cursor.line)) ++
    Catalogue.blockAttributesOf (some kind)

theorem AttributeStart.atCursor_eq_block {document : Document} {cursor : Cursor} :
    AttributeStart.atCursor document cursor = .block ↔
      document.symbolBefore cursor 2 = ['@', '@'] := by
  unfold AttributeStart.atCursor
  simp only
  split
  · simp_all
  · split <;> simp_all

theorem Catalogue.target_fieldAttributes :
    ∀ spec ∈ Catalogue.fieldAttributes, spec.target = .field := by
  simp [Catalogue.fieldAttributes]

theorem Catalogue.target_modelAttributes :
    ∀ spec ∈ Catalogue.modelAttributes, spec.target = .block := by
  simp [Catalogue.modelAttributes]

section

variable {kind : BlockKind} {document : Document} {cursor : Cursor} {spec : AttributeSpec}

theorem Catalogue.mem_blockAttributesOf :
    spec ∈ Catalogue.blockAttributesOf (some kind) ↔
      spec ∈ Catalogue.modelAttributes ∧ spec.AllowedAt kind document cursor := by
  have allowed : spec ∈ Catalogue.modelAttributes →
      (spec.AllowedAt kind document cursor ↔ kind = .model) := by
    intro isIn
    rw [AttributeSpec.AllowedAt, Catalogue.target_modelAttributes spec isIn]
  rw [and_congr_right allowed, Catalogue.blockAttributesOf]
  by_cases isModel : kind = .model
  · simp [isModel]
  · simp [isModel]

theorem Catalogue.mem_fieldAttributesOf :
    (document.symbolBefore cursor 2 ≠ ['@', '@'] ∧
        spec ∈ Catalogue.fieldAttributesOf (some kind) (document.line cursor.line)) ↔
      spec ∈ Catalogue.fieldAttributes ∧ spec.AllowedAt kind document cursor := by
  have allowed : spec ∈ Catalogue.fieldAttributes → (spec.AllowedAt kind document cursor ↔
      (kind = .model ∨ kind = .typeAlias) ∧ document.symbolBefore cursor 2 ≠ ['@', '@'] ∧
        (spec.name = "id" → HasWord "Int".toList (document.line cursor.line))) := by
    intro isIn
    rw [AttributeSpec.AllowedAt, Catalogue.target_fieldAttributes spec isIn]
  have fields : kind.holdsFields = true ↔ kind = .model ∨ kind = .typeAlias := by
    cases kind <;> simp [BlockKind.holdsFields]
  rw [and_congr_right allowed, ← fields, ← Catalogue.mentionsInt_iff, Catalogue.fieldAttributesOf]
  by_cases holds : kind.holdsFields = true
  · simp only [Option.any_some, holds, if_true, List.mem_filter, Bool.or_eq_true, bne_iff_ne]
    tauto
  · simp [holds]

/-- The attributes suggested are those of the table that the rule allows. -/
theorem Completion.mem_attributeSpecs :
    spec ∈ attributeSpecs kind document cursor ↔
      spec ∈ Catalogue.attributes ∧ spec.AllowedAt kind document cursor := by
  rw [attributeSpecs, Catalogue.attributes, List.mem_append, List.mem_append, or_and_right,
    ← Catalogue.mem_fieldAttributesOf, ← Catalogue.mem_blockAttributesOf]
  by_cases isBlock : AttributeStart.atCursor document cursor = .block
  · have signs := AttributeStart.atCursor_eq_block.1 isBlock
    simp [isBlock, signs]
  · have signs := mt AttributeStart.atCursor_eq_block.2 isBlock
    simp [isBlock, signs]

theorem Completion.attributeSpecs_sublist :
    (attributeSpecs kind document cursor).Sublist Catalogue.attributes := by
  apply List.Sublist.append
  · split
    · exact List.nil_sublist _
    · unfold Catalogue.fieldAttributesOf
      split
      · exact List.filter_sublist
      · exact List.nil_sublist _
  · unfold Catalogue.blockAttributesOf
    split
    · exact List.Sublist.refl _
    · exact List.nil_sublist _

end

/-! ## What is still to be typed -/

/-- What has been typed and the label spell the attribute out, where two at-signs start no
attribute of a field. -/
theorem AttributeStart.typed_append_label {start : AttributeStart} {spec : AttributeSpec}
    (fits : start = .block → spec.target = .block) :
    start.typed ++ (Item.ofSpec start.typed spec).label = spec.target.signs ++ spec.label := by
  have begun : start.typed.toList <+: spec.target.signs.toList := by
    cases start with
    | block =>
        rw [fits rfl]
        exact List.prefix_refl _
    | field =>
        cases spec.target with
        | block => exact ⟨['@'], rfl⟩
        | field => exact List.prefix_refl _
    | plain => exact List.nil_prefix
  obtain ⟨rest, signs⟩ := begun
  rw [← String.toList_inj]
  simp only [Item.ofSpec, String.toList_append, String.toList_ofList, ← signs,
    ← String.length_toList, List.drop_left, List.append_assoc]

theorem AttributeSpec.AllowedAt.typed_append_label {spec : AttributeSpec} {kind : BlockKind}
    {document : Document} {cursor : Cursor} (allowed : spec.AllowedAt kind document cursor) :
    (AttributeStart.atCursor document cursor).typed ++
        (Item.ofSpec (AttributeStart.atCursor document cursor).typed spec).label =
      spec.target.signs ++ spec.label := by
  apply AttributeStart.typed_append_label
  intro isBlock
  cases target : spec.target with
  | block => rfl
  | field =>
      rw [AllowedAt, target] at allowed
      exact absurd (AttributeStart.atCursor_eq_block.1 isBlock) allowed.2.1

/-- Whatever has been typed, the table leads to items that all differ. -/
theorem Catalogue.nodup_attributes (start : AttributeStart) :
    (Catalogue.attributes.map (Item.ofSpec start.typed)).Nodup := by
  cases start <;> decide +kernel

/-! ## Where nothing has been typed -/

/-- The characters in front of a cursor are the last ones of its line in front of it. -/
theorem Document.symbolBefore_eq_drop (document : Document) {cursor : Cursor} (length : Int)
    (inside : 0 ≤ cursor.character) :
    document.symbolBefore cursor length = (document.textBefore cursor).drop
      (((document.textBefore cursor).length : Int) - length).toNat := by
  have stop : min cursor.character.toNat (document.line cursor.line).length =
      (min cursor.character (document.line cursor.line).length).toNat := by omega
  rw [symbolBefore, textBefore, List.length_take, List.take_eq_take_min, stop]
  simp only [slice]
  rw [if_neg (by omega)]
  congr 2
  omega

/-- At the start of a line no at-sign has been typed. -/
theorem AttributeStart.atCursor_of_isFirstWord {document : Document} {cursor : Cursor}
    (inside : 0 ≤ cursor.character) (isFirst : isFirstWord (document.textBefore cursor) = true) :
    AttributeStart.atCursor document cursor = .plain := by
  have noSign : '@' ∉ document.textBefore cursor := by
    intro isIn
    rw [not_isFirstWord_of_mem isIn (by decide) (by decide)] at isFirst
    cases isFirst
  have noSymbol : '@' ∉ document.symbolBefore cursor 2 := by
    rw [document.symbolBefore_eq_drop 2 inside]
    exact mt List.mem_of_mem_drop noSign
  unfold atCursor
  simp only
  rw [if_neg, if_neg]
  · intro same
    simp [same] at noSymbol
  · intro same
    simp [same] at noSymbol

/-- Text in front of a cursor is on a line of the document. -/
theorem Document.inside_of_textBefore {document : Document} {cursor : Cursor}
    (typed : document.textBefore cursor ≠ []) :
    ¬(cursor.line < 0 ∨ cursor.character < 0 ∨ document.lines.length < cursor.line) := by
  contrapose! typed
  rw [textBefore]
  rcases typed with above | before | below
  · rw [line, if_pos above, List.take_nil]
  · rw [Int.toNat_of_nonpos (by omega), List.take_zero]
  · rw [line, if_neg (by omega), List.getD_eq_default _ _ (by omega), List.take_nil]

/-! ## Where items with a target come from -/

def Untargeted (items : List Item) : Prop := ∀ item ∈ items, item.target = none

namespace Untargeted

theorem nil : Untargeted [] := List.forall_mem_nil _

theorem map {α : Type} {make : α → Item} (plain : ∀ a, (make a).target = none) (list : List α) :
    Untargeted (list.map make) := by
  intro item isIn
  obtain ⟨a, -, rfl⟩ := List.mem_map.1 isIn
  exact plain a

theorem ofEntry (entries : List Entry) : Untargeted (entries.map .ofEntry) :=
  map (fun _ => rfl) entries

theorem ofLabel (kind : ItemKind) (labels : List String) :
    Untargeted (labels.map (.ofLabel kind)) := map (fun _ => rfl) labels

theorem append {first second : List Item} (h₁ : Untargeted first) (h₂ : Untargeted second) :
    Untargeted (first ++ second) :=
  fun item isIn => (List.mem_append.1 isIn).elim (h₁ item) (h₂ item)

theorem getD {items : Option (List Item)} (known : ∀ list ∈ items, Untargeted list) :
    Untargeted (items.getD []) := by
  cases items with
  | none => exact nil
  | some list => exact known list rfl

end Untargeted

namespace Completion

variable {document : Document} {cursor : Cursor} {schema : Option Schema}
  {settings : CompletionSettings}

theorem untargeted_fieldItems? (block : BlockView) (line : List Char) (number : Int)
    (argument : Option String) :
    ∀ list ∈ fieldItems? block line number argument, Untargeted list := by
  intro list found
  obtain ⟨names, -, rfl⟩ := Option.map_eq_some_iff.1 found
  exact .ofLabel .field names

theorem untargeted_relationItems? (block : BlockView) (line : List Char) (number : Int)
    (arguments : List Char) :
    ∀ list ∈ relationItems? block line number arguments, Untargeted list := by
  intro list found
  unfold relationItems? at found
  split at found
  · exact untargeted_fieldItems? _ _ _ _ list found
  · split at found
    · cases found
      exact .ofLabel .property _
    · cases found
      exact .nil

theorem untargeted_argumentItems? (block : Option BlockView) :
    ∀ list ∈ argumentItems? document cursor block, Untargeted list := by
  intro list found
  unfold argumentItems? at found
  split at found
  · simp only at found
    split at found
    · cases found
      exact .nil
    split at found
    · cases found
      exact .ofLabel .function _
    split at found
    · exact untargeted_relationItems? _ _ _ _ list found
    split at found
    · exact untargeted_fieldItems? _ _ _ _ list found
    · cases found
      exact .nil
  · cases found
    exact .nil

theorem untargeted_typeItems (block : Option BlockView) :
    Untargeted (typeItems block document schema) := by
  unfold typeItems
  split
  · exact .nil
  · exact (Untargeted.ofEntry _).append (.ofLabel .typeParameter _)

theorem untargeted_fieldValueItems (kind : Option BlockKind) :
    Untargeted (fieldValueItems kind document cursor settings) := by
  unfold fieldValueItems
  simp only
  split
  · exact .nil
  · exact .map (fun _ => rfl) _

/-- At the start of a line only attributes of a block have a target. -/
theorem exists_spec_of_firstMember {kind : Option BlockKind} {block : Option BlockView}
    {item : Item} (offered : item ∈ (firstMemberItems? kind document cursor schema block).getD [])
    {target : Target} (targeted : item.target = some target) :
    ∃ spec ∈ Catalogue.blockAttributesOf kind, item = .ofSpec "" spec := by
  unfold firstMemberItems? at offered
  split at offered
  · cases offered
  · split at offered
    · simp only at offered
      generalize Candidates.unusedKeys? _ _ _ = keys at offered
      cases keys with
      | none => cases offered
      | some keys =>
          rw [Untargeted.ofEntry keys item offered] at targeted
          cases targeted
    · obtain ⟨spec, known, rfl⟩ := List.mem_map.1 offered
      exact ⟨spec, known, rfl⟩

/-- An item with a target is a suggested attribute of the block around the cursor. -/
theorem exists_spec_of_targeted {item : Item}
    (offered : item ∈ items document cursor schema settings) {target : Target}
    (targeted : item.target = some target) :
    ∃ view spec, BlockView.find? document cursor.line schema = some view ∧
      spec ∈ attributeSpecs view.kind document cursor ∧
      item = .ofSpec (AttributeStart.atCursor document cursor).typed spec := by
  have untargeted {list : List Item} (plain : Untargeted list) (isIn : item ∈ list) : False := by
    rw [plain item isIn] at targeted
    cases targeted
  unfold items at offered
  split at offered
  · cases offered
  rename_i inside
  simp only at offered
  generalize block : BlockView.find? document cursor.line schema = found at offered
  generalize place : Context.atCursor document cursor found = context at offered
  cases found with
  | none =>
      cases context <;> first
        | exact (untargeted (.ofEntry _) offered).elim
        | cases offered
  | some view =>
      refine ⟨view, ?_⟩
      cases context with
      | blockKind => exact (untargeted (.ofEntry _) offered).elim
      | nothing => cases offered
      | firstMember =>
          obtain ⟨spec, known, rfl⟩ := exists_spec_of_firstMember offered targeted
          have isFirst : isFirstWord (document.textBefore cursor) = true :=
            Context.fits_of_atCursor place
          have plain := AttributeStart.atCursor_of_isFirstWord (by omega) isFirst
          refine ⟨spec, rfl, List.mem_append_right _ known, ?_⟩
          rw [plain]
          rfl
      | attributeName =>
          obtain ⟨spec, known, rfl⟩ := List.mem_map.1 offered
          exact ⟨spec, rfl, known, rfl⟩
      | attributeArgument =>
          exact (untargeted (.getD (untargeted_argumentItems? _)) offered).elim
      | fieldType => exact (untargeted (untargeted_typeItems _) offered).elim
      | fieldValue => exact (untargeted (untargeted_fieldValueItems _) offered).elim

/-- At the place of an attribute all suggested ones are offered. -/
theorem items_eq_of_attributeName (settings : CompletionSettings)
    (place : Context.atCursor document cursor (BlockView.find? document cursor.line schema) =
      .attributeName) :
    ∃ view, BlockView.find? document cursor.line schema = some view ∧
      items document cursor schema settings = (attributeSpecs view.kind document cursor).map
        (.ofSpec (AttributeStart.atCursor document cursor).typed) := by
  cases block : BlockView.find? document cursor.line schema with
  | none =>
      rw [block, Context.atCursor] at place
      split at place <;> cases place
  | some view =>
      rw [block] at place
      refine ⟨view, rfl, ?_⟩
      rw [items, if_neg (Document.inside_of_textBefore (Context.fits_of_atCursor place)),
        block]
      show itemsIn (Context.atCursor document cursor (some view)) _ _ _ _ _ = _
      rw [place]
      rfl

/-- **Attribute suggestions are sound and complete.**  An item with a target is an attribute of
the table that is allowed at the cursor, and behind the at-signs that have been typed its label
spells it out.  At the place of an attribute the items are the allowed attributes in the order of
the table, each once. -/
theorem targetedItems_sound_complete (document : Document) (cursor : Cursor)
    (schema : Option Schema) (settings : CompletionSettings) :
    (∀ item ∈ items document cursor schema settings, ∀ target, item.target = some target →
      ∃ view spec, BlockView.find? document cursor.line schema = some view ∧
        spec ∈ Catalogue.attributes ∧ spec.target = target ∧
        spec.AllowedAt view.kind document cursor ∧
        item = .ofSpec (AttributeStart.atCursor document cursor).typed spec ∧
        (AttributeStart.atCursor document cursor).typed ++ item.label =
          target.signs ++ spec.label) ∧
      (Context.atCursor document cursor (BlockView.find? document cursor.line schema) =
          .attributeName →
        ∃ view, ∃ specs : List AttributeSpec,
          BlockView.find? document cursor.line schema = some view ∧
          specs.Sublist Catalogue.attributes ∧
          (∀ spec ∈ Catalogue.attributes,
            spec ∈ specs ↔ spec.AllowedAt view.kind document cursor) ∧
          items document cursor schema settings =
            specs.map (.ofSpec (AttributeStart.atCursor document cursor).typed) ∧
          (items document cursor schema settings).Nodup) := by
  constructor
  · intro item offered target targeted
    obtain ⟨view, spec, block, suggested, rfl⟩ := exists_spec_of_targeted offered targeted
    obtain ⟨isIn, allowed⟩ := mem_attributeSpecs.1 suggested
    have same : spec.target = target := Option.some.inj targeted
    refine ⟨view, spec, block, isIn, same, allowed, rfl, ?_⟩
    rw [allowed.typed_append_label, same]
  · intro place
    obtain ⟨view, block, listed⟩ := items_eq_of_attributeName settings place
    have sublist : (attributeSpecs view.kind document cursor).Sublist Catalogue.attributes :=
      attributeSpecs_sublist
    refine ⟨view, _, block, sublist, fun spec isIn => ?_, listed, ?_⟩
    · rw [mem_attributeSpecs, and_iff_right isIn]
    · rw [listed]
      exact (Catalogue.nodup_attributes _).sublist (sublist.map _)

/-- A type alias in which an attribute has been begun. -/
def signedAlias : Document := .ofText "type_alias Key \x7b\n  id Int @\n\x7d"

theorem targetedItems_sound_complete_signedAlias :
    let item := Item.ofSpec "@" Catalogue.fieldAttributes[0]
    item ∈ items signedAlias ⟨1, 10⟩ none {} ∧ item.target = some .field ∧
      (∃ view, ∃ spec ∈ Catalogue.attributes, BlockView.find? signedAlias 1 none = some view ∧
        spec.AllowedAt view.kind signedAlias ⟨1, 10⟩ ∧ "@" ++ item.label = "@" ++ spec.label) ∧
      Context.atCursor signedAlias ⟨1, 10⟩ (BlockView.find? signedAlias 1 none) = .attributeName ∧
      (items signedAlias ⟨1, 10⟩ none {}).Nodup := by
  intro item
  have offered : item ∈ items signedAlias ⟨1, 10⟩ none {} := by decide +kernel
  have place : Context.atCursor signedAlias ⟨1, 10⟩ (BlockView.find? signedAlias 1 none) =
      .attributeName := by decide +kernel
  have start : (AttributeStart.atCursor signedAlias ⟨1, 10⟩).typed = "@" := by decide +kernel
  obtain ⟨sound, complete⟩ := targetedItems_sound_complete signedAlias ⟨1, 10⟩ none {}
  obtain ⟨view, spec, block, isIn, -, allowed, -, spelled⟩ := sound item offered .field rfl
  obtain ⟨-, -, -, -, -, -, each⟩ := complete place
  rw [start] at spelled
  exact ⟨offered, rfl, ⟨view, spec, isIn, block, allowed, spelled⟩, place, each⟩

end Completion

end SchemaAssist
