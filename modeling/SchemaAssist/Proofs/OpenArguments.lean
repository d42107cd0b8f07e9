/-
# SchemaAssist.Proofs.OpenArguments — the cursor behind an open parenthesis

Behind a parenthesis that is still open a cursor stands among arguments, and no member starts
there.  If the innermost open parenthesis is that of an attribute, arguments belong there or
nothing does (`ofBodyText_attribute`).  If it is that of a function, the text is told by its
words like any other, and unless the line is a comment or goes on with an argument list, an
attribute or a type is suggested in the middle of the arguments (`ofBodyText_function`).

`atCursor_openParen` says exactly when arguments or nothing belong behind an open parenthesis,
and `atCursor_nestedCall` is a call inside an attribute where something else is suggested.
-/
import SchemaAssist.Proofs.Contexts
import SchemaAssist.Proofs.Parentheses

namespace SchemaAssist

set_option autoImplicit false

open Text Scan

namespace Context

variable {kind : BlockKind} {text : List Char} {i : Nat} {outer : List Nat}

/-- Inside the parentheses of an attribute its arguments belong, or nothing. -/
theorem ofBodyText_attribute (holdsFields : kind.holdsFields = true)
    (opened : openParens text = i :: outer) {label : String}
    (named : EndsWithAttribute (text.take i) label) :
    ofBodyText kind text =
      if argumentAttributes.contains label then attributeArgument else nothing := by
  rw [ofBodyText, if_pos holdsFields, ofAttributeText, openCall?_of_attribute opened named]

/-- No member starts behind an open parenthesis. -/
theorem not_isFirstWord_of_openParen (opened : openParens text = i :: outer) :
    isFirstWord text = false := by
  have innermost : i ∈ openParens text := opened ▸ List.mem_cons_self
  have isIn : '(' ∈ text := List.mem_of_getElem? (getElem?_of_openSigns innermost)
  exact not_isFirstWord_of_mem isIn (by decide) (by decide)

/-- Where no arguments and no member belong, the words of the text decide. -/
theorem ofBodyText_words (holdsFields : kind.holdsFields = true) (noCall : openCall? text = none)
    (later : isFirstWord text = false) :
    ofBodyText kind text =
      if continuesArguments text then nothing
      else if !endsInAttribute text && isTypePosition text then fieldType else attributeName := by
  have noAssignments : kind.holdsAssignments = false := by
    cases kind <;> cases holdsFields <;> rfl
  rw [ofBodyText, if_pos holdsFields, ofAttributeText, noCall]
  simp only [later, noAssignments, holdsFields]
  cases continuesArguments text <;> cases endsInAttribute text <;> cases isTypePosition text <;> rfl

/-- So they do inside the parentheses of a function. -/
theorem ofBodyText_function (holdsFields : kind.holdsFields = true)
    (opened : openParens text = i :: outer)
    (unnamed : ∀ label, ¬ EndsWithAttribute (text.take i) label) :
    ofBodyText kind text =
      if continuesArguments text then nothing
      else if !endsInAttribute text && isTypePosition text then fieldType else attributeName :=
  ofBodyText_words holdsFields (openCall?_of_function opened unnamed)
    (not_isFirstWord_of_openParen opened)

/-- **Behind an open parenthesis** arguments or nothing belong exactly if the innermost one is
that of an attribute, or the line is a comment or goes on with an argument list; they are
arguments if the attribute takes suggestions.  Otherwise there is an attribute or a type, but
never a member. -/
theorem atCursor_openParen {document : Document} {cursor : Cursor} {view : BlockView}
    (holdsFields : view.kind.holdsFields = true) (wellFormed : view.isWellFormed = true)
    (opened : openParens (document.textBefore cursor) = i :: outer) :
    let text := document.textBefore cursor
    let context := atCursor document cursor (some view)
    (context = attributeArgument ∨ context = nothing ↔
      (∃ label, EndsWithAttribute (text.take i) label) ∨ ['/', '/'] <+: trimStart text ∨
        continuesArguments text = true) ∧
    (context = attributeArgument ↔ ¬ ['/', '/'] <+: trimStart text ∧
      ∃ label ∈ argumentAttributes, EndsWithAttribute (text.take i) label) ∧
    (context = attributeArgument ∨ context = nothing ∨ context = attributeName ∨
      context = fieldType) := by
  rw [atCursor_wellFormed wellFormed, behind]
  generalize document.textBefore cursor = text at opened
  by_cases comment : ['/', '/'] <+: trimStart text
  · simp [comment]
  by_cases isAttribute : ∃ label, EndsWithAttribute (text.take i) label
  · obtain ⟨label, named⟩ := isAttribute
    have only : (∃ other ∈ argumentAttributes, EndsWithAttribute (text.take i) other) ↔
        label ∈ argumentAttributes := by
      refine ⟨?_, fun known => ⟨label, known, named⟩⟩
      rintro ⟨other, known, named'⟩
      rwa [named.unique named']
    simp only [if_neg comment, ofBodyText_attribute holdsFields opened named, only]
    by_cases known : label ∈ argumentAttributes
    · simp [known, comment, Exists.intro label named]
    · simp [known, comment, Exists.intro label named]
  · have unnamed : ∀ label, ¬ EndsWithAttribute (text.take i) label := not_exists.1 isAttribute
    simp only [if_neg comment, ofBodyText_function holdsFields opened unnamed]
    by_cases continues : continuesArguments text = true
    · simp [continues, unnamed]
    · by_cases isType : (!endsInAttribute text && isTypePosition text) = true
      · simp [continues, unnamed, comment, isType]
      · simp [continues, unnamed, comment, isType]

/-- A model with a closed call among the arguments in front of the cursor. -/
def stampedModel : Document :=
  .ofText "model A \x7b\n  at DateTime @default (now(), \n\x7d"

def stampedBlock : BlockView := .scanned ⟨.model, "A", 0, 2, stampedModel.lines⟩

theorem atCursor_closedCall :
    BlockView.find? stampedModel 1 none = some stampedBlock ∧
      openParens (stampedModel.textBefore ⟨1, 31⟩) = [23] ∧
      atCursor stampedModel ⟨1, 31⟩ (some stampedBlock) = attributeArgument := by
  have opened : openParens (stampedModel.textBefore ⟨1, 31⟩) = [23] := by decide +kernel
  have noComment : ¬ ['/', '/'] <+: trimStart (stampedModel.textBefore ⟨1, 31⟩) := by
    decide +kernel
  have named : EndsWithAttribute ((stampedModel.textBefore ⟨1, 31⟩).take 23) "@default" :=
    ⟨"  at DateTime ".toList, ['@'], "default".toList, [' '], by decide +kernel,
      .inr ⟨rfl, by decide⟩, by decide, List.all_eq_true.1 (by decide),
      List.all_eq_true.1 (by decide), by decide⟩
  refine ⟨by decide +kernel, opened, ?_⟩
  exact (atCursor_openParen rfl (by decide) opened).2.1.2 ⟨noComment, _, by decide, named⟩

/-- Inside a function that is called among the arguments of an attribute, an attribute is
suggested. -/
theorem atCursor_nestedCall :
    let document := Document.ofText "model A \x7b\n  url String @default(env(\n\x7d"
    openParens (document.textBefore ⟨1, 26⟩) = [25, 21] ∧
      (BlockView.find? document 1 none).any (fun view =>
        view.kind.holdsFields && view.isWellFormed) = true ∧
      atCursor document ⟨1, 26⟩ (BlockView.find? document 1 none) = attributeName := by
  decide +kernel

end Context

end SchemaAssist
