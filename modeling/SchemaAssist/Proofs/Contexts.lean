/-
# SchemaAssist.Proofs.Contexts — what a context says about the text in front of the cursor

Inside a block every context but the empty one stands for a shape of the text in front of the
cursor (`Context.Fits`), and block keywords have no shape there.  That is all that the suggestions
need to know about how the context was found.

The other way round, the text in front of the cursor and the kind of the block tell the context
(`Context.behind`), as long as the block does not end before it starts.
-/
import SchemaAssist.Completion
import SchemaAssist.Proofs.Text.Blanks

namespace SchemaAssist

set_option autoImplicit false

open Text

/-- A text with a character that is neither blank nor of a word is more than a first word. -/
theorem not_isFirstWord_of_mem {text : List Char} {c : Char} (isIn : c ∈ text)
    (noBlank : isBlank c = false) (noWord : isWordChar c = false) : isFirstWord text = false := by
  rw [isFirstWord, List.all_eq_false]
  exact ⟨c, mem_trimStart isIn noBlank, by simp [noWord]⟩

namespace Context

/-- The text in front of a cursor inside a block has the shape that the context stands for. -/
def Fits (text : List Char) : Context → Prop
  | blockKind => False
  | firstMember => isFirstWord text = true
  | attributeName => text ≠ []
  | attributeArgument => (openCall? text).isSome = true
  | fieldType => isTypePosition text = true
  | fieldValue => '=' ∈ text
  | nothing => True

theorem fits_ofAttributeText {text : List Char} {context : Context}
    (found : ofAttributeText text = some context) : context.Fits text := by
  unfold ofAttributeText at found
  split at found
  · rename_i call opened
    split at found
    · cases found
      exact Option.isSome_of_eq_some opened
    · cases found
      trivial
  · split at found
    · cases found
      trivial
    · split at found
      · rename_i ends
        cases found
        rintro rfl
        exact absurd ends (by decide)
      · cases found

theorem fits_ofBodyText (kind : BlockKind) (text : List Char) :
    (ofBodyText kind text).Fits text := by
  unfold ofBodyText
  split
  · rename_i context found
    split at found
    · exact fits_ofAttributeText found
    · cases found
  split
  · assumption
  rename_i later
  split
  · split
    · rename_i assigns
      exact List.contains_iff_mem.1 assigns
    · trivial
  split
  · split
    · assumption
    · rintro rfl
      exact later rfl
  · trivial

/-- A context inside a block fits the text in front of the cursor. -/
theorem fits_of_atCursor {document : Document} {cursor : Cursor} {view : BlockView}
    {context : Context} (here : atCursor document cursor (some view) = context) :
    context.Fits (document.textBefore cursor) := by
  rw [← here, atCursor]
  split
  · trivial
  split
  · trivial
  · exact fits_ofBodyText _ _

/-- The context behind a text, in a block of that kind: nothing in a comment. -/
def behind (kind : BlockKind) (text : List Char) : Context :=
  if ['/', '/'] <+: trimStart text then nothing else ofBodyText kind text

theorem atCursor_wellFormed {view : BlockView} (wellFormed : view.isWellFormed = true)
    (document : Document) (cursor : Cursor) :
    atCursor document cursor (some view) = behind view.kind (document.textBefore cursor) := by
  simp only [atCursor, behind, wellFormed, Bool.not_true, Bool.false_eq_true, if_false,
    isSome_stripWord]

end Context

end SchemaAssist
