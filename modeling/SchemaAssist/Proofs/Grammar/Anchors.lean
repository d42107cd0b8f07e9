/-
# SchemaAssist.Proofs.Grammar.Anchors — the tokens that the lines of a tree are taken from

Every number of a line in a tree was taken from one token: the keyword or the closing brace of
a block, the name of a member, the at-signs of an attribute.  `Schema.anchors` lists the
numbers, each with the spelling that its token must have, and in a derivation each of them
finds a token of its own (`IsSchema.takenFrom`).

The members of a block are kept by sort, so the numbers are not listed in the order of the
text; they are matched with the tokens one to one all the same (`TakenFrom`).
-/
import SchemaAssist.Proofs.Grammar
import Mathlib.Data.List.Perm.Subperm
import Mathlib.Data.List.Forall2
import Mathlib.Data.List.Perm.Basic

namespace SchemaAssist

set_option autoImplicit false

/-! ## Anchors -/

/-- A number of a line, and the spelling of the token that it is taken from. -/
structure Anchor where
  line : Int
  spelling : String
  deriving DecidableEq

/-- The token is a name or a sign with that spelling, and stands on that line. -/
structure Anchor.IsOf (a : Anchor) (t : Token) : Prop where
  spelled : t.lexeme.name? = some a.spelling ∨
    ∃ p : Punct, t.lexeme = .punct p ∧ p.text = a.spelling
  row : t.mark.row = a.line

/-- An attribute stands where its at-signs stand. -/
def Attribute.anchor (attr : Attribute) : Anchor :=
  ⟨attr.line, (if attr.isBlock then Punct.doubleAt else Punct.atSign).text⟩

/-- The numbers of a member: where its name stands, and its attributes. -/
def Member.anchors : Member → List Anchor
  | assignment a => [⟨a.line, a.key⟩]
  | field f => ⟨f.line, f.name⟩ :: f.attributes.map Attribute.anchor
  | value v => ⟨v.line, v.name⟩ :: v.attributes.map Attribute.anchor
  | blockAttribute a => [a.anchor]

def Block.anchors (b : Block) : List Anchor :=
  ⟨b.startLine, b.kind.keyword⟩ :: ⟨b.endLine, Punct.braceClose.text⟩ ::
    ((b.assignments.map Member.assignment ++ b.fields.map Member.field ++
      b.attributes.map Member.blockAttribute ++ b.values.map Member.value).flatMap Member.anchors)

def Schema.anchors (schema : Schema) : List Anchor := schema.blocks.flatMap Block.anchors

/-- Each of the numbers is taken from a token of its own. -/
def TakenFrom (anchors : List Anchor) (tokens : List Token) : Prop :=
  ∃ own, own.Subperm tokens ∧ List.Forall₂ Anchor.IsOf anchors own

namespace TakenFrom

variable {anchors others : List Anchor} {tokens more : List Token}

theorem nil (tokens : List Token) : TakenFrom [] tokens := ⟨[], List.nil_subperm, .nil⟩

theorem cons {a : Anchor} {t : Token} (here : a.IsOf t) (behind : TakenFrom anchors tokens) :
    TakenFrom (a :: anchors) (t :: tokens) := by
  obtain ⟨own, part, same⟩ := behind
  exact ⟨t :: own, (List.subperm_cons t).2 part, .cons here same⟩

theorem append (first : TakenFrom anchors tokens) (second : TakenFrom others more) :
    TakenFrom (anchors ++ others) (tokens ++ more) := by
  obtain ⟨own, part, same⟩ := first
  obtain ⟨own', part', same'⟩ := second
  exact ⟨own ++ own', part.append part', List.rel_append same same'⟩

/-- Further tokens do no harm. -/
theorem mono (taken : TakenFrom anchors tokens) (part : tokens.Sublist more) :
    TakenFrom anchors more := by
  obtain ⟨own, within, same⟩ := taken
  exact ⟨own, within.trans part.subperm, same⟩

/-- The numbers may be listed in another order. -/
theorem perm (taken : TakenFrom anchors tokens) (same : others.Perm anchors) :
    TakenFrom others tokens := by
  obtain ⟨own, within, matched⟩ := taken
  obtain ⟨own', matched', swapped⟩ := List.perm_comp_forall₂ same matched
  exact ⟨own', swapped.subperm.trans within, matched'⟩

end TakenFrom

/-! ## Members by sort -/

/-- Sorted by their kinds, the members of a block are the same. -/
theorem members_perm (members : List Member) :
    ((members.filterMap Member.assignment?).map Member.assignment ++
      (members.filterMap Member.field?).map Member.field ++
      (members.filterMap Member.blockAttribute?).map Member.blockAttribute ++
      (members.filterMap Member.value?).map Member.value).Perm members := by
  induction members with
  | nil => exact .refl _
  | cons m members ih =>
      have put {front back : List Member} (same : (front ++ back).Perm members) :
          (front ++ m :: back).Perm (m :: members) := List.perm_middle.trans (same.cons m)
      simp only [List.append_assoc] at ih ⊢
      cases m with
      | assignment a => exact ih.cons _
      | field f => exact put ih
      | blockAttribute a =>
          rw [← List.append_assoc] at ih ⊢
          exact put ih
      | value v =>
          rw [← List.append_assoc, ← List.append_assoc] at ih ⊢
          exact put ih

namespace Grammar

theorem IsAttributes.takenFrom {tokens : List Token} {list : List Attribute}
    (attributes : IsAttributes tokens list) : TakenFrom (list.map Attribute.anchor) tokens := by
  induction attributes with
  | none => exact .nil _
  | @more sign tokens rest attr others isSign isAttribute _ ih =>
      have here : attr.anchor.IsOf sign := by
        cases isAttribute
        exact ⟨.inr ⟨_, isSign, rfl⟩, rfl⟩
      exact .cons here (ih.mono (List.sublist_append_right _ _))

/-- The numbers of a member come from its own tokens. -/
theorem IsMember.takenFrom {kind : BlockKind} {tokens : List Token} {m : Member}
    (member : IsMember kind tokens m) : TakenFrom m.anchors tokens := by
  cases member with
  | assignment _ named _ _ => exact .cons ⟨.inl named, rfl⟩ (.nil _)
  | @field token type list optional tokens _ _ _ _ _ _ named _ _ _ attributes =>
      have behind := attributes.takenFrom.mono
        (List.sublist_append_right (type :: list ++ optional) _)
      exact .cons ⟨.inl named, rfl⟩ behind
  | value _ named attributes => exact .cons ⟨.inl named, rfl⟩ attributes.takenFrom
  | @blockAttribute sign _ attr _ isSign isAttribute =>
      have here : attr.anchor.IsOf sign := by
        cases isAttribute
        exact ⟨.inr ⟨_, isSign, rfl⟩, rfl⟩
      exact .cons here (.nil _)

theorem IsBody.takenFrom {kind : BlockKind} {body : List Token} {members : List Member}
    (isBody : IsBody kind body members) : TakenFrom (members.flatMap Member.anchors) body := by
  induction isBody with
  | empty => exact .nil _
  | last member => simpa using member.takenFrom
  | more member _ _ _ ih =>
      rw [List.flatMap_cons]
      exact (member.takenFrom.mono (List.sublist_append_left _ _)).append ih

theorem IsBlock.takenFrom {tokens : List Token} {b : Block} (isBlock : IsBlock tokens b) :
    TakenFrom b.anchors tokens := by
  cases isBlock with
  | @intro keyword token opening closing ends body kind name members isKeyword named opens
      allEnds isBody closes =>
      have first : Anchor.IsOf ⟨keyword.mark.row, kind.keyword⟩ keyword :=
        ⟨.inl (by rw [isKeyword]; rfl), rfl⟩
      have last : Anchor.IsOf ⟨closing.mark.row, Punct.braceClose.text⟩ closing :=
        ⟨.inr ⟨_, closes, rfl⟩, rfl⟩
      have inner := isBody.takenFrom.append (.cons last (.nil []))
      have whole := TakenFrom.cons first
        (inner.mono (List.sublist_append_right (token :: opening :: ends) _))
      rw [List.append_assoc]
      refine whole.perm (.cons _ ?_)
      have sorted := (members_perm members).flatMap_right Member.anchors
      exact (sorted.cons _).trans (List.perm_append_singleton _ _).symm

theorem IsBlocks.takenFrom {tokens : List Token} {blocks : List Block}
    (isBlocks : IsBlocks tokens blocks) : TakenFrom (blocks.flatMap Block.anchors) tokens := by
  induction isBlocks with
  | none => exact .nil _
  | more isBlock _ _ ih =>
      rw [List.flatMap_cons]
      exact (isBlock.takenFrom.mono (List.sublist_append_left _ _)).append ih

/-- **Each number of a line in a tree was taken from a token of its own**, which stands on that
line and is spelled as it should be. -/
theorem IsSchema.takenFrom {tokens : List Token} {schema : Schema}
    (derived : IsSchema tokens schema) : TakenFrom schema.anchors tokens := by
  cases derived with
  | intro _ isBlocks => exact isBlocks.takenFrom.mono (List.sublist_append_right _ _)

end Grammar

end SchemaAssist
