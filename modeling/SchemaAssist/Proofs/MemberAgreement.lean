/-
# SchemaAssist.Proofs.MemberAgreement — the members of a block, parsed or scanned

Where the blocks of a text are laid out on lines and their members lead the lines, the tree
and the scan list the same members and the same fields of every block, whichever line is
left out (`memberNames?_scanned_eq_parsed`).

Blocks on lines are not enough.  A list of arguments may go on over a line end, and scanning
takes a name in front of its next line for that of a member
(`memberNames?_continuedModel`).
-/
import SchemaAssist.Proofs.BlockLocation
import SchemaAssist.Proofs.Layout.Leading
import SchemaAssist.Proofs.Layout.Shown

namespace SchemaAssist

set_option autoImplicit false

open Text Scan Grammar

/-- **The tree and the scan list the same members** around every line inside a block, and the
same fields. -/
theorem memberNames?_scanned_eq_parsed {text : String} {schema : Schema} {segments : List Segment}
    (parsed : Schema.parse? text = some schema) (layout : BlocksOnLines text segments)
    (lead : MembersLead (tokensOf segments)) {b : Block} (isIn : b ∈ schema.blocks) {line : Int}
    (inside : b.containsLine line = true) (exclude : Option Int) :
    ∃ scanned, ScannedBlock.at? (Document.ofText text) line = some scanned ∧
      (BlockView.scanned scanned).memberNames? exclude =
        (BlockView.parsed b).memberNames? exclude ∧
      (BlockView.scanned scanned).fieldNames? exclude =
        (BlockView.parsed b).fieldNames? exclude := by
  have laid := layout.laid
  have derived := isSchema_of_parse? parsed layout.segmented
  have outline := laid.outline derived
  have found := outline.blockAtLine?_eq_some.2 ⟨isIn, inside⟩
  obtain ⟨below, above⟩ : b.startLine < line ∧ line < b.endLine := by
    simpa [Block.containsLine] using inside
  obtain ⟨before, keyword, token, opening, inner, closing, after, placed⟩ := derived.isPlaced isIn
  obtain ⟨increasing, within, reads⟩ := lead.declares laid placed (by omega)
  have same : (BlockView.scanned ⟨b.kind, b.name, b.startLine, b.endLine,
      (Document.ofText text).lines⟩).memberNames? exclude =
        (BlockView.parsed b).memberNames? exclude :=
    outline.memberNames?_eq isIn (by omega) increasing within fun n low high _ =>
      reads n low high
  refine ⟨_, (outline.at?_eq line).trans (congrArg _ found), same, ?_⟩
  rw [BlockView.fieldNames?, BlockView.fieldNames?, same]

/-- A model with lists of arguments that go on over line ends, a comment and a blank line. -/
def spreadModel : String :=
  "model A \x7b\n  x Int @y([\r\n    \"enum\"\n  ]) // c\n\n  @@a.b([\n    -1])\n\x7d"

def spreadTokens : List Token :=
  [⟨.keyword .model, 1, 1⟩, ⟨.word "A", 1, 7⟩, ⟨.punct .braceOpen, 1, 9⟩, ⟨.newline, 1, 10⟩,
    ⟨.word "x", 2, 3⟩, ⟨.word "Int", 2, 5⟩, ⟨.punct .atSign, 2, 9⟩, ⟨.word "y", 2, 10⟩,
    ⟨.punct .parenOpen, 2, 11⟩, ⟨.punct .bracketOpen, 2, 12⟩, ⟨.string "enum", 3, 5⟩,
    ⟨.punct .bracketClose, 4, 3⟩, ⟨.punct .parenClose, 4, 4⟩, ⟨.newline, 4, 10⟩,
    ⟨.newline, 5, 1⟩, ⟨.punct .doubleAt, 6, 3⟩, ⟨.word "a", 6, 5⟩, ⟨.punct .dot, 6, 6⟩,
    ⟨.word "b", 6, 7⟩, ⟨.punct .parenOpen, 6, 8⟩, ⟨.punct .bracketOpen, 6, 9⟩,
    ⟨.number "-1", 7, 5⟩, ⟨.punct .bracketClose, 7, 7⟩, ⟨.punct .parenClose, 7, 8⟩,
    ⟨.newline, 7, 9⟩, ⟨.punct .braceClose, 8, 1⟩]

def spreadBlock : Block :=
  .ofMembers .model "A" ⟨1, 1⟩ ⟨8, 1⟩
    [.field ⟨"x", ⟨"Int", false, false⟩,
      [⟨"y", false, [⟨none, ⟨.array, "", [⟨.string, "enum", []⟩]⟩⟩], 1⟩], 1⟩,
      .blockAttribute ⟨"a.b", true, [⟨none, ⟨.array, "", [⟨.number, "-1", []⟩]⟩⟩], 5⟩]

theorem spreadTokens_lead (ordered : spreadTokens.Pairwise Precedes) :
    MembersLead spreadTokens where
  below {b before keyword token opening inner closing after} placed hasBody := by
    obtain ⟨-, front, -⟩ := placed.isBlock.eq_tokens placed.shape (by decide) (by decide)
    obtain ⟨rfl, behind⟩ := List.cons.inj front
    obtain rfl : inner = spreadTokens.dropLast.drop 3 := congrArg (List.drop 2) behind
    decide
  tight := tightAttributes_of_isChain (by unfold Touches; decide)
  continued := continuesUnnamed_of_isChain ordered (by decide)

theorem memberNames?_spreadModel :
    Schema.parse? spreadModel = some ⟨[spreadBlock]⟩ ∧ spreadBlock.containsLine 6 = true ∧
      ∃ scanned, ScannedBlock.at? (Document.ofText spreadModel) 6 = some scanned ∧
        (BlockView.scanned scanned).memberNames? (some 3) = some ["x", "@@a.b"] ∧
        (BlockView.scanned scanned).fieldNames? (some 3) = some ["x"] := by
  have lexed : TokenStream.ofText spreadModel = .ok ⟨spreadTokens, ⟨8, 2⟩⟩ := by decide +kernel
  have read : Schema.ofTokens ⟨spreadTokens, ⟨8, 2⟩⟩ = .ok ⟨[spreadBlock]⟩ := by decide +kernel
  obtain ⟨parsed, segments, segmented, tokens⟩ := parse?_of_ofText lexed read
  have layout : BlocksOnLines spreadModel segments :=
    .ofSingle segmented tokens (.of_isChain (by decide +kernel) (by decide +kernel)) (by decide)
      (by decide) (by decide) (by decide +kernel) (by unfold FirstOnLine; decide)
  have lead : MembersLead (tokensOf segments) :=
    tokens ▸ spreadTokens_lead (tokens ▸ segmented.ordered)
  obtain ⟨scanned, found, members, fields⟩ := memberNames?_scanned_eq_parsed parsed layout lead
    (List.mem_singleton_self spreadBlock) (by decide : spreadBlock.containsLine 6 = true) (some 3)
  refine ⟨parsed, by decide, scanned, found, members.trans ?_, fields.trans ?_⟩
  · decide +kernel
  · decide +kernel

/-- Where a list goes on with a name, scanning lists that name as well. -/
theorem memberNames?_continuedModel :
    Schema.parse? continuedModel = some ⟨[continuedBlock]⟩ ∧
      (∃ segments, BlocksOnLines continuedModel segments) ∧
      continuedBlock.containsLine 1 = true ∧
      (BlockView.parsed continuedBlock).memberNames? none = some ["x"] ∧
      (ScannedBlock.at? (Document.ofText continuedModel) 1).bind (·.memberNames? none) =
        some ["x", "enum"] := by
  have lexed : TokenStream.ofText continuedModel = .ok ⟨continuedTokens, ⟨4, 2⟩⟩ := by
    decide +kernel
  have read : Schema.ofTokens ⟨continuedTokens, ⟨4, 2⟩⟩ = .ok ⟨[continuedBlock]⟩ := by
    decide +kernel
  obtain ⟨parsed, segments, segmented, tokens⟩ := parse?_of_ofText lexed read
  refine ⟨parsed, ⟨segments, continuedModel_onLines segmented tokens⟩, ?_, ?_, ?_⟩
  all_goals decide +kernel

end SchemaAssist
