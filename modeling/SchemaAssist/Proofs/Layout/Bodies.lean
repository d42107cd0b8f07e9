/-
# SchemaAssist.Proofs.Layout.Bodies — one member to a line

Between two members stands a line end.  So a line inside a block has tokens of one member at
most (`IsBody.memberRow`), and the lines on which members start increase (`IsBody.increasing`).
A member may go on over further lines, unless all stand on one line each (`MembersOnLines`).
-/
import SchemaAssist.Proofs.Layout.Blocks
import SchemaAssist.Proofs.Layout.Declared
import Mathlib.Data.List.Chain

namespace SchemaAssist

set_option autoImplicit false

open Grammar

/-! ## Lines of statements -/

theorem Grammar.IsMember.head {kind : BlockKind} {tokens : List Token} {m : Member}
    (member : IsMember kind tokens m) :
    ∃ first rest, tokens = first :: rest ∧ m.declared.1 = first.mark.row := by
  cases member with
  | assignment _ _ _ _ => exact ⟨_, _, rfl, rfl⟩
  | field _ _ _ _ _ _ => exact ⟨_, _, rfl, rfl⟩
  | value _ _ _ => exact ⟨_, _, rfl, rfl⟩
  | blockAttribute _ _ attr =>
      cases attr with
      | intro _ _ _ => exact ⟨_, _, rfl, rfl⟩

theorem Grammar.IsMember.exists_token {kind : BlockKind} {tokens : List Token} {m : Member}
    (member : IsMember kind tokens m) :
    ∃ t ∈ tokens, t.lexeme ≠ .newline ∧ t.mark.row = m.declared.1 := by
  obtain ⟨first, rest, rfl, place⟩ := member.head
  exact ⟨first, by simp, (member.inside.inner first (by simp)).1, place.symm⟩

/-- A member starts on no line that has none of its tokens. -/
theorem Grammar.IsMember.not_here {kind : BlockKind} {tokens : List Token} {m : Member}
    (member : IsMember kind tokens m) {number : Nat}
    (none : SchemaAssist.lineTokens tokens number = []) : m.declared.1 ≠ number := by
  obtain ⟨first, isIn, other, place⟩ := member.exists_token
  intro here
  rw [← place, Mark.row_eq_iff] at here
  have known : first ∈ SchemaAssist.lineTokens tokens number := mem_lineTokens.2 ⟨isIn, here, other⟩
  rw [none] at known
  cases known

theorem Grammar.IsLineEnds.lineTokens {ends : List Token} (allEnds : IsLineEnds ends)
    (number : Nat) : SchemaAssist.lineTokens ends number = [] :=
  lineTokens_eq_nil fun t isIn other => absurd (allEnds t isIn) other

/-- Every stretch of the tokens that reads as a member stands on the line of the
member. -/
def MembersOnLines (tokens : List Token) : Prop :=
  ∀ before slice after kind m, tokens = before ++ slice ++ after → IsMember kind slice m →
    ∀ t ∈ slice, t.mark.row = m.declared.1

theorem MembersOnLines.part {tokens slice : List Token} (onLines : MembersOnLines tokens)
    (part : slice <:+: tokens) : MembersOnLines slice := by
  obtain ⟨front, back, rfl⟩ := part
  intro before own after kind m shape member
  refine onLines (front ++ before) own (after ++ back) kind m ?_ member
  rw [shape]
  simp

theorem line_of_isChain {first : Token} {rest : List Token}
    (chain : (first :: rest).IsChain fun t u => t.lexeme ≠ .newline → u.mark.line = t.mark.line)
    (inner : ∀ t ∈ first :: rest, t.lexeme ≠ .newline) :
    ∀ t ∈ first :: rest, t.mark.line = first.mark.line := by
  induction rest generalizing first with
  | nil => simp
  | cons second rest ih =>
      obtain ⟨next, onward⟩ := List.isChain_cons_cons.1 chain
      intro t isIn
      rcases List.mem_cons.1 isIn with rfl | isIn
      · rfl
      · rw [ih onward (fun t isIn => inner t (by simp [isIn])) t isIn, next (inner first (by simp))]

/-- If only line ends are followed by a token on another line, members stand on lines. -/
theorem membersOnLines_of_isChain {tokens : List Token}
    (chain : tokens.IsChain fun t u => t.lexeme ≠ .newline → u.mark.line = t.mark.line) :
    MembersOnLines tokens := by
  rintro before slice after kind m rfl member t isIn
  obtain ⟨first, rest, rfl, place⟩ := member.head
  have own := chain.infix ⟨before, after, rfl⟩
  have same := line_of_isChain own (fun t isIn => (member.inside.inner t isIn).1) t isIn
  rw [place, Mark.row, Mark.row, same]

theorem Grammar.IsMember.row {kind : BlockKind} {tokens : List Token} {m : Member}
    (member : IsMember kind tokens m) (onLines : MembersOnLines tokens) :
    ∀ t ∈ tokens, t.mark.row = m.declared.1 :=
  onLines [] tokens [] kind m (by simp) member

theorem Grammar.IsMember.lineTokens_other {kind : BlockKind} {tokens : List Token} {m : Member}
    (member : IsMember kind tokens m) (onLines : MembersOnLines tokens) {number : Nat}
    (other : m.declared.1 ≠ number) : SchemaAssist.lineTokens tokens number = [] := by
  refine lineTokens_eq_nil fun t isIn _ here => other ?_
  rw [← member.row onLines t isIn, Mark.row_eq_iff]
  exact here

/-- Whatever follows behind a line end stands below what stands before it. -/
theorem below_lineEnds {tokens ends rest : List Token} (allEnds : IsLineEnds ends)
    (nonempty : ends ≠ []) (ordered : (tokens ++ ends ++ rest).Pairwise Precedes) :
    ∀ t ∈ tokens, ∀ u ∈ rest, t.mark.line < u.mark.line := by
  intro t isIn u isBelow
  rw [List.pairwise_append, List.pairwise_append] at ordered
  obtain ⟨⟨-, -, toEnds⟩, -, toRest⟩ := ordered
  obtain ⟨lineEnd, others, same⟩ := List.exists_cons_of_ne_nil nonempty
  have above := (toEnds t isIn lineEnd (by simp [same])).1
  have under := (toRest lineEnd (by simp [same]) u isBelow).2 (allEnds lineEnd (by simp [same]))
  omega

/-- Every member of a body starts with one of its tokens. -/
theorem Grammar.IsBody.places {kind : BlockKind} {body : List Token} {members : List Member}
    (isBody : IsBody kind body members) :
    ∀ m ∈ members, ∃ t ∈ body, t.lexeme ≠ .newline ∧ t.mark.row = m.declared.1 := by
  induction isBody with
  | empty => exact List.forall_mem_nil _
  | last member => simpa using member.exists_token
  | more member _ _ _ ih =>
      refine List.forall_mem_cons.2 ⟨?_, fun other isIn => ?_⟩
      · obtain ⟨t, known, same⟩ := member.exists_token
        exact ⟨t, by simp [known], same⟩
      · obtain ⟨t, known, same⟩ := ih other isIn
        exact ⟨t, by simp [known], same⟩

/-- The lines on which the members of a body start increase. -/
theorem Grammar.IsBody.increasing {kind : BlockKind} {body : List Token} {members : List Member}
    (isBody : IsBody kind body members) (ordered : body.Pairwise Precedes) :
    (members.map Member.declared).Pairwise (·.1 < ·.1) := by
  induction isBody with
  | empty => exact .nil
  | last _ => exact List.pairwise_singleton _ _
  | more member allEnds nonempty isBody ih =>
      obtain ⟨-, behind, -⟩ := List.pairwise_append.1 ordered
      refine List.pairwise_cons.2 ⟨fun entry isIn => ?_, ih behind⟩
      obtain ⟨other, known, rfl⟩ := List.mem_map.1 isIn
      obtain ⟨first, inFirst, -, place⟩ := member.exists_token
      obtain ⟨t, inRest, -, same⟩ := isBody.places other known
      have under := below_lineEnds allEnds nonempty ordered first inFirst t inRest
      rw [← same, ← place, Mark.row, Mark.row]
      omega

/-- The row of a line among tokens with their members: it is what one member has on that line,
the only one that may start there, or it is empty and no member starts there. -/
inductive MemberRow (kind : BlockKind) (tokens : List Token) (members : List Member)
    (row : List Token) (number : Nat) : Prop
  | none : row = [] → (∀ m ∈ members, m.declared.1 ≠ number) →
      MemberRow kind tokens members row number
  | one {m : Member} {front slice back : List Token} : m ∈ members → IsMember kind slice m →
      tokens = front ++ slice ++ back → (∀ depth, depthBehind depth front = depth) →
      row = lineTokens slice number → row ≠ [] →
      (∀ other ∈ members, other.declared.1 = number → other = m) →
      MemberRow kind tokens members row number

/-- A row stays the same with balanced tokens in front and any behind. -/
theorem MemberRow.within {kind : BlockKind} {tokens row : List Token} {members : List Member}
    {number : Nat} (known : MemberRow kind tokens members row number) {front : List Token}
    (balanced : ∀ depth, depthBehind depth front = depth) (back : List Token) :
    MemberRow kind (front ++ tokens ++ back) members row number := by
  cases known with
  | none empty clear => exact .none empty clear
  | @one m upper slice lower isIn member shape flat own some only =>
      refine @MemberRow.one _ _ _ _ _ m (front ++ upper) slice (lower ++ back) isIn member ?_
        (fun depth => ?_) own some only
      · rw [shape]
        simp only [List.append_assoc]
      · rw [depthBehind_append, balanced, flat]

/-- A row stays the same with a member in front that does not start there. -/
theorem MemberRow.cons {kind : BlockKind} {tokens row : List Token} {members : List Member}
    {number : Nat} (known : MemberRow kind tokens members row number) {m : Member}
    (away : m.declared.1 ≠ number) : MemberRow kind tokens (m :: members) row number := by
  cases known with
  | none empty clear => exact .none empty (List.forall_mem_cons.2 ⟨away, clear⟩)
  | one isIn member shape flat own some only =>
      exact .one (List.mem_cons_of_mem _ isIn) member shape flat own some
        (List.forall_mem_cons.2 ⟨fun here => absurd here away, only⟩)

/-- **The tokens of a body on one line** belong to one member, the only one that may start
there, or there are none. -/
theorem Grammar.IsBody.memberRow {kind : BlockKind} {body : List Token} {members : List Member}
    (isBody : IsBody kind body members) (ordered : body.Pairwise Precedes) (number : Nat) :
    MemberRow kind body members (lineTokens body number) number := by
  induction isBody with
  | empty => exact .none rfl (List.forall_mem_nil _)
  | @last tokens m member =>
      by_cases none : lineTokens tokens number = []
      · exact .none none (by simpa using member.not_here none)
      · have whole : tokens = [] ++ tokens ++ [] := (List.append_nil tokens).symm
        exact .one (List.mem_singleton_self m) member whole (fun _ => rfl) rfl none (by simp)
  | @more tokens ends rest m others member allEnds nonempty isBody ih =>
      have behind := ih (List.pairwise_append.1 ordered).2.1
      have below := below_lineEnds allEnds nonempty ordered
      have row : lineTokens (tokens ++ ends ++ rest) number =
          lineTokens tokens number ++ lineTokens rest number := by
        rw [lineTokens_append, lineTokens_append, allEnds.lineTokens, List.append_nil]
      by_cases none : lineTokens tokens number = []
      · rw [row, none, List.nil_append, ← List.append_nil (tokens ++ ends ++ rest)]
        refine (behind.within (fun depth => ?_) []).cons (member.not_here none)
        rw [depthBehind_append, member.inside.balanced, allEnds.balanced]
      · -- the line is one of the first member, and the others start below it
        obtain ⟨t, isHere⟩ := List.exists_mem_of_ne_nil _ none
        obtain ⟨inTokens, line, -⟩ := mem_lineTokens.1 isHere
        have empty : lineTokens rest number = [] := by
          apply lineTokens_eq_nil
          intro u isIn _ onLine
          have under := below t inTokens u isIn
          omega
        rw [row, empty, List.append_nil]
        have whole : tokens ++ ends ++ rest = [] ++ tokens ++ (ends ++ rest) :=
          List.append_assoc tokens ends rest
        refine .one List.mem_cons_self member whole (fun _ => rfl) rfl none
          (List.forall_mem_cons.2 ⟨fun _ => rfl, fun other isIn here => ?_⟩)
        obtain ⟨u, inRest, -, same⟩ := isBody.places other isIn
        have under := below t inTokens u inRest
        rw [← same, Mark.row] at here
        omega

end SchemaAssist
