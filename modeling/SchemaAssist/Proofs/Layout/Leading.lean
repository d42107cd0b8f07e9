/-
# SchemaAssist.Proofs.Layout.Leading — members that lead their lines

Scanning takes whatever name leads a line inside a block for the name of a member.  It is
right where every member leads a line below the header, its name in one piece, and no
further line of a member is led by something that scanning would take for a name
(`MembersLead`).

Then the name that scanning reads off a line is that of the member which starts there, and
it reads none off any other line inside a block (`MembersLead.declares`).
-/
import SchemaAssist.Proofs.Layout.Contents
import SchemaAssist.Proofs.Layout.Members

namespace SchemaAssist

set_option autoImplicit false

open Text Scan Grammar

/-! ## What scanning takes for a name -/

/-- Whether scanning takes the lexeme, in front of a line, for a name or a part of one. -/
def Lexeme.leadsName : Lexeme → Bool
  | .word _ | .keyword _ => true
  | .number text => text.toList.head? != some '-'
  | .punct .dot | .punct .atSign | .punct .doubleAt => true
  | _ => false

/-- Other lexemes are spelled with something that starts no name. -/
theorem Front.unnamed {depth : Nat} {chars rest : List Char} {lexeme : Lexeme}
    (front : Front depth chars (some lexeme) rest) (other : lexeme.leadsName = false)
    (noFeed : '\n' ∉ chars) :
    ∃ c inner, chars = c :: inner ∧ isBlank c = false ∧ isMemberChar c = false ∧ c ≠ '@' := by
  generalize same : some lexeme = found at front
  cases front with
  | blank _ => cases same
  | comment _ _ => cases same
  | feed => exact absurd (List.mem_singleton_self _) noFeed
  | string _ => exact ⟨_, _, rfl, by decide, by decide, by decide⟩
  | @number c inner _ _ _ _ =>
      obtain rfl := Option.some.inj same
      obtain rfl : c = '-' := by simpa [Lexeme.leadsName] using other
      exact ⟨_, _, rfl, by decide, by decide, by decide⟩
  | word _ _ _ _ =>
      obtain rfl := Option.some.inj same
      unfold wordLexeme at other
      split at other <;> cases other
  | doubleAt =>
      obtain rfl := Option.some.inj same
      cases other
  | atSign _ =>
      obtain rfl := Option.some.inj same
      cases other
  | sign isSign =>
      obtain rfl := Option.some.inj same
      unfold Punct.ofChar? at isSign
      split at isSign <;> cases isSign
      case h_10 => cases other
      all_goals exact ⟨_, _, rfl, by decide, by decide, by decide⟩

/-- A line has no name if scanning takes its first token for none. -/
theorem memberName?_of_leading {mark : Mark} {line : List Char} {row : List Segment}
    (segmented : Segmented 0 mark line row) (noFeed : '\n' ∉ line) {t : Token}
    {others : List Token} (tokens : tokensOf row = t :: others)
    (other : t.lexeme.leadsName = false) : memberName? line = none := by
  obtain ⟨gap, chars, rest, onward, rfl, blank, -, front, -⟩ := segmented.next noFeed tokens
  simp only [List.mem_append, not_or] at noFeed
  obtain ⟨c, inner, rfl, shown, unnamed, noSign⟩ := front.unnamed other noFeed.2.1
  exact memberName?_unnamed (fun c isIn => (blank c isIn).isBlank) shown unnamed noSign

/-! ## Members that lead their lines -/

/-- No further line of a member is led by what scanning would take for a name. -/
def ContinuesUnnamed (tokens : List Token) : Prop :=
  ∀ slice kind m, slice <:+: tokens → IsMember kind slice m →
    ∀ number : Nat, m.declared.1 ≠ number → ∀ t ∈ (lineTokens slice number).head?,
      t.lexeme.leadsName = false

/-- Members lead lines below the header of their block, the names of block attributes stand
without gaps, and no other line of a member is led by what scanning would take for a name. -/
structure MembersLead (tokens : List Token) : Prop where
  below : ∀ {b before keyword token opening inner closing after},
    Placed tokens b before keyword token opening inner closing after → b.startLine < b.endLine →
      ∀ t ∈ inner, t.lexeme ≠ .newline → t.mark.line ≠ keyword.mark.line
  tight : TightAttributes tokens
  continued : ContinuesUnnamed tokens

/-- Members that stand on one line have no further lines. -/
theorem MembersOnLines.continuesUnnamed {tokens : List Token} (onLines : MembersOnLines tokens) :
    ContinuesUnnamed tokens := by
  intro slice kind m part member number other t isHead
  rw [member.lineTokens_other (onLines.part part) other] at isHead
  cases isHead

/-- It is enough to look at the tokens behind the line ends that are no tokens. -/
theorem continuesUnnamed_of_isChain {tokens : List Token} (ordered : tokens.Pairwise Precedes)
    (chain : tokens.IsChain fun t u => t.lexeme ≠ .newline → t.mark.line < u.mark.line →
      u.lexeme.leadsName = false) : ContinuesUnnamed tokens := by
  intro slice kind m part member number other t isHead
  rw [lineTokens, List.head?_filter, Option.mem_def, List.find?_eq_some_iff_append] at isHead
  obtain ⟨here, front, back, rfl, clear⟩ := isHead
  have line : t.mark.line = number + 1 := by simp_all
  obtain rfl | ⟨front, u, rfl⟩ := List.eq_nil_or_concat' front
  · -- the first token stands on the line where the member starts
    obtain ⟨first, rest, shape, place⟩ := member.head
    obtain ⟨rfl, -⟩ := List.cons.inj shape
    exact absurd (place.trans (Mark.row_eq_iff.2 line)) other
  · have noEnd := (member.inside.inner u (by simp)).1
    have away : u.mark.line ≠ number + 1 := by
      intro same
      have nothing := clear u (by simp)
      simp [same, noEnd] at nothing
    have own := ordered.sublist part.sublist
    have links := chain.infix part
    rw [List.append_assoc, List.singleton_append] at own links
    obtain ⟨after, -⟩ := List.pairwise_cons.1 (List.pairwise_append.1 own).2.1
    have above := (after t List.mem_cons_self).1
    exact (List.isChain_append_cons_cons.1 links).2.1 noEnd (by omega)

/-- It is enough to look at the tokens around dots and behind pairs of at-signs. -/
theorem tightAttributes_of_isChain {tokens : List Token}
    (chain : tokens.IsChain fun t u =>
      t.lexeme = .punct .doubleAt ∨ t.lexeme = .punct .dot ∨ u.lexeme = .punct .dot →
        Touches t u) : TightAttributes tokens := by
  intro before sign token parts after name others shape isSign named isDotted
  have own := chain.infix ⟨before, after, shape.symm⟩
  obtain ⟨touch, onward⟩ := List.isChain_cons_cons.1 own
  refine List.isChain_cons_cons.2 ⟨touch (.inl isSign), ?_⟩
  clear shape named own touch
  induction isDotted generalizing token with
  | none => exact .singleton _
  | more isDot _ _ ih =>
      obtain ⟨first, onward⟩ := List.isChain_cons_cons.1 onward
      obtain ⟨second, onward⟩ := List.isChain_cons_cons.1 onward
      exact List.isChain_cons_cons.2 ⟨first (.inr (.inr isDot)),
        List.isChain_cons_cons.2 ⟨second (.inr (.inl isDot)), ih _ onward⟩⟩

namespace MembersLead

variable {text : String} {segments : List Segment} {b : Block}
  {before inner after : List Token} {keyword token opening closing : Token}

/-- The members of a block stand strictly between its first and its last line. -/
theorem inner_row (lead : MembersLead (tokensOf segments)) (laid : Laid text segments)
    (placed : Placed (tokensOf segments) b before keyword token opening inner closing after)
    (hasBody : b.startLine < b.endLine) {t : Token} (isIn : t ∈ inner)
    (other : t.lexeme ≠ .newline) : b.startLine < t.mark.row ∧ t.mark.row < b.endLine := by
  have within := laid.within placed (t := t) (by simp [isIn])
  have below := lead.below placed hasBody t isIn other
  rw [placed.starts, placed.ends] at hasBody ⊢
  simp only [Mark.row] at hasBody ⊢
  rcases laid.flat_or_last placed with flat | ⟨-, last⟩
  · rw [placed.starts, placed.ends, Mark.row, Mark.row] at flat
    omega
  · have above := last t (by simp [isIn])
    omega

/-- **What a block declares** is led by the lines of its body: its names stand on increasing
lines strictly between the first and the last, and scanning reads them and no others. -/
theorem declares (lead : MembersLead (tokensOf segments)) (laid : Laid text segments)
    (placed : Placed (tokensOf segments) b before keyword token opening inner closing after)
    (hasBody : b.startLine < b.endLine) :
    (b.declaredNames.Pairwise fun first second => first.1 < second.1) ∧
      (∀ name ∈ b.declaredNames, b.startLine < name.1 ∧ name.1 < b.endLine) ∧
      ∀ n : Nat, b.startLine < n → n < b.endLine →
        memberName? ((Document.ofText text).lines.getD n []) =
          (b.declaredNames.find? fun name => name.1 == (n : Int)).map (·.2) := by
  obtain ⟨body, members, contents⟩ := laid.contents placed
  rw [contents.declaredNames]
  refine ⟨contents.increasing, fun name isIn => ?_, fun n below above => ?_⟩
  · obtain ⟨m, known, rfl⟩ := List.mem_map.1 isIn
    obtain ⟨t, inInner, other, place⟩ := contents.places m known
    rw [← place]
    exact lead.inner_row laid placed hasBody inInner other
  · obtain ⟨row, isRow⟩ := laid.row n
    have tokens : tokensOf row = lineTokens body n := by
      have back : lineTokens [closing] n = [] := by
        apply lineTokens_eq_nil
        intro t isIn _ here
        obtain rfl := List.mem_singleton.1 isIn
        rw [placed.ends, Mark.row] at above
        omega
      rw [isRow.tokens, contents.onLine n (by omega) (by omega), back,
        laid.opened_elsewhere placed (by omega), List.nil_append, List.append_nil]
    rcases contents.rows n with ⟨empty, clear⟩ |
      @⟨m, front, slice, back, isIn, member, shape, -, sameRow, some, only⟩
    · obtain ⟨gap, rest, line, blank, ends⟩ :=
        isRow.segmented.noTokens isRow.noFeed (tokens.trans empty)
      rw [find?_declared_eq_none clear, line]
      exact memberName?_blank (fun c isIn => (blank c isIn).isBlank) (ends.imp_right And.left)
    have part : slice <:+: tokensOf segments := ⟨front, back, shape.symm⟩
    by_cases here : m.declared.1 = n
    · rw [find?_eq_some_of_increasing contents.increasing (List.mem_map_of_mem isIn) here]
      exact memberName?_member member here (laid.segmented.ordered.sublist part.sublist)
        (fun t isIn => laid.segmented.namesOnLine t (part.subset isIn)) (lead.tight.part part)
        isRow.segmented isRow.noFeed (tokens.trans sameRow)
    · -- a list goes on over this line, so no member starts on it
      have clear : ∀ other ∈ members, other.declared.1 ≠ n := by
        intro other known same
        rw [only other known same] at same
        exact here same
      obtain ⟨t, others, shape⟩ := List.exists_cons_of_ne_nil some
      have unnamed := lead.continued slice _ m part member n here t
        (by rw [← sameRow, shape]; rfl)
      rw [find?_declared_eq_none clear]
      exact memberName?_of_leading isRow.segmented isRow.noFeed
        (tokens.trans shape) unnamed

end MembersLead

end SchemaAssist
