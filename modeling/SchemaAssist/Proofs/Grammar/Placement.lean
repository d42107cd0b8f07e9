/-
# SchemaAssist.Proofs.Grammar.Placement — where the blocks of a schema stand

A block of a derivation stands somewhere among the tokens, with its keyword, its name,
its braces and nothing but braceless tokens between these (`Placed`).  Every block has
such a place, every brace belongs to one, and the places come in the order of the
blocks.
-/
import SchemaAssist.Proofs.Grammar

namespace SchemaAssist.Grammar

set_option autoImplicit false

/-- Where a block stands among tokens.  Whatever stands before it closes the
parentheses and brackets that it opens, and what stands behind it is a schema again. -/
structure Placed (tokens : List Token) (b : Block) (before : List Token)
    (keyword token opening : Token) (inner : List Token) (closing : Token)
    (after : List Token) : Prop where
  shape : tokens = before ++ (keyword :: token :: opening :: inner ++ [closing]) ++ after
  isBlock : IsBlock (keyword :: token :: opening :: inner ++ [closing]) b
  isKeyword : keyword.lexeme = .keyword b.kind
  named : token.lexeme.name? = some b.name
  opens : opening.lexeme = .punct .braceOpen
  closes : closing.lexeme = .punct .braceClose
  starts : b.startLine = keyword.mark.row
  ends : b.endLine = closing.mark.row
  braceless : ∀ t ∈ inner, t.lexeme ≠ .punct .braceOpen ∧ t.lexeme ≠ .punct .braceClose
  balanced : ∀ depth, depthBehind depth before = depth
  onward : ∃ others, IsSchema after others

theorem IsLineEnds.braceless {tokens : List Token} (allEnds : IsLineEnds tokens) :
    ∀ t ∈ tokens, t.lexeme ≠ .punct .braceOpen ∧ t.lexeme ≠ .punct .braceClose := by
  intro t isIn
  rw [allEnds t isIn]
  simp

theorem IsBody.braceless {kind : BlockKind} {body : List Token} {members : List Member}
    (isBody : IsBody kind body members) :
    ∀ t ∈ body, t.lexeme ≠ .punct .braceOpen ∧ t.lexeme ≠ .punct .braceClose := by
  induction isBody with
  | empty => simp
  | last member => exact fun t isIn => (member.inside.inner t isIn).2
  | more member allEnds _ _ ih =>
      intro t isIn
      rw [List.mem_append, List.mem_append] at isIn
      rcases isIn with (isIn | isIn) | isIn
      · exact (member.inside.inner t isIn).2
      · exact allEnds.braceless t isIn
      · exact ih t isIn

theorem IsBlock.balanced_lineEnds {tokens ends : List Token} {b : Block}
    (isBlock : IsBlock tokens b) (allEnds : IsLineEnds ends) (depth : Nat) :
    depthBehind depth (tokens ++ ends) = depth := by
  rw [depthBehind_append, isBlock.balanced, allEnds.balanced]

theorem IsSchema.nil : IsSchema [] ⟨[]⟩ := by
  have noEnds : IsLineEnds [] := List.forall_mem_nil _
  exact .intro noEnds .none

theorem IsBlock.placed {tokens : List Token} {b : Block} (isBlock : IsBlock tokens b) :
    ∃ keyword token opening inner closing,
      Placed tokens b [] keyword token opening inner closing [] := by
  cases isBlock with
  | @intro keyword token opening closing ends body kind name members isKeyword named opens
      allEnds isBody closes =>
      have whole := IsBlock.intro isKeyword named opens allEnds isBody closes
      have inner : keyword :: token :: opening :: ends ++ body ++ [closing] =
          keyword :: token :: opening :: (ends ++ body) ++ [closing] := by simp
      rw [inner] at whole
      refine ⟨keyword, token, opening, ends ++ body, closing, by simp, whole, isKeyword, named,
        opens, closes, rfl, rfl, ?_, fun _ => rfl, _, .nil⟩
      intro t isIn
      rcases List.mem_append.1 isIn with isIn | isIn
      · exact allEnds.braceless t isIn
      · exact isBody.braceless t isIn

/-- The braces of a block among numbered tokens, and its first line. -/
theorem IsBlock.getElem?_braces {tokens before inner after : List Token}
    {keyword closing : Token} {b : Block}
    (shape : tokens = before ++ (keyword :: inner ++ [closing]) ++ after)
    (isBlock : IsBlock (keyword :: inner ++ [closing]) b) :
    (tokens[before.length + 2]?).map (·.lexeme) = some (.punct .braceOpen) ∧
      (tokens[before.length + inner.length + 1]?).map (·.lexeme) = some (.punct .braceClose) ∧
      b.startLine = keyword.mark.row := by
  obtain ⟨first, token, opening, rest, last, placed⟩ := isBlock.placed
  have same := placed.shape
  rw [List.nil_append, List.append_nil] at same
  obtain ⟨front, ends⟩ := List.append_inj' same rfl
  obtain rfl := List.singleton_inj.1 ends
  obtain ⟨rfl, rfl⟩ := List.cons.inj front
  refine ⟨?_, ?_, placed.starts⟩
  · rw [shape]
    simp [placed.opens]
  · rw [shape]
    simp [placed.closes, Nat.add_assoc]

/-- Tokens that start and end as a block does, with no further braces, are one block at
most. -/
theorem IsBlock.eq_tokens {tokens before inner after : List Token} {keyword closing : Token}
    {b : Block} (shape : tokens = before ++ (keyword :: inner ++ [closing]) ++ after)
    (isBlock : IsBlock (keyword :: inner ++ [closing]) b)
    (opens : ∀ i < tokens.length,
      (tokens[i]?).map (·.lexeme) = some (.punct .braceOpen) → i = 2)
    (closes : ∀ i < tokens.length,
      (tokens[i]?).map (·.lexeme) = some (.punct .braceClose) → i + 1 = tokens.length) :
    before = [] ∧ keyword :: inner = tokens.dropLast ∧ tokens.getLast? = some closing ∧
      b.startLine = keyword.mark.row := by
  obtain ⟨first, last, starts⟩ := isBlock.getElem?_braces shape
  have inside : ∀ {i lexeme}, (tokens[i]?).map (·.lexeme) = some lexeme → i < tokens.length := by
    intro i lexeme found
    apply Nat.lt_of_not_le
    intro beyond
    rw [List.getElem?_eq_none beyond] at found
    cases found
  have front := opens _ (inside first) first
  have back := closes _ (inside last) last
  have size : tokens.length = before.length + inner.length + 2 + after.length := by
    rw [shape]
    simp only [List.length_append, List.length_cons, List.length_nil]
    omega
  obtain rfl : before = [] := List.length_eq_zero_iff.1 (by omega)
  obtain rfl : after = [] := List.length_eq_zero_iff.1 (by omega)
  refine ⟨rfl, ?_, ?_, starts⟩
  · rw [shape, List.append_nil, List.nil_append, List.dropLast_concat]
  · rw [shape, List.append_nil, List.nil_append, List.getLast?_concat]

section

variable {tokens before inner after : List Token} {b : Block}
  {keyword token opening closing : Token}

/-- A place stays one behind balanced tokens. -/
theorem Placed.behind (placed : Placed tokens b before keyword token opening inner closing after)
    {front : List Token} (balanced : ∀ depth, depthBehind depth front = depth) :
    Placed (front ++ tokens) b (front ++ before) keyword token opening inner closing after :=
  { placed with
    shape := by rw [placed.shape]; simp
    balanced := fun depth => by rw [depthBehind_append, balanced, placed.balanced] }

/-- A place at the end stays one in front of a schema. -/
theorem Placed.inFront (placed : Placed tokens b before keyword token opening inner closing [])
    {back : List Token} {others : Schema} (onward : IsSchema back others) :
    Placed (tokens ++ back) b before keyword token opening inner closing back :=
  { placed with
    shape := by rw [placed.shape]; simp
    onward := ⟨others, onward⟩ }

/-- Between the braces of a place stand the members of its block. -/
theorem Placed.body (placed : Placed tokens b before keyword token opening inner closing after) :
    ∃ ends body members, inner = ends ++ body ∧ IsLineEnds ends ∧ IsBody b.kind body members ∧
      b = .ofMembers b.kind b.name keyword.mark closing.mark members := by
  have isBlock := placed.isBlock
  generalize shape : keyword :: token :: opening :: inner ++ [closing] = slice at isBlock
  cases isBlock with
  | @intro keyword' token' opening' closing' ends body kind name members isKeyword named opens
      allEnds isBody closes =>
      obtain ⟨front, back⟩ := List.append_inj' shape rfl
      obtain rfl := List.singleton_inj.1 back
      simp only [List.cons_append, List.cons.injEq] at front
      obtain ⟨rfl, rfl, rfl, rfl⟩ := front
      exact ⟨ends, body, members, rfl, allEnds, isBody, rfl⟩

/-- The braces of a place are its own two. -/
theorem Placed.brace (placed : Placed tokens b before keyword token opening inner closing after)
    {t : Token} (isIn : t ∈ keyword :: token :: opening :: inner ++ [closing])
    (isBrace : t.lexeme = .punct .braceOpen ∨ t.lexeme = .punct .braceClose) :
    t = opening ∨ t = closing := by
  have name : token.lexeme ≠ .punct .braceOpen ∧ token.lexeme ≠ .punct .braceClose := by
    have named := placed.named
    constructor <;> intro same <;> rw [same] at named <;> cases named
  simp only [List.cons_append, List.mem_cons, List.mem_append, List.not_mem_nil, or_false] at isIn
  rcases isIn with rfl | rfl | rfl | isIn | rfl
  · rw [placed.isKeyword] at isBrace
    rcases isBrace with isBrace | isBrace <;> cases isBrace
  · exact isBrace.elim (absurd · name.1) (absurd · name.2)
  · exact .inl rfl
  · have braceless := placed.braceless t isIn
    exact isBrace.elim (absurd · braceless.1) (absurd · braceless.2)
  · exact .inr rfl

end

/-! ## Rows of blocks -/

theorem IsBlocks.isPlaced {tokens : List Token} {blocks : List Block}
    (isBlocks : IsBlocks tokens blocks) {b : Block} (isIn : b ∈ blocks) :
    ∃ before keyword token opening inner closing after,
      Placed tokens b before keyword token opening inner closing after := by
  induction isBlocks with
  | none => cases isIn
  | @more tokens ends rest first others isBlock allEnds onward ih =>
      rw [List.append_assoc]
      rcases List.mem_cons.1 isIn with rfl | isIn
      · obtain ⟨keyword, token, opening, inner, closing, placed⟩ := isBlock.placed
        exact ⟨_, _, _, _, _, _, _, placed.inFront (.intro allEnds onward)⟩
      · obtain ⟨before, keyword, token, opening, inner, closing, after, placed⟩ := ih isIn
        rw [← List.append_assoc]
        exact ⟨_, _, _, _, _, _, _, placed.behind (isBlock.balanced_lineEnds allEnds)⟩

/-- Every token but the line ends between blocks belongs to a block. -/
theorem IsBlocks.mem {tokens : List Token} {blocks : List Block}
    (isBlocks : IsBlocks tokens blocks) {t : Token} (isIn : t ∈ tokens)
    (other : t.lexeme ≠ .newline) :
    ∃ b ∈ blocks, ∃ before keyword token opening inner closing after,
      Placed tokens b before keyword token opening inner closing after ∧
        t ∈ keyword :: token :: opening :: inner ++ [closing] := by
  induction isBlocks with
  | none => cases isIn
  | @more tokens ends rest first others isBlock allEnds onward ih =>
      rw [List.append_assoc] at isIn ⊢
      rw [List.mem_append, List.mem_append] at isIn
      rcases isIn with isIn | isIn | isIn
      · obtain ⟨keyword, token, opening, inner, closing, placed⟩ := isBlock.placed
        refine ⟨first, List.mem_cons_self, _, _, _, _, _, _, _,
          placed.inFront (.intro allEnds onward), ?_⟩
        have shape := placed.shape
        rw [List.nil_append, List.append_nil] at shape
        rwa [← shape]
      · exact absurd (allEnds t isIn) other
      · obtain ⟨b, known, before, keyword, token, opening, inner, closing, after, placed, here⟩ :=
          ih isIn
        rw [← List.append_assoc]
        exact ⟨b, List.mem_cons_of_mem _ known, _, _, _, _, _, _, _,
          placed.behind (isBlock.balanced_lineEnds allEnds), here⟩

/-- Blocks stand in their order: a later one has the closing brace of an earlier one
before it. -/
theorem IsBlocks.pairwise {tokens : List Token} {blocks : List Block}
    (isBlocks : IsBlocks tokens blocks) : blocks.Pairwise fun first second =>
      ∃ before keyword token opening inner closing after,
        Placed tokens second before keyword token opening inner closing after ∧
          ∃ t ∈ before, t.mark.row = first.endLine := by
  induction isBlocks with
  | none => exact .nil
  | @more tokens ends rest first others isBlock allEnds onward ih =>
      have balanced := isBlock.balanced_lineEnds allEnds
      refine List.pairwise_cons.2 ⟨?_, ih.imp ?_⟩
      · intro second isIn
        obtain ⟨before, keyword, token, opening, inner, closing, after, placed⟩ :=
          onward.isPlaced isIn
        obtain ⟨_, _, _, _, last, own⟩ := isBlock.placed
        refine ⟨_, _, _, _, _, _, _, placed.behind balanced, last, ?_, own.ends.symm⟩
        rw [own.shape]
        simp
      · rintro b c ⟨before, keyword, token, opening, inner, closing, after, placed, t, isIn, same⟩
        exact ⟨_, _, _, _, _, _, _, placed.behind balanced, t, List.mem_append_right _ isIn, same⟩

/-! ## Whole schemas -/

variable {tokens : List Token} {schema : Schema}

theorem IsSchema.isPlaced (derived : IsSchema tokens schema) {b : Block}
    (isIn : b ∈ schema.blocks) :
    ∃ before keyword token opening inner closing after,
      Placed tokens b before keyword token opening inner closing after := by
  cases derived with
  | intro allEnds isBlocks =>
      obtain ⟨before, keyword, token, opening, inner, closing, after, placed⟩ :=
        isBlocks.isPlaced isIn
      exact ⟨_, _, _, _, _, _, _, placed.behind allEnds.balanced⟩

theorem IsSchema.mem (derived : IsSchema tokens schema) {t : Token} (isIn : t ∈ tokens)
    (other : t.lexeme ≠ .newline) :
    ∃ b ∈ schema.blocks, ∃ before keyword token opening inner closing after,
      Placed tokens b before keyword token opening inner closing after ∧
        t ∈ keyword :: token :: opening :: inner ++ [closing] := by
  cases derived with
  | intro allEnds isBlocks =>
      rcases List.mem_append.1 isIn with isIn | isIn
      · exact absurd (allEnds t isIn) other
      · obtain ⟨b, known, before, keyword, token, opening, inner, closing, after, placed, here⟩ :=
          isBlocks.mem isIn other
        exact ⟨b, known, _, _, _, _, _, _, _, placed.behind allEnds.balanced, here⟩

/-- Every brace opens or closes a block. -/
theorem IsSchema.brace (derived : IsSchema tokens schema) {t : Token} (isIn : t ∈ tokens)
    (isBrace : t.lexeme = .punct .braceOpen ∨ t.lexeme = .punct .braceClose) :
    ∃ b ∈ schema.blocks, ∃ before keyword token opening inner closing after,
      Placed tokens b before keyword token opening inner closing after ∧
        (t = opening ∨ t = closing) := by
  have other : t.lexeme ≠ .newline := by
    intro same
    rw [same] at isBrace
    rcases isBrace with isBrace | isBrace <;> cases isBrace
  obtain ⟨b, known, before, keyword, token, opening, inner, closing, after, placed, here⟩ :=
    derived.mem isIn other
  exact ⟨b, known, _, _, _, _, _, _, _, placed, placed.brace here isBrace⟩

theorem IsSchema.pairwise (derived : IsSchema tokens schema) :
    schema.blocks.Pairwise fun first second =>
      ∃ before keyword token opening inner closing after,
        Placed tokens second before keyword token opening inner closing after ∧
          ∃ t ∈ before, t.mark.row = first.endLine := by
  cases derived with
  | intro allEnds isBlocks =>
      apply isBlocks.pairwise.imp
      rintro b c ⟨before, keyword, token, opening, inner, closing, after, placed, t, isIn, same⟩
      exact ⟨_, _, _, _, _, _, _, placed.behind allEnds.balanced, t,
        List.mem_append_right _ isIn, same⟩

end SchemaAssist.Grammar
