/-
# SchemaAssist.Proofs.Layout.Sources — datasources that are laid out plainly

The lines of a datasource show its assignments one by one, also when it stands on one
line, so the search for a provider answers on each line for the assignment that starts
there, and the closing brace is the first one it meets (`PlainSources.firstMatch_eq`,
`PlainSources.brace_iff`).  Arrays may go on over further lines, which have no equals sign.

With this the lines of a text whose datasources are laid out plainly (`PlainSources`) show
these (`PlainSources.shown`), and the lines of a plain layout show all that scanning needs
to know (`PlainLayout.shown`).
-/
import SchemaAssist.Proofs.Layout.Plain
import SchemaAssist.Proofs.Layout.Providers
import SchemaAssist.Proofs.Grammar.Reading

namespace SchemaAssist

set_option autoImplicit false

open Text Scan Grammar

/-- With comments and strings that hold none, a closing brace is a token. -/
theorem Segmented.brace_mem {depth : Nat} {mark : Mark} {line : List Char} {row : List Segment}
    (segmented : Segmented depth mark line row) (clear : ClearRow row) (isIn : '\x7d' ∈ line) :
    ∃ t ∈ tokensOf row, t.lexeme = .punct .braceClose := by
  rw [← segmented.flatten, List.mem_flatMap] at isIn
  obtain ⟨segment, known, holds⟩ := isIn
  obtain ⟨under, rest, front⟩ := segmented.exists_front known
  have isSign : IsPlainSign '\x7d' .braceClose := by
    unfold IsPlainSign
    decide
  have noFree : segment.isFree ≠ true := fun isFree => clear.noBrace segment known isFree holds
  have lexeme := front.plainSign holds isSign
    (fun isGap => absurd (by rw [Segment.isFree, isGap]) noFree)
    fun content isString => noFree (by rw [Segment.isFree, isString])
  exact ⟨⟨.punct .braceClose, segment.mark⟩,
    token_mem_iff.2 ⟨segment, known, lexeme, rfl⟩, rfl⟩

/-- The datasources of a text are laid out plainly: only their headers spell that word, they
have no comments and no strings that could be taken for something else, and one provider at
most. -/
structure PlainSources (text : String) (segments : List Segment) (blocks : List Block) :
    Prop where
  mentions : ∀ n : Nat, occursIn "datasource".toList ((Document.ofText text).line n) = true →
    ∃ b ∈ blocks, b.kind = .datasource ∧ b.startLine = n
  clear : ∀ b ∈ blocks, b.kind = .datasource → ClearRow (b.segments segments)
  single : ∀ b ∈ blocks, b.kind = .datasource → b.HasSingleProvider

/-- Whatever mentions a datasource is a line of the document. -/
theorem lt_of_mentioned {document : Document} {n : Nat}
    (mentioned : occursIn "datasource".toList (document.line n) = true) :
    n < document.lines.length := by
  by_contra beyond
  rw [Document.line_natCast, List.getD_eq_default _ _ (Nat.le_of_not_lt beyond)] at mentioned
  exact absurd mentioned (by decide)

/-! ## Lines of assignments -/

/-- Key, equals sign and the first token of the value stand on one line. -/
theorem Segmented.assignment_sameLine {text : List Char} {segments : List Segment}
    (segmented : Segmented 0 .start text segments) (alone : FeedsAlone segments)
    {front slice back : List Token} (shape : tokensOf segments = front ++ slice ++ back)
    (flat : ∀ depth, depthBehind depth front = depth) {kind : BlockKind} {m : Member}
    (assigns : kind.holdsAssignments = true) (member : IsMember kind slice m) :
    ∃ a token equals first more, m = .assignment a ∧ slice = token :: equals :: first :: more ∧
      token.lexeme.name? = some a.key ∧ equals.lexeme = .punct .equals ∧
      IsValue (first :: more) a.value ∧ equals.mark.line = token.mark.line ∧
      first.mark.line = token.mark.line := by
  cases member with
  | @assignment token equals _ key _ _ named isEquals isValue =>
      obtain ⟨first, more, rfl, -⟩ := isValue.starts
      have name : Inside [token] := .name named .nil
      have keyFlat : depthBehind 0 (front ++ [token]) = 0 := by
        rw [depthBehind_append, flat, name.balanced]
      have signFlat : depthBehind 0 (front ++ [token] ++ [equals]) = 0 := by
        rw [depthBehind_append, keyFlat, depthBehind_cons, isEquals]
        rfl
      have shape₁ : tokensOf segments = front ++ token :: equals :: (first :: more ++ back) := by
        rw [shape]
        simp
      have shape₂ : tokensOf segments =
          (front ++ [token]) ++ equals :: first :: (more ++ back) := by
        rw [shape]
        simp
      have second := segmented.sameLine alone shape₁ keyFlat (name.inner token (by simp)).1
      have third := segmented.sameLine alone shape₂ signFlat (by rw [isEquals]; simp)
      exact ⟨_, token, equals, first, more, rfl, rfl, named, isEquals, isValue, second,
        third.trans second⟩
  | field holds _ _ _ _ _ => cases kind <;> contradiction
  | value isEnum _ _ => rw [isEnum] at assigns; cases assigns
  | blockAttribute holds _ _ => rw [assigns] at holds; cases holds

namespace Grammar.Placed

variable {segments : List Segment} {b : Block} {before inner after : List Token}
  {keyword token opening closing : Token}

theorem opened_noEquals
    (placed : Placed (tokensOf segments) b before keyword token opening inner closing after)
    (n : Nat) : ∀ t ∈ lineTokens [keyword, token, opening] n, t.lexeme ≠ .punct .equals := by
  intro t isIn same
  have known := (mem_lineTokens.1 isIn).1
  simp only [List.mem_cons, List.not_mem_nil, or_false] at known
  rcases known with rfl | rfl | rfl
  · rw [placed.isKeyword] at same
    cases same
  · have named := placed.named
    rw [same] at named
    cases named
  · rw [placed.opens] at same
    cases same

theorem closing_noEquals
    (placed : Placed (tokensOf segments) b before keyword token opening inner closing after)
    (n : Nat) : ∀ t ∈ lineTokens [closing] n, t.lexeme ≠ .punct .equals := by
  intro t isIn same
  obtain rfl := List.mem_singleton.1 (mem_lineTokens.1 isIn).1
  rw [placed.closes] at same
  cases same

end Grammar.Placed

namespace Laid

variable {text : String} {segments : List Segment} {b : Block}
  {before inner after : List Token} {keyword token opening closing : Token}

/-- **The lines of a block of assignments**: on a line starts one assignment, or there is no
equals sign on it. -/
theorem assignmentTokens (laid : Laid text segments)
    (placed : Placed (tokensOf segments) b before keyword token opening inner closing after)
    (assigns : b.kind.holdsAssignments = true) {body : List Token} {members : List Member}
    (contents : Contents (tokensOf segments) b [keyword, token, opening] inner closing body members)
    (n : Nat) :
    (∃ a, b.assignments.find? (fun a => a.line == (n : Int)) = some a ∧
        AssignmentTokens a (lineTokens [keyword, token, opening] n) (lineTokens body n)
          (lineTokens [closing] n)) ∨
      b.assignments.find? (fun a => a.line == (n : Int)) = none ∧
        ∀ t ∈ lineTokens body n, t.lexeme ≠ .punct .equals := by
  rcases contents.rows n with ⟨empty, clear⟩ |
    @⟨m, front, slice, back, isIn, member, shape, flat, sameRow, -, only⟩
  · refine .inr ⟨contents.find?_assignments_eq_none clear, ?_⟩
    rw [empty]
    exact List.forall_mem_nil _
  obtain ⟨a, key, equals, first, more, rfl, rfl, named, isEquals, isValue, second, third⟩ :=
    laid.segmented.assignment_sameLine laid.alone shape flat assigns member
  have inner := member.inside.inner
  have place : a.line = key.mark.row := by
    obtain ⟨_, _, same, place⟩ := member.head
    obtain ⟨rfl, -⟩ := List.cons.inj same
    exact place
  by_cases here : a.line = n
  · refine .inl ⟨a, contents.find?_assignments assigns isIn here, ⟨key, equals, first,
      lineTokens more n, more, ?_, named, isEquals, isValue, ?_⟩, placed.opened_noEquals n,
      placed.closing_noEquals n⟩
    · rw [place, Mark.row_eq_iff] at here
      rw [sameRow, lineTokens_cons_here here (inner key (by simp)).1,
        lineTokens_cons_here (second.trans here) (inner equals (by simp)).1,
        lineTokens_cons_here (third.trans here) (inner first (by simp)).1]
    · exact fun t known => (mem_lineTokens.1 known).1
  · -- the value goes on over this line, and has no equals sign
    refine .inr ⟨contents.find?_assignments_eq_none ?_, ?_⟩
    · intro other known same
      rw [only other known same] at same
      exact here same
    · intro t known
      rw [sameRow] at known
      obtain ⟨isPart, onLine, -⟩ := mem_lineTokens.1 known
      rw [place, Mark.row_eq_iff] at here
      rcases List.mem_cons.1 isPart with rfl | isPart
      · exact absurd onLine here
      rcases List.mem_cons.1 isPart with rfl | isPart
      · exact absurd (second.symm.trans onLine) here
      · exact isValue.noEquals t isPart

/-- Behind the opening brace the header line goes on with the members there. -/
theorem header_rest (laid : Laid text segments)
    (placed : Placed (tokensOf segments) b before keyword token opening inner closing after)
    {body : List Token} {members : List Member}
    (contents : Contents (tokensOf segments) b [keyword, token, opening] inner closing body members)
    {n : Nat} (first : b.startLine = n) (above : n ≤ b.endLine) {row : List Segment}
    (isRow : IsRow segments n ((Document.ofText text).lines.getD n []) row) :
    ∃ front rest mark onward,
      (Document.ofText text).lines.getD n [] = (front ++ ['\x7b']) ++ rest ∧
        Segmented 0 mark rest onward ∧ onward ⊆ row ∧
        tokensOf onward = lineTokens body n ++ lineTokens [closing] n := by
  have here := placed.startLine_iff.1 first
  obtain ⟨gap₁, gap₂, gap₃, rest, mark, onward, line, blank₁, blank₂, blank₃, -, -, word,
    behind, part, tokens⟩ := laid.header_line placed here isRow
  obtain ⟨front, shape, -⟩ := headerText_eq b.kind blank₁ blank₂ blank₃ word rest
  have whole : [keyword, token, opening] ++ lineTokens (inner ++ closing :: after) n =
      [keyword, token, opening] ++ (lineTokens body n ++ lineTokens [closing] n) := by
    have header := laid.lineTokens_header placed here
    rw [contents.onLine n (by omega) above, laid.opened_here placed first] at header
    exact header.symm
  refine ⟨front, rest, mark, onward, ?_, behind, part, ?_⟩
  · rw [line, shape, List.append_assoc, List.singleton_append]
  · rw [tokens]
    exact List.append_cancel_left whole

end Laid

/-! ## Datasources -/

namespace PlainSources

variable {text : String} {segments : List Segment} {blocks : List Block} {b : Block}

/-- The search for a provider can be trusted on the lines of a datasource. -/
theorem clearRow (sources : PlainSources text segments blocks) (isIn : b ∈ blocks)
    (isSource : b.kind = .datasource) {n : Nat} (below : b.startLine ≤ n) (above : n ≤ b.endLine)
    {line : List Char} {row : List Segment} (isRow : IsRow segments n line row) :
    ClearRow row := by
  have clear := sources.clear b isIn isSource
  have part : ∀ segment ∈ row, ∃ tail,
      { segment with chars := segment.chars ++ tail } ∈ b.segments segments := by
    intro segment known
    obtain ⟨tail, whole⟩ := isRow.part segment known
    have place : segment.mark.row = n :=
      Mark.row_eq_iff.2 (isRow.segmented.line_eq isRow.noFeed segment known)
    refine ⟨tail, List.mem_filter.2 ⟨whole, ?_⟩⟩
    simp only [place, Bool.and_eq_true, decide_eq_true_eq]
    exact ⟨below, above⟩
  refine ⟨fun segment known isFree holds => ?_, fun segment known isFree => ?_,
    fun segment known content isString holds => ?_⟩
  all_goals obtain ⟨tail, whole⟩ := part segment known
  · exact clear.noBrace _ whole isFree (List.mem_append_left _ holds)
  · have clean := clear.noWord _ whole isFree
    rw [Bool.eq_false_iff] at clean ⊢
    intro spelled
    obtain ⟨front, back, same⟩ := occursIn_iff.1 spelled
    refine clean (occursIn_iff.2 ⟨front, back ++ tail, ?_⟩)
    simp [same]
  · exact clear.noSlash _ whole content isString (List.mem_append_left _ holds)

section

variable {before inner after : List Token} {keyword token opening closing : Token}

/-- The closing brace of a datasource is the only one on its lines. -/
theorem brace_iff (sources : PlainSources text segments blocks) (laid : Laid text segments)
    (isIn : b ∈ blocks) (isSource : b.kind = .datasource)
    (placed : Placed (tokensOf segments) b before keyword token opening inner closing after)
    {n : Nat} (below : b.startLine ≤ n) (above : n ≤ b.endLine) :
    '\x7d' ∈ (Document.ofText text).lines.getD n [] ↔ b.endLine = n := by
  obtain ⟨row, isRow⟩ := laid.row n
  constructor
  · intro holds
    obtain ⟨t, known, isBrace⟩ :=
      isRow.segmented.brace_mem (sources.clearRow isIn isSource below above isRow) holds
    have onLine := known
    rw [isRow.tokens] at onLine
    have here := (mem_lineTokens.1 onLine).2.1
    rw [laid.lineTokens_block placed below above] at onLine
    rcases placed.brace (mem_lineTokens.1 onLine).1 (.inr isBrace) with rfl | rfl
    · rw [placed.opens] at isBrace
      cases isBrace
    · rw [placed.ends, Mark.row_eq_iff, here]
  · intro ends
    rw [placed.ends, Mark.row_eq_iff] at ends
    have known : closing ∈ tokensOf row := by
      rw [isRow.tokens]
      refine mem_lineTokens.2 ⟨?_, ends, by rw [placed.closes]; simp⟩
      rw [placed.shape]
      simp
    exact isRow.segmented.mem_of_punct known placed.closes '\x7d' (by decide)

/-- **The provider on a line of a datasource** is that of the assignment which starts there. -/
theorem firstMatch_eq (sources : PlainSources text segments blocks) (laid : Laid text segments)
    (isIn : b ∈ blocks) (isSource : b.kind = .datasource)
    (placed : Placed (tokensOf segments) b before keyword token opening inner closing after)
    {n : Nat} (below : b.startLine ≤ n) (above : n ≤ b.endLine) :
    firstMatch providerPattern ((Document.ofText text).lines.getD n []) =
      (b.assignments.find? fun a => a.line == (n : Int)).bind Assignment.provider? := by
  obtain ⟨body, members, contents⟩ := laid.contents placed
  obtain ⟨row, isRow⟩ := laid.row n
  have clear := sources.clearRow isIn isSource below above isRow
  have tokens := isRow.tokens.trans (contents.onLine n below above)
  have assigns : b.kind.holdsAssignments = true := by rw [isSource]; rfl
  rcases laid.assignmentTokens placed assigns contents n with ⟨a, found, own⟩ | ⟨none, noEquals⟩
  · rw [found, Option.bind_some]
    have segmented := isRow.segmented
    have noFeed := isRow.noFeed
    by_cases first : b.startLine = n
    · obtain ⟨front, rest, mark, onward, split, behind, part, onwardTokens⟩ :=
        laid.header_rest placed contents first above isRow
      have starts : (front ++ ['\x7b']).getLast?.any isWordChar = false := by
        rw [List.getLast?_append]
        exact (by decide : isWordChar '\x7b' = false)
      rw [split] at segmented noFeed ⊢
      exact firstMatch_assignment segmented noFeed clear behind part starts own
        (by rw [tokens, List.append_assoc]) onwardTokens
    · have noOpened := laid.opened_elsewhere placed first
      rw [noOpened, List.nil_append] at tokens
      rw [noOpened] at own
      rw [← List.nil_append ((Document.ofText text).lines.getD n [])] at segmented noFeed ⊢
      exact firstMatch_assignment segmented noFeed clear isRow.segmented (fun _ isIn => isIn) rfl
        own tokens tokens
  · rw [none, Option.bind_none]
    apply firstMatch_noEquals isRow.segmented isRow.noFeed clear
    intro t onLine
    rw [tokens, List.mem_append, List.mem_append] at onLine
    rcases onLine with onLine | onLine | onLine
    · exact placed.opened_noEquals n t onLine
    · exact noEquals t onLine
    · exact placed.closing_noEquals n t onLine

end

/-- The header of a datasource spells that word. -/
theorem mentioned_iff (sources : PlainSources text segments blocks) (laid : Laid text segments)
    (derived : IsSchema (tokensOf segments) ⟨blocks⟩) (n : Nat) :
    occursIn "datasource".toList ((Document.ofText text).lines.getD n []) = true ↔
      ∃ b ∈ blocks, b.kind = .datasource ∧ b.startLine = n := by
  constructor
  · intro mentioned
    apply sources.mentions n
    rw [Document.line_natCast]
    exact mentioned
  · rintro ⟨b, isIn, isSource, starts⟩
    obtain ⟨before, keyword, token, opening, inner, closing, after, placed⟩ :=
      derived.isPlaced isIn
    obtain ⟨row, isRow⟩ := laid.row n
    obtain ⟨gap₁, gap₂, gap₃, rest, mark, onward, line, -⟩ :=
      laid.header_line placed (placed.startLine_iff.1 starts) isRow
    rw [line, headerText, isSource]
    exact occursIn_iff.2 ⟨gap₁, _, rfl⟩

/-- **The lines show the datasources**, wherever their arrays go on. -/
theorem shown (sources : PlainSources text segments blocks) (laid : Laid text segments)
    (derived : IsSchema (tokensOf segments) ⟨blocks⟩) :
    ShownSources (Document.ofText text).lines blocks where
  mentioned := sources.mentioned_iff laid derived
  increasing b isIn isSource :=
    Block.assignments_increasing (by rw [isSource]; rfl) (laid.declaredNames derived isIn).1
  within b isIn isSource a known := by
    have assigns : b.kind.holdsAssignments = true := by rw [isSource]; rfl
    have within := (laid.declaredNames derived isIn).2
    rw [Block.declaredNames, if_pos assigns] at within
    exact within _ (List.mem_map_of_mem known)
  single := sources.single
  provider b isIn isSource n below above := by
    obtain ⟨before, keyword, token, opening, inner, closing, after, placed⟩ := derived.isPlaced isIn
    exact ⟨sources.firstMatch_eq laid isIn isSource placed below above,
      sources.brace_iff laid isIn isSource placed below above⟩

end PlainSources

/-! ## Plain layouts -/

namespace PlainLayout

variable {text : String} {segments : List Segment} {blocks : List Block}

theorem plainSources (layout : PlainLayout text segments blocks) :
    PlainSources text segments blocks where
  mentions := layout.mentions
  clear b isIn isSource := (layout.sources b isIn isSource).clear layout.segmented
    fun _ isIn => (List.mem_filter.1 isIn).1
  single := layout.single

/-- **The lines of a plain layout show its blocks**, whichever line is edited. -/
theorem shown (layout : PlainLayout text segments blocks)
    (derived : IsSchema (tokensOf segments) ⟨blocks⟩) (line : Int) :
    Shown (Document.ofText text).lines blocks line where
  outline := layout.laid.outline derived
  names := layout.names
  increasing b isIn := (layout.laid.declaredNames derived isIn).1
  inside b isIn hasBody := by
    obtain ⟨before, keyword, token, opening, inner, closing, after, placed⟩ := derived.isPlaced isIn
    exact (layout.lead.declares layout.laid placed hasBody).2.1
  member b isIn n below above _ := by
    obtain ⟨before, keyword, token, opening, inner, closing, after, placed⟩ := derived.isPlaced isIn
    exact (layout.lead.declares layout.laid placed (by omega)).2.2 n below above
  datasource := (layout.plainSources.shown layout.laid derived).mentioned
  within := (layout.plainSources.shown layout.laid derived).within
  single := layout.single
  provider _ := (layout.plainSources.shown layout.laid derived).provider

end PlainLayout

end SchemaAssist
