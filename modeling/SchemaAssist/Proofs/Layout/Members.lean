/-
# SchemaAssist.Proofs.Layout.Members — the name that scanning reads off a member's line

Scanning takes the leading run of word characters and dots for the name of a line, with
at most two at-signs before it.  On the first line of a member that is the name that the
member declares (`memberName?_member`): behind a name no word character follows, and a
dot only in the name of an attribute, which stands without gaps.
-/
import SchemaAssist.Proofs.Layout.Bodies

namespace SchemaAssist

set_option autoImplicit false

open Text Scan Grammar

/-! ## Trimmed lines -/

theorem trimEndWhere_append {q : Char → Bool} {front rest : List Char} {c : Char}
    (keeps : q c = false) :
    trimEndWhere q (front ++ c :: rest) = front ++ c :: trimEndWhere q rest := by
  have last : (c :: front.reverse).dropWhile q = c :: front.reverse :=
    List.dropWhile_cons_of_neg (by simp [keeps])
  unfold trimEndWhere
  rw [List.reverse_append, List.reverse_cons, List.append_assoc, List.singleton_append,
    List.dropWhile_append]
  split
  · rename_i all
    rw [List.isEmpty_iff] at all
    rw [all, last]
    simp
  · simp

theorem trimEndWhere_prefix (q : Char → Bool) (text : List Char) :
    ∃ tail, text = trimEndWhere q text ++ tail := by
  have whole := (List.takeWhile_append_dropWhile (p := q) (l := text.reverse)).symm
  refine ⟨(text.reverse.takeWhile q).reverse, ?_⟩
  rw [trimEndWhere, ← List.reverse_append, ← whole, List.reverse_reverse]

/-- A trimmed rest starts as the rest does, or is empty. -/
theorem head?_trimEndWhere {q r : Char → Bool} {rest : List Char}
    (ends : rest.head?.any r = false) : (trimEndWhere q rest).head?.any r = false := by
  obtain ⟨tail, shape⟩ := trimEndWhere_prefix q rest
  cases same : trimEndWhere q rest with
  | nil => rfl
  | cons c inner =>
      rw [shape, same] at ends
      exact ends

/-- The name on a line is what stands there behind at most two at-signs. -/
theorem memberName?_spelled {gap signs name rest : List Char}
    (blank : ∀ c ∈ gap, isBlank c = true) (atSigns : signs = [] ∨ signs = ['@', '@'])
    (nonempty : name ≠ []) (isName : ∀ c ∈ name, isMemberChar c = true)
    (ends : rest.head?.any isMemberChar = false) :
    memberName? (gap ++ (signs ++ (name ++ rest))) = some (String.ofList (signs ++ name)) := by
  obtain ⟨front, last, rfl⟩ : ∃ front last, name = front ++ [last] :=
    ⟨_, _, (List.dropLast_append_getLast nonempty).symm⟩
  have keeps : isBlank last = false := not_isBlank_of_isMemberChar (isName last (by simp))
  have starts : ∃ c inner, signs ++ (front ++ [last] ++ rest) = c :: inner ∧
      isBlank c = false := by
    rcases atSigns with rfl | rfl
    · obtain ⟨c, inner, shape⟩ := List.exists_cons_of_ne_nil nonempty
      refine ⟨c, inner ++ rest, by rw [shape]; rfl, ?_⟩
      exact not_isBlank_of_isMemberChar (isName c (by rw [shape]; simp))
    · exact ⟨'@', _, rfl, by decide⟩
  have trimmed : trim (gap ++ (signs ++ (front ++ [last] ++ rest))) =
      signs ++ (front ++ [last] ++ trimEndWhere isBlank rest) := by
    obtain ⟨c, inner, shape, other⟩ := starts
    rw [trim, trimWhere, dropWhile_append_of_all blank, shape,
      List.dropWhile_cons_of_neg (by simp [other]), ← shape]
    have split : signs ++ (front ++ [last] ++ rest) = (signs ++ front) ++ last :: rest := by simp
    rw [split, trimEndWhere_append keeps]
    simp
  have noSign : (front ++ [last] ++ trimEndWhere isBlank rest).takeWhile (· == '@') = [] := by
    obtain ⟨c, inner, shape⟩ := List.exists_cons_of_ne_nil nonempty
    have other : c ≠ '@' := by
      rintro rfl
      exact absurd (isName '@' (by rw [shape]; simp)) (by decide)
    rw [shape, List.cons_append, List.takeWhile_cons_of_neg (by simpa using other)]
  have taken : (front ++ [last] ++ trimEndWhere isBlank rest).takeWhile isMemberChar =
      front ++ [last] :=
    takeWhile_eq_self_append (List.all_eq_true.2 isName) (head?_trimEndWhere ends)
  unfold memberName?
  simp only [trimmed]
  rcases atSigns with rfl | rfl
  · simp only [List.nil_append, noSign, List.take_nil, List.length_nil, List.drop_zero, taken]
    rw [if_neg (by simp)]
  · have signs : (['@', '@'] ++ (front ++ [last] ++ trimEndWhere isBlank rest)).takeWhile
        (· == '@') = ['@', '@'] := by
      rw [List.takeWhile_append_of_pos (by simp), noSign]
      rfl
    simp only [signs]
    show (if ((front ++ [last] ++ trimEndWhere isBlank rest).takeWhile isMemberChar).isEmpty = true
      then none else some (String.ofList (['@', '@'] ++ (front ++ [last] ++
        trimEndWhere isBlank rest).takeWhile isMemberChar))) = _
    rw [taken, if_neg (by simp)]

/-- A line has no name if it starts with something else. -/
theorem memberName?_unnamed {gap rest : List Char} (blank : ∀ c ∈ gap, isBlank c = true) {c : Char}
    (shown : isBlank c = false) (unnamed : isMemberChar c = false) (noSign : c ≠ '@') :
    memberName? (gap ++ c :: rest) = none := by
  have trimmed : trim (gap ++ c :: rest) = c :: trimEndWhere isBlank rest := by
    rw [trim, trimWhere, dropWhile_append_of_all blank,
      List.dropWhile_cons_of_neg (by simp [shown])]
    have kept : trimEndWhere isBlank ([] ++ c :: rest) = _ := trimEndWhere_append shown
    exact kept
  have signs : (c :: trimEndWhere isBlank rest).takeWhile (· == '@') = [] :=
    List.takeWhile_cons_of_neg (by simpa using noSign)
  have name : (c :: trimEndWhere isBlank rest).takeWhile isMemberChar = [] :=
    List.takeWhile_cons_of_neg (by simp [unnamed])
  unfold memberName?
  simp only [trimmed, signs, List.take_nil, List.length_nil, List.drop_zero, name,
    List.isEmpty_nil, if_true]

/-- A line that is blank but for a comment has no name. -/
theorem memberName?_blank {gap rest : List Char} (blank : ∀ c ∈ gap, isBlank c = true)
    (ends : rest = [] ∨ rest.head? = some '/') : memberName? (gap ++ rest) = none := by
  rcases ends with rfl | slash
  · have trimmed : trim (gap ++ []) = [] := by
      rw [trim, trimWhere, dropWhile_append_of_all blank]
      rfl
    unfold memberName?
    rw [trimmed]
    rfl
  · cases rest with
    | nil => cases slash
    | cons c inner =>
        obtain rfl := Option.some.inj slash
        exact memberName?_unnamed blank (by decide) (by decide) (by decide)

/-! ## Names on a line -/

def Touches (first second : Token) : Prop :=
  second.mark = first.mark.behind first.lexeme.text.toList

/-- Tokens that touch have no gap between them. -/
theorem gap_eq_nil {gap : List Char} (blank : ∀ c ∈ gap, IsGapChar c) {mark : Mark}
    (same : mark.behind gap = mark) : gap = [] := by
  rw [Mark.behind_of_noFeed (IsGapChar.noFeed blank)] at same
  have columns := congrArg Mark.column same
  simp only at columns
  exact List.length_eq_zero_iff.1 (by omega)

theorem text_of_name {lexeme : Lexeme} {name : String} (named : lexeme.name? = some name) :
    lexeme.text = name := by
  cases lexeme <;> simp_all [Lexeme.name?, Lexeme.text]

/-- A line that goes on with a dot goes on with that token. -/
theorem Segmented.head?_ne_dot {mark : Mark} {rest : List Char} {onward : List Segment}
    (segmented : Segmented 0 mark rest onward)
    (noDot : ∀ t others, tokensOf onward = t :: others → t.lexeme ≠ .punct .dot) :
    rest.head? ≠ some '.' := by
  intro dot
  cases segmented with
  | done => cases dot
  | @cons _ _ chars tail lexeme segments front others =>
      obtain ⟨c, inner, rfl⟩ := front.cons
      obtain rfl : c = '.' := by simpa using dot
      have sign : Front 0 ['.'] (some (.punct .dot)) (inner ++ tail) := .sign rfl
      obtain ⟨-, rfl, -⟩ := front.unique sign rfl
      exact noDot _ _ (tokensOf_token _ _ _ _) rfl

theorem ends_name {rest : List Char} (noWord : rest.head?.any isWordChar = false)
    (noDot : rest.head? ≠ some '.') : rest.head?.any isMemberChar = false := by
  cases rest with
  | nil => rfl
  | cons c rest =>
      have other : c ≠ '.' := by simpa using noDot
      simpa [isMemberChar, other] using noWord

theorem isMemberChar_of_isWordChar {c : Char} (word : isWordChar c = true) :
    isMemberChar c = true := by
  rw [isMemberChar, word, Bool.true_or]

/-- The parts of a dotted name that stands without gaps are spelled as they are. -/
theorem Segmented.dotted {parts : List Token} {others : String} (isDotted : IsDotParts parts others)
    {mark : Mark} {rest : List Char} {onward : List Segment}
    (segmented : Segmented 0 mark rest onward) (noFeed : '\n' ∉ rest) {behind : List Token}
    (tokens : tokensOf onward = parts ++ behind)
    (noDot : ∀ t others, behind = t :: others → t.lexeme ≠ .punct .dot) {previous : Token}
    (place : mark = previous.mark.behind previous.lexeme.text.toList)
    (tight : (previous :: parts).IsChain Touches) (noWord : rest.head?.any isWordChar = false) :
    ∃ tail, rest = others.toList ++ tail ∧ (∀ c ∈ others.toList, isMemberChar c = true) ∧
      tail.head?.any isMemberChar = false := by
  induction isDotted generalizing mark rest onward previous with
  | none =>
      refine ⟨rest, rfl, by simp, ends_name noWord (segmented.head?_ne_dot ?_)⟩
      intro t others' same
      exact noDot t others' (by rw [← same, tokens]; rfl)
  | @more dot token parts name others isDot named _ ih =>
      obtain ⟨touch₁, tight⟩ := List.isChain_cons_cons.1 tight
      obtain ⟨touch₂, tight⟩ := List.isChain_cons_cons.1 tight
      obtain ⟨gap₁, chars₁, rest₁, onward₁, rfl, blank₁, place₁, front₁, segmented₁, tokens₁, -⟩ :=
        segmented.next noFeed tokens
      simp only [List.mem_append, not_or] at noFeed
      obtain ⟨gap₂, chars₂, rest₂, onward₂, rfl, blank₂, place₂, front₂, segmented₂, tokens₂, -⟩ :=
        segmented₁.next noFeed.2.2 tokens₁
      simp only [List.mem_append, not_or] at noFeed
      rw [isDot] at front₁
      obtain rfl := front₁.punct
      obtain ⟨rfl, -, word, noWord₂⟩ := front₂.name named
      have same₁ : mark.behind gap₁ = mark := by rw [← place₁, touch₁, place]
      obtain rfl := gap_eq_nil blank₁ same₁
      have stop : dot.mark.behind Punct.dot.text.toList =
          dot.mark.behind dot.lexeme.text.toList := by rw [isDot]; rfl
      have same₂ : (dot.mark.behind Punct.dot.text.toList).behind gap₂ =
          dot.mark.behind Punct.dot.text.toList := by rw [← place₂, touch₂, stop]
      obtain rfl := gap_eq_nil blank₂ same₂
      obtain ⟨tail, shape, isName, ends⟩ := ih segmented₂ noFeed.2.2.2.2 tokens₂
        (by rw [text_of_name named]) tight noWord₂
      refine ⟨tail, by simp [shape, Punct.text], ?_, ends⟩
      intro c isIn
      simp only [String.toList_append, List.mem_append] at isIn
      rcases isIn with (isIn | isIn) | isIn
      · obtain rfl : c = '.' := by simpa using isIn
        decide
      · exact isMemberChar_of_isWordChar (word c isIn)
      · exact isName c isIn

/-! ## Members -/

/-- A line that starts with a name, and has no dot behind it, has that name. -/
theorem memberName?_named {mark : Mark} {line : List Char} {row : List Segment}
    (segmented : Segmented 0 mark line row) (noFeed : '\n' ∉ line) {token : Token}
    {others : List Token} (tokens : tokensOf row = token :: others) {name : String}
    (named : token.lexeme.name? = some name)
    (noDot : ∀ t rest, others = t :: rest → t.lexeme ≠ .punct .dot) :
    memberName? line = some name := by
  obtain ⟨gap, chars, rest, onward, rfl, blank, -, front, behind, tokens', -⟩ :=
    segmented.next noFeed tokens
  obtain ⟨rfl, ⟨c, inner, shape, -⟩, word, noWord⟩ := front.name named
  have ends := ends_name noWord (behind.head?_ne_dot fun t rest same =>
    noDot t rest (tokens'.symm.trans same))
  have spelled := memberName?_spelled (fun c isIn => (blank c isIn).isBlank) (.inl rfl)
    (by simp [shape]) (fun c isIn => isMemberChar_of_isWordChar (word c isIn)) ends
  rwa [List.nil_append, List.nil_append, String.ofList_toList] at spelled

/-- The name of a block attribute stands without gaps behind its at-signs. -/
def TightAttributes (tokens : List Token) : Prop :=
  ∀ before sign token parts after name others,
    tokens = before ++ (sign :: token :: parts) ++ after → sign.lexeme = .punct .doubleAt →
      token.lexeme.name? = some name → IsDotParts parts others →
        (sign :: token :: parts).IsChain Touches

theorem TightAttributes.part {tokens slice : List Token} (tight : TightAttributes tokens)
    (part : slice <:+: tokens) : TightAttributes slice := by
  obtain ⟨front, back, rfl⟩ := part
  intro before sign token parts after name others shape
  apply tight (front ++ before) sign token parts (after ++ back) name others
  rw [shape]
  simp

theorem memberName?_blockAttribute {mark : Mark} {line : List Char} {row : List Segment}
    (segmented : Segmented 0 mark line row) (noFeed : '\n' ∉ line) {sign token : Token}
    {parts inner : List Token} {first others : String}
    (tokens : tokensOf row = sign :: token :: (parts ++ inner))
    (isSign : sign.lexeme = .punct .doubleAt) (named : token.lexeme.name? = some first)
    (isDotted : IsDotParts parts others) (chain : (sign :: token :: parts).IsChain Touches)
    (noDot : ∀ t rest, inner = t :: rest → t.lexeme ≠ .punct .dot) :
    memberName? line = some ("@@" ++ (first ++ others)) := by
  obtain ⟨touch, tightParts⟩ := List.isChain_cons_cons.1 chain
  obtain ⟨gap₁, chars₁, rest₁, onward₁, rfl, blank₁, place₁, front₁, segmented₁, tokens₁, -⟩ :=
    segmented.next noFeed tokens
  simp only [List.mem_append, not_or] at noFeed
  obtain ⟨gap₂, chars₂, rest₂, onward₂, rfl, blank₂, place₂, front₂, segmented₂, tokens₂, -⟩ :=
    segmented₁.next noFeed.2.2 tokens₁
  simp only [List.mem_append, not_or] at noFeed
  rw [isSign] at front₁
  obtain rfl := front₁.punct
  obtain ⟨rfl, ⟨c, tail, shape, -⟩, word, noWord⟩ := front₂.name named
  have stop : sign.mark.behind Punct.doubleAt.text.toList =
      sign.mark.behind sign.lexeme.text.toList := by rw [isSign]; rfl
  have same₂ : (sign.mark.behind Punct.doubleAt.text.toList).behind gap₂ =
      sign.mark.behind Punct.doubleAt.text.toList := by rw [← place₂, touch, stop]
  obtain rfl := gap_eq_nil blank₂ same₂
  obtain ⟨behind, rfl, isName, ends⟩ := segmented₂.dotted isDotted noFeed.2.2.2.2 tokens₂
    noDot (by rw [text_of_name named]) tightParts noWord
  have spelled := memberName?_spelled (fun c isIn => (blank₁ c isIn).isBlank) (.inr rfl)
    (by simp [shape] : first.toList ++ others.toList ≠ [])
    (fun c isIn => (List.mem_append.1 isIn).elim
      (fun isIn => isMemberChar_of_isWordChar (word c isIn)) (isName c)) ends
  have label : String.ofList (['@', '@'] ++ (first.toList ++ others.toList)) =
      "@@" ++ (first ++ others) := by
    rw [← String.toList_inj]
    simp
  rw [label, List.append_assoc] at spelled
  exact spelled

/-! ## The first line of a member -/

/-- On a line, a stretch that does not start above it starts with its own first token. -/
theorem eq_of_lineTokens_cons {first t : Token} {rest others : List Token} {number : Nat}
    (ordered : (first :: rest).Pairwise Precedes) (below : number + 1 ≤ first.mark.line)
    (same : lineTokens (first :: rest) number = t :: others) : t = first := by
  obtain ⟨front, -⟩ := List.pairwise_cons.1 ordered
  have known : t ∈ lineTokens (first :: rest) number := by
    rw [same]
    exact List.mem_cons_self
  obtain ⟨isIn, line, other⟩ := mem_lineTokens.1 known
  rcases List.mem_cons.1 isIn with rfl | isIn
  · rfl
  have above := front t isIn
  have here : first.mark.line = number + 1 := Nat.le_antisymm (line ▸ above.1) below
  have noEnd : first.lexeme ≠ .newline := by
    intro isEnd
    have apart := above.2 isEnd
    omega
  rw [lineTokens_cons_here here noEnd] at same
  exact (List.cons.inj same).1.symm

/-- No dot follows on the line if none follows at all. -/
theorem noDot_lineTokens {tokens : List Token} {number : Nat} (ordered : tokens.Pairwise Precedes)
    (below : ∀ t ∈ tokens, number + 1 ≤ t.mark.line)
    (noDot : ∀ t rest, tokens = t :: rest → t.lexeme ≠ .punct .dot) :
    ∀ t rest, lineTokens tokens number = t :: rest → t.lexeme ≠ .punct .dot := by
  intro t rest same
  cases tokens with
  | nil => cases same
  | cons first others =>
      rw [eq_of_lineTokens_cons ordered (below first List.mem_cons_self) same]
      exact noDot first others rfl

/-- The parts of a dotted name are dots and names. -/
theorem Grammar.IsDotParts.mem {parts : List Token} {others : String}
    (isDotted : IsDotParts parts others) :
    ∀ t ∈ parts, t.lexeme = .punct .dot ∨ ∃ name, t.lexeme.name? = some name := by
  induction isDotted with
  | none => exact List.forall_mem_nil _
  | more isDot named _ ih =>
      exact List.forall_mem_cons.2 ⟨.inl isDot, List.forall_mem_cons.2 ⟨.inr ⟨_, named⟩, ih⟩⟩

def NamesOnLine (tokens : List Token) : Prop :=
  ∀ t ∈ tokens, ∀ name, t.lexeme.name? = some name → '\n' ∉ name.toList

theorem Segmented.namesOnLine {depth : Nat} {mark : Mark} {text : List Char}
    {segments : List Segment} (segmented : Segmented depth mark text segments) :
    NamesOnLine (tokensOf segments) := by
  intro t isIn name named hasFeed
  obtain ⟨segment, known, lexeme, -⟩ := token_mem_iff.1 isIn
  obtain ⟨under, rest, front⟩ := segmented.exists_front known
  rw [lexeme] at front
  obtain ⟨shape, -, word, -⟩ := front.name named
  rw [← shape] at hasFeed
  exact absurd (word _ hasFeed) (by decide)

theorem Touches.line_eq {first second : Token} (touch : Touches first second)
    (noFeed : '\n' ∉ first.lexeme.text.toList) : second.mark.line = first.mark.line := by
  rw [touch, Mark.line_behind_of_noFeed noFeed]

/-- Tokens that touch stand on one line. -/
theorem line_of_touches {first : Token} {rest : List Token}
    (chain : (first :: rest).IsChain Touches)
    (noFeed : ∀ t ∈ first :: rest, '\n' ∉ t.lexeme.text.toList) :
    ∀ t ∈ first :: rest, t.mark.line = first.mark.line := by
  induction rest generalizing first with
  | nil => simp
  | cons second rest ih =>
      obtain ⟨touch, onward⟩ := List.isChain_cons_cons.1 chain
      have next := touch.line_eq (noFeed first List.mem_cons_self)
      intro t isIn
      rcases List.mem_cons.1 isIn with rfl | isIn
      · rfl
      · rw [ih onward (fun t isIn => noFeed t (.tail _ isIn)) t isIn, next]

/-- The name of a block attribute that stands without gaps stands on one line. -/
theorem line_of_tight {sign token : Token} {parts : List Token} {first others : String}
    (isSign : sign.lexeme = .punct .doubleAt) (named : token.lexeme.name? = some first)
    (isDotted : IsDotParts parts others) (chain : (sign :: token :: parts).IsChain Touches)
    (names : NamesOnLine (sign :: token :: parts)) :
    ∀ t ∈ sign :: token :: parts, t.mark.line = sign.mark.line := by
  apply line_of_touches chain
  have spelled : ∀ t ∈ sign :: token :: parts, t.lexeme = .punct .doubleAt ∨
      t.lexeme = .punct .dot ∨ ∃ name, t.lexeme.name? = some name :=
    List.forall_mem_cons.2 ⟨.inl isSign, List.forall_mem_cons.2 ⟨.inr (.inr ⟨_, named⟩),
      fun t isIn => .inr (isDotted.mem t isIn)⟩⟩
  intro t isIn
  rcases spelled t isIn with isSign | isDot | ⟨name, named⟩
  · rw [isSign]
    decide
  · rw [isDot]
    decide
  · rw [text_of_name named]
    exact names t isIn name named

/-- Scanning reads the label of a block attribute off its first line. -/
theorem memberName?_attribute {sign : Token} {own : List Token} {attr : Attribute}
    (isSign : sign.lexeme = .punct .doubleAt) (isAttribute : IsAttribute true sign.mark own attr)
    (inner : ∀ t ∈ sign :: own, t.lexeme ≠ .newline) {number : Nat}
    (here : sign.mark.line = number + 1) (ordered : (sign :: own).Pairwise Precedes)
    (names : NamesOnLine (sign :: own)) (tight : TightAttributes (sign :: own)) {mark : Mark}
    {line : List Char} {row : List Segment} (segmented : Segmented 0 mark line row)
    (noFeed : '\n' ∉ line) (tokens : tokensOf row = lineTokens (sign :: own) number) :
    memberName? line = some attr.label := by
  cases isAttribute with
  | @intro token parts behind name others arguments named isDotted isArguments =>
      have chain := tight [] sign token parts behind name others rfl isSign named isDotted
      have apart : sign :: (token :: parts ++ behind) = (sign :: token :: parts) ++ behind := rfl
      rw [apart] at ordered names tokens inner
      -- the whole name stands on the line of its at-signs
      have same := line_of_tight isSign named isDotted chain
        fun t isIn => names t (List.mem_append_left _ isIn)
      rw [lineTokens_append, lineTokens_of_forall fun t isIn =>
        ⟨(same t isIn).trans here, inner t (List.mem_append_left _ isIn)⟩] at tokens
      obtain ⟨-, onward, across⟩ := List.pairwise_append.1 ordered
      refine memberName?_blockAttribute segmented noFeed tokens isSign named isDotted chain
        (noDot_lineTokens onward (fun t isIn => ?_) fun t rest same isDot => ?_)
      · rw [← here]
        exact (across sign List.mem_cons_self t isIn).1
      · cases isArguments with
        | absent => cases same
        | list opens _ _ =>
            obtain ⟨rfl, -⟩ := List.cons.inj same
            rw [opens] at isDot
            cases isDot

/-- Scanning reads a name off its line if the name comes first there and no dot goes on with
it. -/
theorem memberName?_first {token : Token} {rest : List Token} {name : String}
    (named : token.lexeme.name? = some name)
    (noDot : ∀ t others, rest = t :: others → t.lexeme ≠ .punct .dot) {number : Nat}
    (here : token.mark.line = number + 1) (ordered : (token :: rest).Pairwise Precedes)
    {mark : Mark} {line : List Char} {row : List Segment} (segmented : Segmented 0 mark line row)
    (noFeed : '\n' ∉ line) (tokens : tokensOf row = lineTokens (token :: rest) number) :
    memberName? line = some name := by
  obtain ⟨front, onward⟩ := List.pairwise_cons.1 ordered
  have other : token.lexeme ≠ .newline := by
    intro isEnd
    rw [isEnd] at named
    cases named
  rw [lineTokens_cons_here here other] at tokens
  refine memberName?_named segmented noFeed tokens named (noDot_lineTokens onward ?_ noDot)
  intro t isIn
  rw [← here]
  exact (front t isIn).1

/-- **Scanning reads the name of a member off its first line**, whatever the lists of its
attributes hold on further lines. -/
theorem memberName?_member {kind : BlockKind} {slice : List Token} {m : Member}
    (member : IsMember kind slice m) {number : Nat} (here : m.declared.1 = number)
    (ordered : slice.Pairwise Precedes) (names : NamesOnLine slice) (tight : TightAttributes slice)
    {mark : Mark} {line : List Char} {row : List Segment} (segmented : Segmented 0 mark line row)
    (noFeed : '\n' ∉ line) (tokens : tokensOf row = lineTokens slice number) :
    memberName? line = some m.declared.2 := by
  have inner := member.inside.inner
  obtain ⟨first, rest, shape, place⟩ := member.head
  rw [place, Mark.row_eq_iff] at here
  cases member with
  | assignment _ named isEquals _ =>
      obtain ⟨rfl, rfl⟩ := List.cons.inj shape
      refine memberName?_first named (fun t others same => ?_) here ordered segmented noFeed tokens
      obtain ⟨rfl, -⟩ := List.cons.inj same
      rw [isEquals]
      simp
  | field _ named typed _ _ _ =>
      obtain ⟨rfl, rfl⟩ := List.cons.inj shape
      refine memberName?_first named (fun t others same isDot => ?_) here ordered segmented noFeed
        tokens
      obtain ⟨rfl, -⟩ := List.cons.inj same
      rw [isDot] at typed
      cases typed
  | value _ named attributes =>
      obtain ⟨rfl, rfl⟩ := List.cons.inj shape
      refine memberName?_first named (fun t others same isDot => ?_) here ordered segmented noFeed
        tokens
      cases attributes with
      | none => cases same
      | more sign _ _ =>
          obtain ⟨rfl, -⟩ := List.cons.inj same
          rw [sign] at isDot
          cases isDot
  | blockAttribute _ isSign isAttribute =>
      obtain ⟨rfl, rfl⟩ := List.cons.inj shape
      exact memberName?_attribute isSign isAttribute (fun t isIn => (inner t isIn).1) here ordered
        names tight segmented noFeed tokens

end SchemaAssist
