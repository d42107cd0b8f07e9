/-
# SchemaAssist.Proofs.Token.Insertion — gaps put into a text

A gap can be put in behind any token, and at the start of a text: it prolongs no token, and it
leaves the open parentheses and brackets as they are (`Segmented.insert_gap`).  A comment can be
put in wherever a line ends, also behind another comment, which it then prolongs
(`Segmented.insert_comment`).

Either way the same lexemes follow, at other places.  How far the places matter is left to a
function `f` that loses what the gap changes: the columns if the gap stays on the line, and the
lines too if it does not.
-/
import SchemaAssist.Proofs.Grammar.Lexemes
import SchemaAssist.Proofs.Token.Continuation
import SchemaAssist.Proofs.Token.Partition

namespace SchemaAssist

set_option autoImplicit false

open Text Grammar

/-! ## Where a token ends -/

/-- The spelling of the token ends right in front of that place of the text. -/
def Token.EndsAt (source : List Char) (token : Token) (place : Nat) : Prop :=
  ∃ chars rest, source.drop (token.offsetIn source) = chars ++ rest ∧
    Spells token.lexeme chars ∧ place = token.offsetIn source + chars.length

theorem Token.EndsAt.unique {source : List Char} {token : Token} {place other : Nat}
    (here : token.EndsAt source place) (there : token.EndsAt source other) : place = other := by
  obtain ⟨chars, rest, split, spells, rfl⟩ := here
  obtain ⟨chars', rest', split', spells', rfl⟩ := there
  rw [split] at split'
  cases lexeme : token.lexeme with
  | string text =>
      rw [lexeme] at spells spells'
      obtain ⟨body, rfl, quoted⟩ := spells
      obtain ⟨body', rfl, quoted'⟩ := spells'
      have same : body ++ '"' :: rest = body' ++ '"' :: rest' := by simpa using split'
      simp [quoted.length_unique quoted' same]
  | _ =>
      rw [lexeme] at spells spells'
      obtain rfl : chars = _ := spells
      obtain rfl : chars' = _ := spells'
      rfl

/-- Behind any token a text can be cut, and the token ends there. -/
theorem Segmented.exists_endsAt {text : List Char} {segments : List Segment}
    {front back : List Token} {last : Token} (segmented : Segmented 0 .start text segments)
    (tokens : tokensOf segments = front ++ last :: back) :
    ∃ upTo others, segments = upTo ++ others ∧ tokensOf upTo = front ++ [last] ∧
      EndsOnToken upTo ∧ last.EndsAt text (upTo.flatMap (·.chars)).length := by
  obtain ⟨upTo, others, rfl, count, ends⟩ :=
    exists_tokensOf_take segments (front ++ [last]).length
  have split : front ++ last :: back = (front ++ [last]) ++ back := by simp
  rw [tokens, split, List.take_left] at count
  refine ⟨upTo, others, rfl, count, ends, ?_⟩
  -- the last of these segments is the token
  obtain rfl | ⟨inner, ⟨mark, chars, lexeme⟩, rfl⟩ := List.eq_nil_or_concat' upTo
  · simp at count
  obtain ⟨lexeme, rfl⟩ := Option.isSome_iff_exists.1 (ends ⟨mark, chars, lexeme⟩ (by simp))
  rw [tokensOf_append, tokensOf_token, tokensOf_nil] at count
  obtain ⟨-, same⟩ := List.append_inj' count rfl
  obtain rfl := (List.cons.inj same).1
  rw [List.append_assoc] at segmented
  obtain ⟨rest, shape, behind⟩ := segmented.cut
  cases behind with
  | @cons _ _ _ rest _ _ here _ =>
      have offset : Mark.offsetIn text (Mark.start.behind (inner.flatMap (·.chars))) =
          (inner.flatMap (·.chars)).length := by
        rw [shape, Mark.offsetIn_behind]
      refine ⟨chars, rest, ?_, here.spells, ?_⟩
      · rw [Token.offsetIn, offset, shape, List.drop_left]
      · rw [Token.offsetIn, offset]
        simp

/-- Behind a token whose place is known, the text is cut at that place. -/
theorem Segmented.cut_behind {front rest : List Char} {segments : List Segment}
    {before after : List Token} {token : Token}
    (segmented : Segmented 0 .start (front ++ rest) segments)
    (tokens : tokensOf segments = before ++ token :: after)
    (here : token.EndsAt (front ++ rest) front.length) :
    ∃ upTo others, segments = upTo ++ others ∧ upTo.flatMap (·.chars) = front ∧
      EndsOnToken upTo ∧ tokensOf upTo = before ++ [token] := by
  obtain ⟨upTo, others, rfl, spelled, last, ends⟩ := segmented.exists_endsAt tokens
  obtain ⟨behind, split, -⟩ := segmented.cut
  exact ⟨upTo, others, rfl, (List.append_inj split (here.unique ends)).1.symm, last, spelled⟩

/-- A text can be cut where a line ends outside strings: in front of a line feed that no string
encloses, and at the end of the text. -/
theorem Segmented.exists_cut {front rest : List Char} {segments : List Segment}
    (segmented : Segmented 0 .start (front ++ rest) segments)
    (ends : rest = [] ∨ rest.head? = some '\n' ∧
      ∀ token ∈ tokensOf segments, ¬ token.Encloses (front ++ rest) front.length) :
    ∃ before others, segments = before ++ others ∧ before.flatMap (·.chars) = front := by
  have text := segmented.flatten
  rw [List.flatMap_def, List.flatten_eq_append_iff] at text
  rcases text with
    ⟨first, second, split, rfl, -⟩ | ⟨first, start, c, tail, second, split, rfl, shape⟩
  · obtain ⟨before, others, rfl, rfl, -⟩ := List.map_eq_append_iff.1 split
    exact ⟨before, others, rfl, List.flatMap_def⟩
  obtain ⟨before, _, rfl, rfl, onward⟩ := List.map_eq_append_iff.1 split
  obtain ⟨⟨mark, chars, lexeme⟩, others, rfl, rfl, rfl⟩ := List.map_eq_cons_iff.1 onward
  rcases ends with rfl | ⟨feed, outside⟩
  · cases shape
  obtain rfl : c = '\n' := by simpa [shape] using feed
  obtain ⟨behind, whole, onward⟩ := segmented.cut
  cases onward with
  | @cons _ _ _ behind _ _ here _ =>
      rcases here.feed_or_string (by simp) with alone | ⟨content, rfl⟩
      · obtain rfl : start = [] := by
          cases start with
          | nil => rfl
          | cons d start => simp at alone
        exact ⟨before, _, rfl, by simp [List.flatMap_def]⟩
      · -- the string would enclose the line feed
        rw [← List.flatMap_def] at whole outside
        let source := before.flatMap (·.chars) ++ start ++ rest
        let token : Token := ⟨.string content, Mark.start.behind (before.flatMap (·.chars))⟩
        have offset : token.offsetIn source = (before.flatMap (·.chars)).length := by
          show Mark.offsetIn (_ ++ start ++ rest) _ = _
          rw [whole, Mark.offsetIn_behind]
        have own : source.drop (token.offsetIn source) = start ++ '\n' :: tail ++ behind := by
          show (_ ++ start ++ rest).drop (token.offsetIn source) = _
          rw [offset, whole, List.drop_left]
        have encloses : token.Encloses source (token.offsetIn source + start.length) :=
          here.spells.encloses rfl own (by simp)
        apply absurd encloses
        rw [offset, ← List.length_append]
        exact outside token (by simp [token])

/-! ## Segments at other places -/

/-- What `f` tells apart of places is told by what it tells apart in front of a character. -/
def Steps (f : Mark → Mark) : Prop :=
  ∀ mark other, f mark = f other → ∀ c, f (mark.after c) = f (other.after c)

theorem steps_startOfLine : Steps Mark.startOfLine := by
  intro mark other same c
  have line : mark.line = other.line := (Mark.mk.inj same).1
  unfold Mark.after Mark.startOfLine
  split <;> simp [line]

variable {f : Mark → Mark}

theorem Steps.behind (steps : Steps f) {mark other : Mark} (same : f mark = f other)
    (chars : List Char) : f (mark.behind chars) = f (other.behind chars) := by
  induction chars generalizing mark other with
  | nil => exact same
  | cons c chars ih => exact ih (steps mark other same c)

/-- A text has the same segments at another place, as far as `f` tells places apart. -/
theorem Segmented.elsewhere (steps : Steps f) {depth : Nat} {mark other : Mark}
    {text : List Char} {segments : List Segment} (segmented : Segmented depth mark text segments)
    (same : f other = f mark) :
    ∃ moved, Segmented depth other text moved ∧
      (tokensOf moved).map (·.relocate f) = (tokensOf segments).map (·.relocate f) := by
  induction segmented generalizing other with
  | done => exact ⟨[], .done, rfl⟩
  | @cons depth mark chars rest lexeme segments front _ ih =>
      obtain ⟨moved, segmented, tokens⟩ := ih (steps.behind same chars)
      refine ⟨_, .cons front segmented, ?_⟩
      rw [tokensOf_cons, tokensOf_cons, List.map_append, List.map_append, tokens]
      cases lexeme with
      | none => rfl
      | some lexeme => simp [Segment.token?, Token.relocate, same]

/-! ## Gaps -/

/-- A gap in front of segments adds no token. -/
theorem IsGap.segmented {depth : Nat} {gap rest : List Char} (isGap : IsGap depth gap rest)
    (mark : Mark) {others : List Segment} (onward : Segmented depth (mark.behind gap) rest others) :
    ∃ segments, Segmented depth mark (gap ++ rest) segments ∧
      tokensOf segments = tokensOf others := by
  induction isGap generalizing mark with
  | none => exact ⟨others, onward, rfl⟩
  | @blank c gap rest isBlank _ ih =>
      obtain ⟨segments, segmented, tokens⟩ := ih (mark.behind [c]) onward
      have front : Front depth [c] .none (gap ++ rest) := .blank isBlank
      have whole := Segmented.cons front segmented
      exact ⟨_, whole, tokens⟩
  | @comment body gap rest noFeed ends _ ih =>
      rw [Mark.behind_append] at onward
      obtain ⟨segments, segmented, tokens⟩ := ih _ onward
      have front : Front depth ('/' :: '/' :: body) .none (gap ++ rest) := .comment noFeed ends
      refine ⟨⟨mark, '/' :: '/' :: body, .none⟩ :: segments, ?_, tokens⟩
      rw [List.append_assoc]
      exact .cons front segmented
  | @feed gap rest positive _ ih =>
      obtain ⟨segments, segmented, tokens⟩ := ih (mark.behind ['\n']) onward
      have noToken : feedLexeme depth = .none := if_neg (Nat.ne_of_gt positive)
      have front : Front depth ['\n'] .none (gap ++ rest) := noToken ▸ .feed
      have whole := Segmented.cons front segmented
      exact ⟨_, whole, tokens⟩

theorem IsGap.ofBlanks {gap : List Char} (blank : ∀ c ∈ gap, IsGapChar c) (depth : Nat)
    (rest : List Char) : IsGap depth gap rest := by
  induction gap with
  | nil => exact .none
  | cons c gap ih =>
      obtain ⟨here, blank⟩ := List.forall_mem_cons.1 blank
      exact .blank here (ih blank)

theorem IsGap.prolongsNoToken {depth : Nat} {gap rest : List Char} (isGap : IsGap depth gap rest)
    (nonempty : gap ≠ []) : ProlongsNoToken (gap ++ rest) := by
  cases isGap with
  | none => exact absurd rfl nonempty
  | blank isBlank _ =>
      rcases isBlank with rfl | rfl | rfl <;> (rintro c ⟨⟩; decide)
  | comment _ _ _ =>
      rintro c ⟨⟩
      decide
  | feed _ _ =>
      rintro c ⟨⟩
      decide

/-- **A gap behind a token**, or at the start, keeps the tokens. -/
theorem Segmented.insert_gap (steps : Steps f) {depth : Nat} {mark : Mark}
    {front gap rest : List Char} {before others : List Segment}
    (segmented : Segmented depth mark (front ++ rest) (before ++ others))
    (shape : before.flatMap (·.chars) = front) (last : EndsOnToken before)
    (isGap : IsGap (depthBehind depth (tokensOf before)) gap rest)
    (same : f ((mark.behind front).behind gap) = f (mark.behind front)) :
    ∃ segments, Segmented depth mark (front ++ (gap ++ rest)) segments ∧
      (tokensOf segments).map (·.relocate f) =
        (tokensOf (before ++ others)).map (·.relocate f) := by
  subst shape
  by_cases empty : gap = []
  · subst empty
    exact ⟨_, segmented, rfl⟩
  obtain ⟨behind, split, onward⟩ := segmented.cut
  obtain rfl := List.append_cancel_left split
  obtain ⟨moved, onward', tokens⟩ := onward.elsewhere steps same
  obtain ⟨inserted, segmented', tokens'⟩ := isGap.segmented _ onward'
  refine ⟨_, segmented.take_append last segmented' (isGap.prolongsNoToken empty), ?_⟩
  rw [tokensOf_append, tokensOf_append, List.map_append, List.map_append, tokens', tokens]

/-- A comment goes on with what is put in at its end. -/
theorem Segmented.prolong_comment (steps : Steps f) {depth : Nat} {mark : Mark}
    {body remark rest : List Char} {others : List Segment}
    (onward : Segmented depth (mark.behind ('/' :: '/' :: body)) rest others)
    (inBody : '\n' ∉ body) (noFeed : '\n' ∉ remark) (ends : EndsSegment rest)
    (same : f ((mark.behind ('/' :: '/' :: body)).behind ('/' :: '/' :: remark)) =
      f (mark.behind ('/' :: '/' :: body))) :
    ∃ segments, Segmented depth mark
        ('/' :: '/' :: body ++ ('/' :: '/' :: remark ++ rest)) segments ∧
      (tokensOf segments).map (·.relocate f) = (tokensOf others).map (·.relocate f) := by
  have longer : Front depth ('/' :: '/' :: body ++ '/' :: '/' :: remark) none rest :=
    .comment (by simp [inBody, noFeed]) ends
  rw [← Mark.behind_append] at same
  obtain ⟨moved, onward, tokens⟩ := onward.elsewhere steps same
  have whole := Segmented.cons longer onward
  refine ⟨⟨mark, '/' :: '/' :: body ++ '/' :: '/' :: remark, none⟩ :: moved, ?_, tokens⟩
  rwa [List.append_assoc] at whole

/-- **A comment at the end of a line** keeps the tokens. -/
theorem Segmented.insert_comment (steps : Steps f) {depth : Nat} {mark : Mark}
    {front remark rest : List Char} {before others : List Segment}
    (segmented : Segmented depth mark (front ++ rest) (before ++ others))
    (shape : before.flatMap (·.chars) = front) (noFeed : '\n' ∉ remark) (ends : EndsSegment rest)
    (same : ∀ mark : Mark, f (mark.behind ('/' :: '/' :: remark)) = f mark) :
    ∃ segments, Segmented depth mark (front ++ ('/' :: '/' :: remark ++ rest)) segments ∧
      (tokensOf segments).map (·.relocate f) =
        (tokensOf (before ++ others)).map (·.relocate f) := by
  subst shape
  have slash : ∀ text, ProlongsNoToken ('/' :: text) := by
    rintro text c ⟨⟩
    decide
  induction before generalizing depth mark with
  | nil =>
      have comment : Front depth ('/' :: '/' :: remark) none rest := .comment noFeed ends
      obtain ⟨moved, onward, tokens⟩ := segmented.elsewhere steps (same mark)
      have whole := Segmented.cons comment onward
      exact ⟨_, whole, tokens⟩
  | cons first before ih =>
      rw [List.flatMap_cons, List.append_assoc] at segmented ⊢
      generalize text : first.chars ++ (before.flatMap (·.chars) ++ rest) = whole at segmented
      cases segmented with
      | @cons _ _ chars behind lexeme _ here onward =>
          obtain rfl := List.append_cancel_left text
          obtain ⟨segments, segmented, tokens⟩ := ih onward
          have kept : Front depth chars lexeme
                (before.flatMap (·.chars) ++ ('/' :: '/' :: remark ++ rest)) →
              ∃ segments, Segmented depth mark (chars ++ (before.flatMap (·.chars) ++
                  ('/' :: '/' :: remark ++ rest))) segments ∧
                (tokensOf segments).map (·.relocate f) =
                  (tokensOf (⟨mark, chars, lexeme⟩ :: before ++ others)).map (·.relocate f) := by
            intro front
            refine ⟨_, .cons front segmented, ?_⟩
            rw [tokensOf_cons, List.cons_append, tokensOf_cons, List.map_append, List.map_append,
              tokens]
          cases before with
          | cons next before =>
              apply kept
              apply here.retail
              obtain ⟨under, behind, front⟩ := onward.exists_front List.mem_cons_self
              obtain ⟨c, inner, shape⟩ := front.cons
              simp [shape]
          | nil =>
              rcases here.before_other (slash _) with stays | ⟨rfl, body, inBody, rfl⟩
              · exact kept stays
              · exact onward.prolong_comment steps inBody noFeed ends (same _)

end SchemaAssist
