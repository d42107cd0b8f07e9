/-
# SchemaAssist.Proofs.Text.LineCounts — a line of the editor and a count of line feeds

Any part of a text ends somewhere on a line of the editor (`ShownLine`): above stand the lines
that have ended by then, and what follows stands on the next one.  Every line feed has ended a
line, so there are at least as many of these lines as there are line feeds; there are no more
of them exactly if all line ends so far are plain.

The part is taken apart as an editor reads it, one line end or one character at a time, and
`exists_shownLine` puts the steps together.
-/
import SchemaAssist.Proofs.Text.Lines

namespace SchemaAssist.Text

set_option autoImplicit false

/-! ## Plain line ends, one by one -/

theorem plainLineEnds_nil : PlainLineEnds [] where
  noRare := List.forall_mem_nil _
  returns front back shape := by simp at shape

theorem plainLineEnds_cons {c : Char} {rest : List Char} (noReturn : c ≠ '\r')
    (common : isRareLineEnd c = false) : PlainLineEnds (c :: rest) ↔ PlainLineEnds rest := by
  refine ⟨fun plain => plain.of_append [c], fun plain => ⟨?_, fun front back shape => ?_⟩⟩
  · exact List.forall_mem_cons.2 ⟨common, plain.noRare⟩
  · cases front with
    | nil => exact absurd (List.cons.inj shape).1 noReturn
    | cons d front => exact plain.returns front back (List.cons.inj shape).2

theorem plainLineEnds_pair {rest : List Char} :
    PlainLineEnds ('\r' :: '\n' :: rest) ↔ PlainLineEnds rest := by
  have feed : PlainLineEnds ('\n' :: rest) ↔ PlainLineEnds rest :=
    plainLineEnds_cons (by decide) (by decide)
  refine ⟨fun plain => plain.of_append ['\r', '\n'], fun plain => ⟨?_, fun front back shape => ?_⟩⟩
  · exact List.forall_mem_cons.2 ⟨by decide, (feed.2 plain).noRare⟩
  · cases front with
    | nil =>
        obtain ⟨-, rfl⟩ := List.cons.inj shape
        rfl
    | cons d front => exact (feed.2 plain).returns front back (List.cons.inj shape).2

/-! ## Line ends of the editor -/

theorem editorLines_return {rest : List Char} (noPair : rest.head? ≠ some '\n') :
    editorLines ('\r' :: rest) = [] :: editorLines rest := by
  rw [editorLines, if_pos (.inr rfl)]
  rintro back - rfl
  exact noPair rfl

theorem editorLines_rare {c : Char} (rare : isRareLineEnd c = true) (rest : List Char) :
    editorLines (c :: rest) = [c] :: editorLines rest := by
  have noReturn : c ≠ '\r' := by
    rintro rfl
    exact absurd rare (by decide)
  have noFeed : c ≠ '\n' := by
    rintro rfl
    exact absurd rare (by decide)
  rw [editorLines, if_neg (by simp [noFeed, noReturn]), if_pos rare]
  exact fun _ isReturn => absurd isReturn noReturn

/-- Characters that may stand on a line start the first one. -/
theorem editorLines_starts {chars : List Char} (nonempty : chars ≠ [])
    (onLine : ∀ c ∈ chars, OnLine c) (rest : List Char) :
    ∃ after below, editorLines (chars ++ rest) = (chars ++ after) :: below := by
  induction chars with
  | nil => exact absurd rfl nonempty
  | cons c chars ih =>
      obtain ⟨here, onLine⟩ := List.forall_mem_cons.1 onLine
      rw [List.cons_append, editorLines_cons here]
      cases chars with
      | nil =>
          rw [List.nil_append]
          cases editorLines rest with
          | nil => exact ⟨[], [], rfl⟩
          | cons line lines => exact ⟨line, lines, rfl⟩
      | cons d chars =>
          obtain ⟨after, below, shape⟩ := ih (List.cons_ne_nil _ _) onLine
          exact ⟨after, below, by rw [shape]; rfl⟩

/-! ## The line that a part ends on -/

/-- The part `front` of a text ends in `before` on a line of its own, behind the lines of
`upper`, and `chars` follow on that line. -/
structure ShownLine (front chars rest upper before : List Char) : Prop where
  split : front = upper ++ before
  shown : ∃ after below, editorLines (front ++ (chars ++ rest)) =
    editorLines upper ++ (before ++ chars ++ after) :: below
  count_le : front.count '\n' ≤ (editorLines upper).length
  count_eq_iff : front.count '\n' = (editorLines upper).length ↔ PlainLineEnds front

namespace ShownLine

variable {front chars rest upper before : List Char}

theorem nil (nonempty : chars ≠ []) (onLine : ∀ c ∈ chars, OnLine c) :
    ShownLine [] chars rest [] [] where
  split := rfl
  shown := editorLines_starts nonempty onLine rest
  count_le := Nat.le_refl _
  count_eq_iff := iff_of_true rfl plainLineEnds_nil

theorem feed (line : ShownLine front chars rest upper before) :
    ShownLine ('\n' :: front) chars rest ('\n' :: upper) before := by
  have above (text : List Char) : editorLines ('\n' :: text) = [] :: editorLines text :=
    editorLines_cons_lineEnd (.inl rfl) text
  obtain ⟨rfl, ⟨after, below, shape⟩, le, same⟩ := line
  refine ⟨rfl, ⟨after, below, ?_⟩, ?_, ?_⟩
  · rw [List.cons_append, above, above, shape]
    rfl
  · rw [above, List.length_cons, List.count_cons_self]
    exact Nat.succ_le_succ le
  · rw [above, List.length_cons, List.count_cons_self, plainLineEnds_cons (by decide) (by decide),
      ← same]
    exact Nat.succ_inj

theorem pair (line : ShownLine front chars rest upper before) :
    ShownLine ('\r' :: '\n' :: front) chars rest ('\r' :: '\n' :: upper) before := by
  have above (text : List Char) : editorLines ('\r' :: '\n' :: text) = [] :: editorLines text :=
    editorLines_cons_lineEnd (.inr rfl) text
  obtain ⟨rfl, ⟨after, below, shape⟩, le, same⟩ := line
  refine ⟨rfl, ⟨after, below, ?_⟩, ?_, ?_⟩
  · rw [List.cons_append, List.cons_append, above, above, shape]
    rfl
  · rw [above, List.length_cons, List.count_cons_of_ne (by decide), List.count_cons_self]
    exact Nat.succ_le_succ le
  · rw [above, List.length_cons, List.count_cons_of_ne (by decide), List.count_cons_self,
      plainLineEnds_pair, ← same]
    exact Nat.succ_inj

/-- A line end that is not plain ends a line and is no line feed. -/
theorem odd {c : Char} {line : List Char} (shown : ShownLine front chars rest upper before)
    (noFeed : c ≠ '\n') (odd : ¬ PlainLineEnds (c :: front))
    (whole : editorLines (c :: (front ++ (chars ++ rest))) =
      line :: editorLines (front ++ (chars ++ rest)))
    (above : editorLines (c :: upper) = line :: editorLines upper) :
    ShownLine (c :: front) chars rest (c :: upper) before := by
  obtain ⟨rfl, ⟨after, below, shape⟩, le, -⟩ := shown
  refine ⟨rfl, ⟨after, below, ?_⟩, ?_, ?_⟩
  · rw [List.cons_append, whole, above, shape]
    rfl
  · rw [above, List.length_cons, List.count_cons_of_ne noFeed]
    exact Nat.le_succ_of_le le
  · rw [above, List.length_cons, List.count_cons_of_ne noFeed]
    exact iff_of_false (by omega) odd

theorem rare {c : Char} (shown : ShownLine front chars rest upper before)
    (isRare : isRareLineEnd c = true) : ShownLine (c :: front) chars rest (c :: upper) before := by
  refine shown.odd ?_ ?_ (editorLines_rare isRare _) (editorLines_rare isRare _)
  · rintro rfl
    exact absurd isRare (by decide)
  · intro plain
    have common := plain.noRare c List.mem_cons_self
    rw [isRare] at common
    cases common

theorem carriageReturn (shown : ShownLine front chars rest upper before)
    (noPair : front.head? ≠ some '\n') (ends : chars.head?.any (· != '\n') = true) :
    ShownLine ('\r' :: front) chars rest ('\r' :: upper) before := by
  refine shown.odd (by decide) ?_ (editorLines_return ?_) (editorLines_return ?_)
  · exact fun plain => noPair (plain.returns [] front rfl)
  · intro feed
    rw [List.head?_append, List.head?_append] at feed
    cases first : front.head? with
    | some c =>
        rw [first] at feed noPair
        exact noPair feed
    | none =>
        cases starts : chars.head? with
        | some c =>
            rw [first, starts] at feed
            rw [starts] at ends
            obtain rfl := Option.some.inj feed
            exact absurd ends (by decide)
        | none =>
            rw [starts] at ends
            cases ends
  · intro feed
    refine noPair ?_
    rw [shown.split, List.head?_append, feed]
    rfl

/-- Another character on the line. -/
theorem cons {c : Char} (line : ShownLine front chars rest upper before) (onLine : OnLine c) :
    ∃ upper before, ShownLine (c :: front) chars rest upper before := by
  obtain ⟨rfl, ⟨after, below, shape⟩, le, same⟩ := line
  rw [← plainLineEnds_cons onLine.2.1 onLine.2.2] at same
  rw [← List.count_cons_of_ne onLine.1] at le same
  cases upper with
  | nil =>
      refine ⟨[], c :: before, rfl, ⟨after, below, ?_⟩, le, same⟩
      rw [List.cons_append, editorLines_cons onLine, shape]
      rfl
  | cons d upper =>
      have size : (editorLines (c :: d :: upper)).length = (editorLines (d :: upper)).length := by
        rw [editorLines_cons onLine]
        cases lines : editorLines (d :: upper) with
        | nil => exact absurd lines editorLines_ne_nil
        | cons line lines => rfl
      refine ⟨c :: d :: upper, before, rfl, ⟨after, below, ?_⟩, size ▸ le, size ▸ same⟩
      rw [List.cons_append, editorLines_cons onLine, editorLines_cons onLine, shape,
        consLine_append editorLines_ne_nil]

end ShownLine

/-- **Any part of a text ends on a line of the editor**, with what follows it. -/
theorem exists_shownLine (front : List Char) {chars : List Char} (nonempty : chars ≠ [])
    (onLine : ∀ c ∈ chars, OnLine c) (rest : List Char) :
    ∃ upper before, ShownLine front chars rest upper before := by
  fun_induction editorLines front with
  | case1 => exact ⟨[], [], .nil nonempty onLine⟩
  | case2 front ih =>
      obtain ⟨upper, before, line⟩ := ih
      exact ⟨_, _, line.pair⟩
  | case3 c front noPair isEnd ih =>
      obtain ⟨upper, before, line⟩ := ih
      rcases isEnd with rfl | rfl
      · exact ⟨_, _, line.feed⟩
      · refine ⟨_, _, line.carriageReturn (fun feed => ?_) ?_⟩
        · obtain ⟨inner, shape⟩ := List.head?_eq_some_iff.1 feed
          exact noPair inner rfl shape
        · obtain ⟨c, inner, rfl⟩ := List.exists_cons_of_ne_nil nonempty
          exact bne_iff_ne.2 (onLine c List.mem_cons_self).1
  | case4 c front noPair noEnd isRare ih =>
      obtain ⟨upper, before, line⟩ := ih
      exact ⟨_, _, line.rare isRare⟩
  | case5 c front noPair noEnd noRare ih =>
      obtain ⟨upper, before, line⟩ := ih
      have noEnd' := not_or.1 noEnd
      exact line.cons ⟨noEnd'.1, noEnd'.2, by simpa using noRare⟩

end SchemaAssist.Text
