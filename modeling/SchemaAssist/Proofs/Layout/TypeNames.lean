/-
# SchemaAssist.Proofs.Layout.TypeNames — what scanning takes for a name is one

Scanning looks for word characters between a keyword and a brace, and a digit is a word
character too.  Where the text has a tree the brace is the one of a block, and what stands
before it on the line is the name of that block, which the lexer has read
(`isName_of_header?`).  So scanning never takes anything else for the name of a type.
-/
import SchemaAssist.Proofs.Layout.Blocks
import SchemaAssist.Proofs.Token.Words

namespace SchemaAssist

set_option autoImplicit false

open Text Scan Grammar

/-- A text is split in one way in front of the longest run at its end. -/
theorem append_inj_of_lastRun {q : Char → Bool} {front₁ front₂ last₁ last₂ : List Char}
    (all₁ : ∀ c ∈ last₁, q c = true) (ends₁ : front₁.getLast?.any q = false)
    (all₂ : ∀ c ∈ last₂, q c = true) (ends₂ : front₂.getLast?.any q = false)
    (same : front₁ ++ last₁ = front₂ ++ last₂) : front₁ = front₂ ∧ last₁ = last₂ := by
  have reversed : last₁.reverse ++ front₁.reverse = last₂.reverse ++ front₂.reverse := by
    rw [← List.reverse_append, same, List.reverse_append]
  obtain ⟨last, front⟩ := append_inj_of_run (q := q) (List.all_eq_true.2 (by simpa using all₁))
    (by simpa using ends₁) (List.all_eq_true.2 (by simpa using all₂)) (by simpa using ends₂)
    reversed
  exact ⟨List.reverse_injective front, List.reverse_injective last⟩

theorem getLast?_any_append {q : Char → Bool} (front : List Char) {last : List Char}
    (nonempty : last ≠ []) (none : ∀ c ∈ last, q c = false) :
    (front ++ last).getLast?.any q = false := by
  rw [List.getLast?_append_of_ne_nil _ nonempty, List.getLast?_eq_some_getLast nonempty]
  exact none _ (List.getLast_mem nonempty)

/-- Between a keyword, a name and an opening brace on a line there are only gaps, and one
of them stands before the name. -/
theorem Segmented.before_brace {mark : Mark} {line : List Char} {row : List Segment}
    (segmented : Segmented 0 mark line row) (noFeed : '\n' ∉ line) {before others : List Token}
    {keyword token opening : Token} {name first : String}
    (tokens : tokensOf row = before ++ keyword :: token :: opening :: others)
    (isKeyword : keyword.lexeme.name? = some first) (named : token.lexeme.name? = some name) :
    ∃ front gap rest, line = front ++ (name.toList ++ (gap ++ rest)) ∧
      front.getLast?.any isWordChar = false ∧ (∀ c ∈ gap, IsGapChar c) ∧ IsName name.toList ∧
      opening.mark = mark.behind (front ++ (name.toList ++ gap)) := by
  obtain ⟨front, spelled, rest, onward, rfl, place, keywordFront, segmented₁, tokens₁⟩ :=
    segmented.at_token noFeed tokens
  simp only [List.mem_append, not_or] at noFeed
  obtain ⟨gap₁, chars, rest₁, onward₁, rfl, blank₁, place₁, nameFront, segmented₂, tokens₂, -⟩ :=
    segmented₁.next noFeed.2.2 tokens₁
  simp only [List.mem_append, not_or] at noFeed
  obtain ⟨gap₂, brace, rest₂, onward₂, rfl, blank₂, place₂, -, -, -, -⟩ :=
    segmented₂.next noFeed.2.2.2.2 tokens₂
  obtain ⟨rfl, ⟨c, inner, shape, starts⟩, -, -⟩ := nameFront.name named
  obtain ⟨-, -, -, ends⟩ := keywordFront.name isKeyword
  refine ⟨front ++ (spelled ++ gap₁), gap₂, brace ++ rest₂, by simp, ?_, blank₂,
    nameFront.isName named, ?_⟩
  · have apart : gap₁ ≠ [] := by
      rintro rfl
      rw [List.nil_append, shape] at ends
      simp [isWordChar_of_isWordStart starts] at ends
    rw [← List.append_assoc]
    exact getLast?_any_append _ apart fun c isIn => (blank₁ c isIn).not_isWordChar
  · rw [place₂, place₁, place]
    simp only [Mark.behind_append]

/-- **The name in a scanned header is a name**, whatever the layout of the text. -/
theorem isName_of_header? {text : List Char} {segments : List Segment} {schema : Schema}
    (segmented : Segmented 0 .start text segments) (alone : FeedsAlone segments)
    (plain : PlainLineEnds text) (derived : IsSchema (tokensOf segments) schema) {number : Nat}
    {found : Header} (isHeader : header? (editorLine text number) = some found) :
    IsName found.name.toList := by
  obtain ⟨front, blanks, back, line, apart, common, nonempty, word, blank⟩ :=
    exists_name_of_header? isHeader
  obtain ⟨row, isRow⟩ := exists_row segmented alone plain number
  have signless : ∀ c ∈ front ++ (found.name.toList ++ blanks),
      isBlank c = true ∨ isWordChar c = true := by
    intro c isIn
    simp only [List.mem_append] at isIn
    rcases isIn with isIn | isIn | isIn
    · exact common c isIn
    · exact .inr (word c isIn)
    · exact .inl (blank c isIn)
  have cut : editorLine text number =
      (front ++ (found.name.toList ++ blanks)) ++ '\x7b' :: back := by
    rw [line]
    simp
  -- the brace of the header is that of a block
  have isIn := (cut ▸ isRow.segmented).sign_mem (p := .braceOpen) (by unfold IsPlainSign; decide)
    (not_mem_of_blank_or_word signless (by decide) (by decide))
    (not_mem_of_blank_or_word signless (by decide) (by decide))
  rw [isRow.tokens] at isIn
  obtain ⟨known, here, -⟩ := mem_lineTokens.1 isIn
  obtain ⟨b, -, before, keyword, token, opening, inner, closing, after, placed, same⟩ :=
    derived.brace known (.inl rfl)
  obtain rfl : _ = opening := by
    rcases same with same | same
    · exact same
    · have closes := placed.closes
      rw [← same] at closes
      cases closes
  -- and before that brace there is the name of the block
  have first : keyword.mark.line = number + 1 := by
    rw [← (segmented.header_sameLine alone placed).2, here]
  have tokens := isRow.tokens.trans (segmented.lineTokens_header alone placed first)
  obtain ⟨front', gap, rest, line', apart', blank', isName, place⟩ :=
    isRow.segmented.before_brace isRow.noFeed tokens (by rw [placed.isKeyword]; rfl) placed.named
  have fronts : front ++ (found.name.toList ++ blanks) = front' ++ (b.name.toList ++ gap) := by
    have noFeed := isRow.noFeed
    have noFeed' := isRow.noFeed
    rw [cut, List.mem_append, not_or] at noFeed
    rw [line', ← List.append_assoc, ← List.append_assoc, List.mem_append, not_or,
      List.append_assoc] at noFeed'
    rw [Mark.behind_of_noFeed noFeed.1, Mark.behind_of_noFeed noFeed'.1] at place
    have columns := congrArg Mark.column place
    have both := cut.symm.trans line'
    rw [← List.append_assoc b.name.toList, ← List.append_assoc front'] at both
    exact (List.append_inj both (Nat.add_left_cancel columns)).1
  have word' := isName.wordChars
  obtain ⟨names, -⟩ := append_inj_of_lastRun blank
    (getLast?_any_append front nonempty fun c isIn => not_isBlank_of_isWordChar (word c isIn))
    (fun c isIn => (blank' c isIn).isBlank)
    (getLast?_any_append front' isName.ne_nil fun c isIn =>
      not_isBlank_of_isWordChar (word' c isIn))
    (by rw [List.append_assoc, List.append_assoc]; exact fronts)
  have apart₁ : front.getLast?.any isWordChar = false := by
    cases last : front.getLast? with
    | none => rfl
    | some c => exact isWordChar_of_isBlank (by simpa [last] using apart)
  rw [(append_inj_of_lastRun word apart₁ word' apart' names).2]
  exact isName

end SchemaAssist
