/-
# SchemaAssist.Proofs.Layout.Headers — what scanning makes of headers and braces

The lines on which a block starts and ends, character by character.  A keyword, a name
and an opening brace with gaps between them are a header (`header?_spelled`).
Conversely every header has an opening brace with neither quote nor slash before it
(`exists_of_header?`), which is all that is needed to find the brace among the tokens.
-/
import SchemaAssist.Document.Scan
import SchemaAssist.Proofs.Token.Along
import SchemaAssist.Proofs.Text.Blanks
import Mathlib.Data.List.Basic

namespace SchemaAssist

set_option autoImplicit false

open Text Scan

/-! ## Keywords -/

theorem leadingKeyword?_append (kind : BlockKind) (rest : List Char) :
    leadingKeyword? (kind.keyword.toList ++ rest) = some (kind, rest) := by
  cases kind <;> rfl

theorem leadingKeyword?_eq_some {text rest : List Char} {kind : BlockKind}
    (found : leadingKeyword? text = some (kind, rest)) : text = kind.keyword.toList ++ rest := by
  obtain ⟨other, -, same⟩ := List.exists_of_findSome?_eq_some found
  obtain ⟨behind, stripped, same⟩ := Option.map_eq_some_iff.1 same
  obtain ⟨rfl, rfl⟩ := Prod.mk.inj same
  exact stripWord_eq_some.1 stripped

theorem isWordChar_of_mem_keyword (kind : BlockKind) :
    ∀ c ∈ kind.keyword.toList, isWordChar c = true := by
  cases kind <;> exact List.all_eq_true.1 (by decide)

theorem keyword_eq_cons (kind : BlockKind) : ∃ c rest, kind.keyword.toList = c :: rest := by
  cases kind <;> exact ⟨_, _, rfl⟩

/-! ## Headers -/

def headerText (gap₁ gap₂ gap₃ : List Char) (kind : BlockKind) (name : String)
    (rest : List Char) : List Char :=
  gap₁ ++ (kind.keyword.toList ++ (gap₂ ++ (name.toList ++ (gap₃ ++ '\x7b' :: rest))))

section

variable {gap₁ gap₂ gap₃ : List Char} {kind : BlockKind} {name : String}

theorem trimStart_headerText (blank₁ : ∀ c ∈ gap₁, IsGapChar c) (rest : List Char) :
    trimStart (headerText gap₁ gap₂ gap₃ kind name rest) =
      kind.keyword.toList ++ (gap₂ ++ (name.toList ++ (gap₃ ++ '\x7b' :: rest))) := by
  rw [headerText, trimStart_append fun c isIn => (blank₁ c isIn).isBlank]
  obtain ⟨c, inner, keyword⟩ := keyword_eq_cons kind
  have word := isWordChar_of_mem_keyword kind c (by simp [keyword])
  rw [keyword, List.cons_append, trimStart_cons (not_isBlank_of_isWordChar word)]

/-- Whatever follows, such a line is a header. -/
theorem header?_spelled (blank₁ : ∀ c ∈ gap₁, IsGapChar c) (blank₂ : ∀ c ∈ gap₂, IsGapChar c)
    (blank₃ : ∀ c ∈ gap₃, IsGapChar c) (apart : gap₂ ≠ []) (nonempty : name.toList ≠ [])
    (word : ∀ c ∈ name.toList, isWordChar c = true) (rest : List Char) :
    header? (headerText gap₁ gap₂ gap₃ kind name rest) = some ⟨kind, name⟩ := by
  have behindName : (gap₃ ++ '\x7b' :: rest).head?.any isWordChar = false := by
    cases gap₃ with
    | nil => rfl
    | cons c gap₃ => simpa using (blank₃ c (by simp)).not_isWordChar
  have front : trimStart (gap₂ ++ (name.toList ++ (gap₃ ++ '\x7b' :: rest))) =
      name.toList ++ (gap₃ ++ '\x7b' :: rest) := by
    rw [trimStart_append fun c isIn => (blank₂ c isIn).isBlank]
    obtain ⟨c, inner, shape⟩ := List.exists_cons_of_ne_nil nonempty
    have other := not_isBlank_of_isWordChar (word c (by simp [shape]))
    rw [shape, List.cons_append, trimStart_cons other]
  have taken : (name.toList ++ (gap₃ ++ '\x7b' :: rest)).takeWhile isWordChar = name.toList :=
    takeWhile_eq_self_append (List.all_eq_true.2 word) behindName
  have dropped : (name.toList ++ (gap₃ ++ '\x7b' :: rest)).dropWhile isWordChar =
      gap₃ ++ '\x7b' :: rest := by
    rw [dropWhile_append_of_all word]
    cases gap₃ with
    | nil => rfl
    | cons c gap₃ =>
        rw [List.cons_append, List.dropWhile_cons_of_neg (by simpa using behindName)]
  have brace : trimStart (gap₃ ++ '\x7b' :: rest) = '\x7b' :: rest := by
    rw [trimStart_append fun c isIn => (blank₃ c isIn).isBlank, trimStart_cons (by decide)]
  have blank : (gap₂ ++ (name.toList ++ (gap₃ ++ '\x7b' :: rest))).head?.any isBlank = true := by
    obtain ⟨c, inner, rfl⟩ := List.exists_cons_of_ne_nil apart
    simpa using (blank₂ c (by simp)).isBlank
  unfold header?
  rw [trimStart_headerText blank₁, leadingKeyword?_append]
  simp only [front, taken, dropped, brace, blank, List.head?_cons, true_and, and_true]
  rw [if_pos (by simpa using nonempty), String.ofList_toList]

theorem not_startsWithBrace_headerText (blank₁ : ∀ c ∈ gap₁, IsGapChar c) (rest : List Char) :
    startsWithBrace (headerText gap₁ gap₂ gap₃ kind name rest) = false := by
  rw [startsWithBrace, trimStart_headerText blank₁]
  cases kind <;> rfl

/-- What stands before the opening brace holds no plain sign. -/
theorem headerText_eq (kind : BlockKind) (blank₁ : ∀ c ∈ gap₁, IsGapChar c)
    (blank₂ : ∀ c ∈ gap₂, IsGapChar c) (blank₃ : ∀ c ∈ gap₃, IsGapChar c)
    (word : ∀ c ∈ name.toList, isWordChar c = true) (rest : List Char) :
    ∃ front, headerText gap₁ gap₂ gap₃ kind name rest = front ++ '\x7b' :: rest ∧
      ∀ c ∈ front, IsGapChar c ∨ isWordChar c = true := by
  refine ⟨gap₁ ++ (kind.keyword.toList ++ (gap₂ ++ (name.toList ++ gap₃))),
    by simp [headerText], ?_⟩
  intro c isIn
  simp only [List.mem_append] at isIn
  rcases isIn with isIn | isIn | isIn | isIn | isIn
  · exact .inl (blank₁ c isIn)
  · exact .inr (isWordChar_of_mem_keyword kind c isIn)
  · exact .inl (blank₂ c isIn)
  · exact .inr (word c isIn)
  · exact .inl (blank₃ c isIn)

end

/-- In a header, the name is a run of word characters between a blank and the opening
brace, with only blanks and word characters before it. -/
theorem exists_name_of_header? {line : List Char} {found : Header}
    (isHeader : header? line = some found) :
    ∃ front blanks back, line = front ++ (found.name.toList ++ (blanks ++ '\x7b' :: back)) ∧
      front.getLast?.any isBlank = true ∧ (∀ c ∈ front, isBlank c = true ∨ isWordChar c = true) ∧
      found.name.toList ≠ [] ∧ (∀ c ∈ found.name.toList, isWordChar c = true) ∧
      ∀ c ∈ blanks, isBlank c = true := by
  unfold header? at isHeader
  split at isHeader
  · cases isHeader
  rename_i kind rest keyword
  simp only at isHeader
  split at isHeader
  · rename_i shape
    obtain rfl := Option.some.inj isHeader
    obtain ⟨apart, nonempty, brace⟩ := shape
    obtain ⟨blanks₁, blank₁, line₁⟩ := exists_trimStart line
    obtain ⟨blanks₂, blank₂, line₂⟩ := exists_trimStart rest
    obtain ⟨blanks₃, blank₃, line₃⟩ :=
      exists_trimStart ((trimStart rest).dropWhile isWordChar)
    have name : trimStart rest = (trimStart rest).takeWhile isWordChar ++
        (trimStart rest).dropWhile isWordChar := List.takeWhile_append_dropWhile.symm
    obtain ⟨back, last⟩ : ∃ back, trimStart ((trimStart rest).dropWhile isWordChar) =
        '\x7b' :: back := by
      cases behind : trimStart ((trimStart rest).dropWhile isWordChar) with
      | nil => simp [behind] at brace
      | cons c back =>
          obtain rfl : c = '\x7b' := by simpa [behind] using brace
          exact ⟨back, rfl⟩
    have gap : blanks₂ ≠ [] := by
      rintro rfl
      obtain ⟨c, inner, shape⟩ := List.exists_cons_of_ne_nil
        (show (trimStart rest).takeWhile isWordChar ≠ [] by simpa using nonempty)
      have word : isWordChar c = true :=
        List.mem_takeWhile_imp (show c ∈ (trimStart rest).takeWhile isWordChar by simp [shape])
      rw [line₂, name, shape] at apart
      have blank : isBlank c = true := by simpa using apart
      rw [not_isBlank_of_isWordChar word] at blank
      cases blank
    refine ⟨blanks₁ ++ (kind.keyword.toList ++ blanks₂), blanks₃, back, ?_, ?_, ?_, ?_, ?_,
      blank₃⟩
    · conv_lhs => rw [line₁, leadingKeyword?_eq_some keyword, line₂, name, line₃, last]
      simp
    · rw [← List.append_assoc, List.getLast?_append_of_ne_nil _ gap,
        List.getLast?_eq_some_getLast gap]
      exact blank₂ _ (List.getLast_mem gap)
    · intro c isIn
      simp only [List.mem_append] at isIn
      rcases isIn with isIn | isIn | isIn
      · exact .inl (blank₁ c isIn)
      · exact .inr (isWordChar_of_mem_keyword kind c isIn)
      · exact .inl (blank₂ c isIn)
    · simpa using nonempty
    · intro c isIn
      rw [String.toList_ofList] at isIn
      exact List.mem_takeWhile_imp isIn
  · cases isHeader

/-- A header has an opening brace, with only blanks and word characters before it. -/
theorem exists_of_header? {line : List Char} {found : Header}
    (isHeader : header? line = some found) :
    ∃ front back, line = front ++ '\x7b' :: back ∧
      ∀ c ∈ front, isBlank c = true ∨ isWordChar c = true := by
  obtain ⟨front, blanks, back, rfl, -, plain, -, word, blank⟩ := exists_name_of_header? isHeader
  refine ⟨front ++ (found.name.toList ++ blanks), back, by simp, ?_⟩
  intro c isIn
  simp only [List.mem_append] at isIn
  rcases isIn with isIn | isIn | isIn
  · exact plain c isIn
  · exact .inr (word c isIn)
  · exact .inl (blank c isIn)

/-! ## Braces -/

theorem closesOnLine_append {front rest : List Char} (noBrace : '\x7b' ∉ front) :
    closesOnLine (front ++ '\x7b' :: rest) = decide ('\x7d' ∈ rest) := by
  have before : ∀ c ∈ front, (c != '\x7b') = true := fun c isIn =>
    bne_iff_ne.2 (ne_of_mem_of_not_mem isIn noBrace)
  rw [closesOnLine, dropWhile_append_of_all before, List.dropWhile_cons_of_neg (by simp)]
  simp

theorem startsWithBrace_append {gap : List Char} (blank : ∀ c ∈ gap, isBlank c = true)
    (rest : List Char) : startsWithBrace (gap ++ '\x7d' :: rest) = true := by
  rw [startsWithBrace, trimStart_append blank, trimStart_cons (by decide)]
  rfl

theorem exists_of_startsWithBrace {line : List Char} (starts : startsWithBrace line = true) :
    ∃ blanks back, line = blanks ++ '\x7d' :: back ∧ ∀ c ∈ blanks, isBlank c = true := by
  obtain ⟨blanks, blank, shape⟩ := exists_trimStart line
  rw [startsWithBrace] at starts
  cases behind : trimStart line with
  | nil => simp [behind] at starts
  | cons c back =>
      obtain rfl : c = '\x7d' := by simpa [behind] using starts
      exact ⟨blanks, back, by rw [← behind]; exact shape, blank⟩

end SchemaAssist
