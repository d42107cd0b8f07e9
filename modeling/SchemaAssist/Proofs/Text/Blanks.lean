/-
# SchemaAssist.Proofs.Text.Blanks — blanks, words and patterns on a line

No blank is a word character, so a line that is blanks and words in turn is taken apart
as it was put together.  `stripWord`, `occursIn` and `firstMatch` are described by the
ways in which a line can be written as a concatenation.
-/
import SchemaAssist.Document.Scan
import SchemaAssist.Proofs.Text.Lines
import Mathlib.Data.List.TakeWhile
import Mathlib.Tactic.Common

namespace SchemaAssist.Text

set_option autoImplicit false

/-! ## Classes of characters -/

theorem CodeRanges.exists_of_has {ranges : CodeRanges} {n : Nat} (has : ranges.has n = true) :
    ∃ range ∈ ranges, range.1 ≤ n ∧ n ≤ range.2 := by
  induction ranges with
  | nil => cases has
  | cons range ranges ih =>
      obtain ⟨lo, hi⟩ := range
      simp only [CodeRanges.has, Bool.and_eq_true, Bool.or_eq_true, decide_eq_true_eq] at has
      obtain ⟨above, below | onward⟩ := has
      · exact ⟨(lo, hi), by simp, above, below⟩
      · obtain ⟨range, isIn, inside⟩ := ih onward
        exact ⟨range, by simp [isIn], inside⟩

def blankCodes : List Nat :=
  blankRanges.flatMap fun range => List.range' range.1 (range.2 + 1 - range.1)

theorem blankCodes_separate : ∀ n ∈ blankCodes, letterRanges.has n = false ∧
    digitRanges.has n = false ∧ numeralRanges.has n = false ∧ n ≠ 95 := by
  decide +kernel

theorem isWordChar_of_isBlank {c : Char} (blank : isBlank c = true) : isWordChar c = false := by
  obtain ⟨range, isIn, above, below⟩ := CodeRanges.exists_of_has blank
  have code : c.toNat ∈ blankCodes := by
    rw [blankCodes, List.mem_flatMap]
    exact ⟨range, isIn, List.mem_range'_1.2 ⟨above, by omega⟩⟩
  obtain ⟨noLetter, noDigit, noNumeral, noLine⟩ := blankCodes_separate c.toNat code
  have other : c ≠ '_' := by
    rintro rfl
    exact noLine rfl
  simp [isWordChar, isAlphanumeric, isLetter, isDigit, noLetter, noDigit, noNumeral, other]

theorem not_isBlank_of_isWordChar {c : Char} (word : isWordChar c = true) :
    isBlank c = false := by
  rw [Bool.eq_false_iff]
  intro blank
  rw [isWordChar_of_isBlank blank] at word
  cases word

theorem not_isBlank_of_isMemberChar {c : Char} (isMember : Scan.isMemberChar c = true) :
    isBlank c = false := by
  rcases Bool.or_eq_true_iff.1 isMember with word | dot
  · exact not_isBlank_of_isWordChar word
  · obtain rfl := beq_iff_eq.1 dot
    decide

/-- Blanks and word characters are no signs. -/
theorem not_mem_of_blank_or_word {front : List Char} {sign : Char}
    (plain : ∀ c ∈ front, isBlank c = true ∨ isWordChar c = true) (noBlank : isBlank sign = false)
    (noWord : isWordChar sign = false) : sign ∉ front := by
  intro isIn
  rcases plain sign isIn with blank | word
  · rw [noBlank] at blank
    cases blank
  · rw [noWord] at word
    cases word

/-! ## Trimming -/

theorem dropWhile_append_of_all {q : Char → Bool} {front : List Char}
    (all : ∀ c ∈ front, q c = true) (rest : List Char) :
    (front ++ rest).dropWhile q = rest.dropWhile q := by
  rw [List.dropWhile_append]
  simp [List.dropWhile_eq_nil_iff.2 all]

/-- A text is a run of a class and a rest that does not start with it. -/
theorem takeWhile_dropWhile_iff {q : Char → Bool} {text run rest : List Char} :
    text.takeWhile q = run ∧ text.dropWhile q = rest ↔
      text = run ++ rest ∧ (∀ c ∈ run, q c = true) ∧ rest.head?.any q = false := by
  constructor
  · rintro ⟨rfl, rfl⟩
    refine ⟨List.takeWhile_append_dropWhile.symm, fun _ isIn => List.mem_takeWhile_imp isIn, ?_⟩
    have behind := List.head?_dropWhile_not q text
    cases head : (text.dropWhile q).head? with
    | none => rfl
    | some c => simpa [head] using behind
  · rintro ⟨rfl, all, ends⟩
    have none : rest.takeWhile q = [] ∧ rest.dropWhile q = rest := by
      cases rest with
      | nil => exact ⟨rfl, rfl⟩
      | cons c rest =>
          have other : ¬ q c = true := by simpa using ends
          exact ⟨List.takeWhile_cons_of_neg other, List.dropWhile_cons_of_neg other⟩
    rw [List.takeWhile_append_of_pos all, dropWhile_append_of_all all, none.1, none.2,
      List.append_nil]
    exact ⟨rfl, rfl⟩

theorem trimStart_append {blanks : List Char} (all : ∀ c ∈ blanks, isBlank c = true)
    (rest : List Char) : trimStart (blanks ++ rest) = trimStart rest :=
  dropWhile_append_of_all all rest

theorem trimStart_cons {c : Char} (other : isBlank c = false) (rest : List Char) :
    trimStart (c :: rest) = c :: rest := by
  rw [trimStart, List.dropWhile_cons_of_neg (by simp [other])]

/-- What indentation is taken off. -/
theorem exists_trimStart (text : List Char) :
    ∃ blanks, (∀ c ∈ blanks, isBlank c = true) ∧ text = blanks ++ trimStart text :=
  ⟨text.takeWhile isBlank, fun _ isIn => List.mem_takeWhile_imp isIn,
    List.takeWhile_append_dropWhile.symm⟩

/-- The run of a class at the end of a text. -/
def lastRun (q : Char → Bool) (text : List Char) : List Char :=
  (text.reverse.takeWhile q).reverse

/-- A text is a run of a class at its end and a front that does not end with it. -/
theorem trimEndWhere_lastRun_iff {q : Char → Bool} {text front run : List Char} :
    trimEndWhere q text = front ∧ lastRun q text = run ↔
      text = front ++ run ∧ (∀ c ∈ run, q c = true) ∧ front.getLast?.any q = false := by
  have reversed : trimEndWhere q text = front ∧ lastRun q text = run ↔
      text.reverse.takeWhile q = run.reverse ∧ text.reverse.dropWhile q = front.reverse := by
    rw [trimEndWhere, lastRun, List.reverse_eq_iff, List.reverse_eq_iff, and_comm]
  rw [reversed, takeWhile_dropWhile_iff, ← List.reverse_append, List.reverse_inj,
    List.head?_reverse]
  simp only [List.mem_reverse]

theorem append_lastRun (q : Char → Bool) (text : List Char) :
    trimEndWhere q text ++ lastRun q text = text :=
  (trimEndWhere_lastRun_iff.1 ⟨rfl, rfl⟩).1.symm

theorem apply_of_mem_lastRun {q : Char → Bool} {text : List Char} {c : Char}
    (isIn : c ∈ lastRun q text) : q c = true :=
  (trimEndWhere_lastRun_iff.1 ⟨rfl, rfl⟩).2.1 c isIn

theorem mem_trimStart {text : List Char} {c : Char} (isIn : c ∈ text) (other : isBlank c = false) :
    c ∈ trimStart text := by
  obtain ⟨blanks, blank, shape⟩ := exists_trimStart text
  rw [shape] at isIn
  rcases List.mem_append.1 isIn with isIn | isIn
  · rw [blank c isIn] at other
    cases other
  · exact isIn

/-! ## Words at the front -/

theorem stripWord_eq_some {word text rest : List Char} :
    stripWord word text = some rest ↔ text = word ++ rest := by
  induction word generalizing text with
  | nil => simp [stripWord]
  | cons w word ih =>
      cases text with
      | nil => simp [stripWord]
      | cons c text =>
          rw [stripWord, List.cons_append, List.cons.injEq]
          by_cases same : c = w
          · rw [if_pos same, ih]
            simp [same]
          · rw [if_neg same]
            simp [same]

theorem isSome_stripWord {word text : List Char} :
    (stripWord word text).isSome = true ↔ word <+: text := by
  rw [Option.isSome_iff_exists]
  exact exists_congr fun rest => stripWord_eq_some.trans eq_comm

theorem stripWord_append (word rest : List Char) : stripWord word (word ++ rest) = some rest :=
  stripWord_eq_some.2 rfl

/-! ## Words between blanks -/

theorem words_append {blanks : List Char} (blank : ∀ c ∈ blanks, isBlank c = true)
    (rest : List Char) : words (blanks ++ rest) = words rest := by
  induction blanks with
  | nil => rfl
  | cons c blanks ih =>
      obtain ⟨here, blank⟩ := List.forall_mem_cons.1 blank
      rw [← ih blank, List.cons_append, words, splitWhere, if_pos here]
      rfl

/-- A run without blanks is a word, up to the next blank. -/
theorem words_append_cons {word : List Char} (nonempty : word ≠ [])
    (noBlank : ∀ c ∈ word, isBlank c = false) {c : Char} (blank : isBlank c = true)
    (rest : List Char) : words (word ++ c :: rest) = word :: words rest := by
  rw [words, splitWhere_append_cons noBlank blank,
    List.filter_cons_of_pos (by simpa using nonempty)]
  rfl

/-- The last run without blanks is a word too. -/
theorem words_of_noBlank {word : List Char} (nonempty : word ≠ [])
    (noBlank : ∀ c ∈ word, isBlank c = false) : words word = [word] := by
  rw [words, splitWhere_of_none noBlank, List.filter_cons_of_pos (by simpa using nonempty),
    List.filter_nil]

/-- The words on either side of a blank. -/
theorem words_append_blank {c : Char} (blank : isBlank c = true) (front rest : List Char) :
    words (front ++ c :: rest) = words front ++ words rest := by
  rw [words, splitWhere_append blank, List.filter_append]
  rfl

/-- The first word ends at a blank, or with the text. -/
theorem words_word_append {word back : List Char} (nonempty : word ≠ [])
    (noBlank : ∀ c ∈ word, isBlank c = false) (ends : back.head?.all isBlank = true) :
    words (word ++ back) = word :: words back := by
  cases back with
  | nil =>
      rw [List.append_nil, words_of_noBlank nonempty noBlank]
      rfl
  | cons c back =>
      have blank : isBlank c = true := ends
      have onward : words (c :: back) = words back := words_append_blank blank [] back
      rw [words_append_cons nonempty noBlank blank, onward]

/-- A word is cut out of a text at blanks, or at the ends of the text. -/
theorem words_append_word {front word back : List Char}
    (starts : front.getLast?.all isBlank = true) (nonempty : word ≠ [])
    (noBlank : ∀ c ∈ word, isBlank c = false) (ends : back.head?.all isBlank = true) :
    words (front ++ (word ++ back)) = words front ++ word :: words back := by
  have behind := words_word_append nonempty noBlank ends
  rcases List.eq_nil_or_concat' front with rfl | ⟨inner, c, rfl⟩
  · exact behind
  · have blank : isBlank c = true := by simpa using starts
    have onward : words (inner ++ [c]) = words inner ++ words [] := words_append_blank blank inner []
    rw [List.append_assoc, List.singleton_append, words_append_blank blank, behind, onward]
    simp [words, splitWhere]

/-- The first word of a text. -/
theorem exists_of_words_eq_cons {text word : List Char} {rest : List (List Char)}
    (split : words text = word :: rest) :
    ∃ blanks back, text = blanks ++ (word ++ back) ∧ (∀ c ∈ blanks, isBlank c = true) ∧
      word ≠ [] ∧ (∀ c ∈ word, isBlank c = false) ∧ back.head?.all isBlank = true ∧
      words back = rest := by
  obtain ⟨blanks, blank, shape⟩ := exists_trimStart text
  obtain ⟨run, back, runs⟩ : ∃ run back, (trimStart text).takeWhile (!isBlank ·) = run ∧
      (trimStart text).dropWhile (!isBlank ·) = back := ⟨_, _, rfl, rfl⟩
  obtain ⟨cut, noBlank, ends⟩ := takeWhile_dropWhile_iff.1 runs
  have noBlank : ∀ c ∈ run, isBlank c = false := fun c isIn => by simpa using noBlank c isIn
  have ends : back.head?.all isBlank = true := by
    cases back with
    | nil => rfl
    | cons c back => simpa using ends
  rw [cut] at shape
  have nonempty : run ≠ [] := by
    rintro rfl
    have starts := List.head?_dropWhile_not isBlank text
    rw [← trimStart, cut] at starts
    cases back with
    | nil =>
        rw [shape, words_append blank] at split
        cases split
    | cons c back =>
        have blank : isBlank c = true := ends
        simp [blank] at starts
  rw [shape, words_append blank, words_word_append nonempty noBlank ends] at split
  obtain ⟨rfl, rfl⟩ := List.cons.inj split
  exact ⟨blanks, back, shape, blank, nonempty, noBlank, ends, rfl⟩

/-- Any word of a text stands between blanks, or at the ends of the text. -/
theorem exists_of_words_eq_append {text word : List Char} {earlier later : List (List Char)}
    (split : words text = earlier ++ word :: later) :
    ∃ front back, text = front ++ (word ++ back) ∧ front.getLast?.all isBlank = true ∧
      word ≠ [] ∧ (∀ c ∈ word, isBlank c = false) ∧ back.head?.all isBlank = true ∧
      words back = later := by
  induction earlier generalizing text with
  | nil =>
      obtain ⟨blanks, back, shape, blank, others⟩ := exists_of_words_eq_cons split
      refine ⟨blanks, back, shape, ?_, others⟩
      cases last : blanks.getLast? with
      | none => rfl
      | some c => exact blank c (List.mem_of_getLast? last)
  | cons first earlier ih =>
      obtain ⟨blanks, middle, rfl, -, nonempty, -, ends, onward⟩ := exists_of_words_eq_cons split
      obtain ⟨front, back, rfl, starts, others⟩ := ih onward
      -- the middle starts with a blank and the word does not, so something stands between
      have apart : front ≠ [] := by
        rintro rfl
        obtain ⟨c, inner, rfl⟩ := List.exists_cons_of_ne_nil others.1
        have blank : isBlank c = true := ends
        rw [others.2.1 c List.mem_cons_self] at blank
        cases blank
      refine ⟨blanks ++ (first ++ front), back, by simp, ?_, others⟩
      rwa [List.getLast?_append_of_ne_nil _ (by simp [apart]),
        List.getLast?_append_of_ne_nil _ apart]

theorem mem_splitWhere {cut : Char → Bool} {text : List Char} {c : Char} :
    (∃ piece ∈ splitWhere cut text, c ∈ piece) ↔ c ∈ text ∧ cut c = false := by
  induction text with
  | nil => simp [splitWhere]
  | cons d text ih =>
      rw [splitWhere]
      by_cases isCut : cut d = true
      · have apart (other : cut c = false) : c ≠ d := by
          rintro rfl
          rw [isCut] at other
          cases other
        rw [if_pos isCut]
        simp only [List.mem_cons, exists_eq_or_imp, List.not_mem_nil, false_or, ih]
        constructor
        · rintro ⟨known, other⟩
          exact ⟨.inr known, other⟩
        · rintro ⟨known, other⟩
          exact ⟨known.resolve_left (apart other), other⟩
      · obtain ⟨piece, pieces, shape⟩ := List.exists_cons_of_ne_nil (splitWhere_ne_nil cut text)
        rw [shape] at ih
        rw [if_neg isCut, shape, List.modifyHead_cons]
        simp only [List.mem_cons, exists_eq_or_imp, or_assoc] at ih ⊢
        rw [ih]
        have here : c = d → cut c = false := by
          rintro rfl
          simpa using isCut
        tauto

/-- The words of a text have all its characters but the blanks. -/
theorem mem_words {text : List Char} {c : Char} :
    (∃ word ∈ words text, c ∈ word) ↔ c ∈ text ∧ isBlank c = false := by
  rw [← mem_splitWhere]
  constructor
  · rintro ⟨word, isIn, known⟩
    exact ⟨word, (List.mem_filter.1 isIn).1, known⟩
  · rintro ⟨word, isIn, known⟩
    exact ⟨word, List.mem_filter.2 ⟨isIn, by simpa using List.ne_nil_of_mem known⟩, known⟩

theorem words_eq_nil {text : List Char} : words text = [] ↔ ∀ c ∈ text, isBlank c = true := by
  constructor
  · intro none c isIn
    by_contra other
    obtain ⟨word, known, -⟩ := mem_words.2 ⟨isIn, Bool.eq_false_iff.2 other⟩
    rw [none] at known
    cases known
  · intro blank
    rw [← List.append_nil text, words_append blank]
    rfl

/-! ## Patterns on a line -/

theorem getLast?_cons_or (c : Char) (front : List Char) (before : Option Char) :
    (c :: front).getLast?.or before = front.getLast?.or (some c) := by
  rw [List.getLast?_cons]
  cases front.getLast? <;> rfl

/-- An answer of a search was given at some position. -/
theorem exists_of_firstMatchFrom {α : Type} {pattern : Pattern α} {before : Option Char}
    {line : List Char} {answer : α} (found : firstMatchFrom pattern before line = some answer) :
    ∃ front text, line = front ++ text ∧
      pattern (front.getLast?.or before) text = some answer := by
  induction line generalizing before with
  | nil => exact ⟨[], [], rfl, found⟩
  | cons c rest ih =>
      rw [firstMatchFrom] at found
      cases here : pattern before (c :: rest) with
      | some other =>
          simp only [here, Option.some.injEq] at found
          obtain rfl := found
          exact ⟨[], c :: rest, rfl, here⟩
      | none =>
          simp only [here] at found
          obtain ⟨front, text, rfl, there⟩ := ih found
          exact ⟨c :: front, text, rfl, by rwa [getLast?_cons_or]⟩

/-- A search goes on behind a front at whose positions the pattern has no answer. -/
theorem firstMatchFrom_append {α : Type} {pattern : Pattern α} {before : Option Char}
    {front text : List Char} (none : ∀ start rest, front = start ++ rest → rest ≠ [] →
      pattern (start.getLast?.or before) (rest ++ text) = none) :
    firstMatchFrom pattern before (front ++ text) =
      firstMatchFrom pattern (front.getLast?.or before) text := by
  induction front generalizing before with
  | nil => rfl
  | cons c front ih =>
      have here : pattern before (c :: (front ++ text)) = Option.none :=
        none [] (c :: front) rfl (List.cons_ne_nil c front)
      rw [getLast?_cons_or, List.cons_append, firstMatchFrom, here]
      refine ih fun start rest shape nonempty => ?_
      rw [← getLast?_cons_or]
      exact none (c :: start) rest (by rw [shape]; rfl) nonempty

/-- A search answers if the pattern does so at some position. -/
theorem firstMatchFrom_isSome {α : Type} {pattern : Pattern α} {before : Option Char}
    {front text : List Char} (found : (pattern (front.getLast?.or before) text).isSome = true) :
    (firstMatchFrom pattern before (front ++ text)).isSome = true := by
  induction front generalizing before with
  | nil =>
      have here : (pattern before text).isSome = true := found
      cases text with
      | nil => exact here
      | cons c rest =>
          obtain ⟨answer, same⟩ := Option.isSome_iff_exists.1 here
          rw [List.nil_append, firstMatchFrom, same]
          rfl
  | cons c front ih =>
      rw [getLast?_cons_or] at found
      rw [List.cons_append, firstMatchFrom]
      cases pattern before (c :: (front ++ text)) with
      | some answer => rfl
      | none => exact ih found

theorem occursIn_iff {word line : List Char} :
    occursIn word line = true ↔ ∃ front back, line = front ++ (word ++ back) := by
  rw [occursIn, firstMatch]
  constructor
  · intro found
    obtain ⟨back, found⟩ := Option.isSome_iff_exists.1 found
    obtain ⟨front, text, rfl, here⟩ := exists_of_firstMatchFrom found
    exact ⟨front, back, by rw [stripWord_eq_some.1 here]⟩
  · rintro ⟨front, back, rfl⟩
    exact firstMatchFrom_isSome (by rw [stripWord_append]; rfl)

end SchemaAssist.Text
