/-
# SchemaAssist.Proofs.FieldFronts — what stands in front of a column of a field

On the line of a field there is the start of a field in front of every column.  Blanks and the
start of a name leave a member open (`behind_firstWord`).  A complete name and the blank behind it
rule out comments, continued arguments and members (`behind_named`), so the further words and the
parentheses decide.  Of a type nothing but its start may stand there (`behind_type`); behind a type
and a blank everything is an attribute (`StartsField.behind_attribute`) but for what an open
parenthesis encloses (`StartsField.behind_argument`).
-/
import SchemaAssist.Proofs.OpenArguments

namespace SchemaAssist

set_option autoImplicit false

open Text Scan

/-! ## Words in front -/

structure IsWord (chars : List Char) : Prop where
  ne_nil : chars ≠ []
  wordChars : ∀ c ∈ chars, isWordChar c = true

namespace IsWord

variable {word : List Char}

theorem noBlank (isWord : IsWord word) : ∀ c ∈ word, isBlank c = false :=
  fun c isIn => not_isBlank_of_isWordChar (isWord.wordChars c isIn)

theorem not_mem (isWord : IsWord word) {sign : Char} (noWord : isWordChar sign = false) :
    sign ∉ word := by
  intro isIn
  rw [isWord.wordChars sign isIn] at noWord
  cases noWord

/-- A nonempty start of a text that starts with a word starts with a word character. -/
theorem starts (isWord : IsWord word) {start rest : List Char} (isStart : start <+: word ++ rest)
    (nonempty : start ≠ []) : start.head?.any isWordChar = true := by
  obtain ⟨c, inner, rfl⟩ := List.exists_cons_of_ne_nil isWord.ne_nil
  obtain ⟨d, onward, rfl⟩ := List.exists_cons_of_ne_nil nonempty
  obtain ⟨rfl, -⟩ := List.cons_prefix_cons.1 isStart
  exact isWord.wordChars d (by simp)

end IsWord

theorem not_startsWithOneOf {signs word : List Char} (starts : word.head?.any isWordChar = true)
    (noWord : signs.all (!isWordChar ·) = true) : startsWithOneOf signs word = false := by
  cases word with
  | nil => rfl
  | cons c word =>
      have isWord : isWordChar c = true := starts
      have noSign : c ∉ signs := by
        intro isIn
        have known := List.all_eq_true.1 noWord c isIn
        rw [isWord] at known
        cases known
      simpa [startsWithOneOf] using noSign

theorem not_comment {word : List Char} (starts : word.head?.any isWordChar = true) :
    ¬ ['/', '/'] <+: word := by
  rintro ⟨rest, rfl⟩
  have noWord : isWordChar '/' = false := by decide
  exact absurd (noWord.symm.trans starts) nofun

theorem exists_of_startsWithOneOf {signs word : List Char}
    (starts : startsWithOneOf signs word = true) : ∃ c ∈ signs, c ∈ word := by
  cases word with
  | nil => cases starts
  | cons c word => exact ⟨c, List.contains_iff_mem.1 starts, List.mem_cons_self⟩

theorem not_endsInAttribute {text : List Char} (noSign : '@' ∉ text) :
    endsInAttribute text = false := by
  rw [endsInAttribute, Bool.or_eq_false_iff]
  constructor
  · rw [beq_eq_false_iff_ne]
    exact fun isLast => noSign (List.mem_of_getLast? isLast)
  · rw [Bool.eq_false_iff]
    intro signed
    obtain ⟨word, isLast, starts⟩ := (Option.any_eq_true _ _).1 signed
    obtain ⟨c, isSign, isIn⟩ := exists_of_startsWithOneOf starts
    obtain rfl := List.mem_singleton.1 isSign
    exact noSign (mem_words.1 ⟨word, List.mem_of_getLast? isLast, isIn⟩).1

theorem not_continuesArguments {text : List Char}
    (noSign : ∀ sign ∈ [':', '(', ')', '[', ']'], sign ∉ text) :
    continuesArguments text = false := by
  rw [continuesArguments]
  cases shape : words text with
  | nil => rfl
  | cons word rest =>
      have inText {c : Char} (isIn : c ∈ word) : c ∈ text :=
        (mem_words.1 ⟨word, by rw [shape]; exact List.mem_cons_self, isIn⟩).1
      rw [Bool.or_eq_false_iff]
      constructor
      · rw [List.contains_eq_mem, decide_eq_false_iff_not]
        exact fun isIn => noSign ':' (by simp) (inText isIn)
      · rw [Bool.eq_false_iff]
        intro starts
        obtain ⟨c, isSign, isIn⟩ := exists_of_startsWithOneOf starts
        exact noSign c (List.mem_cons_of_mem _ isSign) (inText isIn)

/-! ## A name and a blank in front -/

section

variable {indent name more : List Char}

theorem words_named (blank : ∀ c ∈ indent, isBlank c = true) (isWord : IsWord name) :
    words (indent ++ (name ++ ' ' :: more)) = name :: words more := by
  rw [words_append blank, words_append_cons isWord.ne_nil isWord.noBlank (by decide)]

theorem trimStart_named (blank : ∀ c ∈ indent, isBlank c = true) (isWord : IsWord name) :
    trimStart (indent ++ (name ++ ' ' :: more)) = name ++ ' ' :: more := by
  rw [trimStart_append blank]
  have noBlank := isWord.noBlank
  obtain ⟨c, inner, rfl⟩ := List.exists_cons_of_ne_nil isWord.ne_nil
  exact trimStart_cons (noBlank c (by simp)) _

theorem not_comment_named (blank : ∀ c ∈ indent, isBlank c = true) (isWord : IsWord name) :
    ¬ ['/', '/'] <+: trimStart (indent ++ (name ++ ' ' :: more)) := by
  rw [trimStart_named blank isWord]
  exact not_comment (isWord.starts List.prefix_rfl (by simp))

theorem not_isFirstWord_named (blank : ∀ c ∈ indent, isBlank c = true) (isWord : IsWord name) :
    isFirstWord (indent ++ (name ++ ' ' :: more)) = false := by
  rw [isFirstWord, trimStart_named blank isWord, List.all_eq_false]
  exact ⟨' ', by simp, by decide⟩

theorem not_continuesArguments_named (blank : ∀ c ∈ indent, isBlank c = true)
    (isWord : IsWord name) : continuesArguments (indent ++ (name ++ ' ' :: more)) = false := by
  have noColon : name.contains ':' = false := by
    rw [List.contains_eq_mem, decide_eq_false_iff_not]
    exact isWord.not_mem (by decide)
  have starts := isWord.starts (List.prefix_append name []) isWord.ne_nil
  have noSign : startsWithOneOf ['(', ')', '[', ']'] name = false :=
    not_startsWithOneOf starts (by decide)
  rw [continuesArguments, words_named blank isWord]
  simp only [noColon, noSign, Bool.or_self]

/-- Whether a type belongs behind a name is told by the words behind it. -/
theorem isTypePosition_named (blank : ∀ c ∈ indent, isBlank c = true) (isWord : IsWord name) :
    isTypePosition (indent ++ (name ++ ' ' :: more)) =
      if (words more).any (startsWithOneOf ['[']) then false
      else if (indent ++ (name ++ ' ' :: more)).getLast?.any isBlank then (words more).isEmpty
      else (words more).length == 1 && !(words more).any (startsWithOneOf ['@']) := by
  have starts := isWord.starts (List.prefix_append name []) isWord.ne_nil
  have noComment : (stripWord ['/', '/'] name).isSome = false := by
    rw [Bool.eq_false_iff, Ne, isSome_stripWord]
    exact not_comment starts
  have noAttribute : startsWithOneOf ['@'] name = false := not_startsWithOneOf starts (by decide)
  have noList : startsWithOneOf ['['] name = false := not_startsWithOneOf starts (by decide)
  rw [isTypePosition, words_named blank isWord]
  simp only [noAttribute, noComment, noList, not_continuesArguments_named blank isWord,
    List.any_cons, Bool.or_self, Bool.false_or, Bool.false_eq_true, if_false]
  congr 2
  match words more with
  | [] => rfl
  | [second] => simp
  | second :: third :: rest => simp

end

/-! ## In front of a column -/

namespace Context

variable {kind : BlockKind}

/-- **A member belongs** where nothing but blanks and then word characters stand in front. -/
theorem behind_firstWord {indent name start : List Char} (blank : ∀ c ∈ indent, isBlank c = true)
    (wordChars : ∀ c ∈ name, isWordChar c = true) (holdsFields : kind.holdsFields = true)
    (isStart : start <+: indent ++ name) : behind kind start = firstMember := by
  have plain : ∀ c ∈ start, isBlank c = true ∨ isWordChar c = true := fun c isIn =>
    (List.mem_append.1 (isStart.subset isIn)).imp (blank c) (wordChars c)
  have trimmed : ∀ c ∈ trimStart start, isWordChar c = true := by
    obtain same := List.prefix_iff_eq_take.1 isStart
    rw [same, List.take_append, trimStart_append fun c isIn => blank c (List.mem_of_mem_take isIn)]
    intro c isIn
    exact wordChars c (List.mem_of_mem_take ((List.dropWhile_sublist _).subset isIn))
  have noComment : ¬ ['/', '/'] <+: trimStart start := fun comment =>
    absurd (trimmed '/' (comment.subset (by simp))) (by decide)
  have noCall : openCall? start = none := by
    apply openCall?_eq_none
    apply openSigns_eq_nil
    intro c isIn
    constructor <;> rintro rfl
    · exact not_mem_of_blank_or_word plain (by decide) (by decide) isIn
    · exact not_mem_of_blank_or_word plain (by decide) (by decide) isIn
  have first : continuesArguments start = false := by
    apply not_continuesArguments
    intro sign isSign
    have signs : [':', '(', ')', '[', ']'].all (fun sign => !isBlank sign && !isWordChar sign) =
        true := by decide
    obtain ⟨noBlank, noWord⟩ := Bool.and_eq_true_iff.1 (List.all_eq_true.1 signs sign isSign)
    exact not_mem_of_blank_or_word plain (by simpa using noBlank) (by simpa using noWord)
  have isFirst : isFirstWord start = true := List.all_eq_true.2 trimmed
  have noAttribute : endsInAttribute start = false :=
    not_endsInAttribute (not_mem_of_blank_or_word plain (by decide) (by decide))
  rw [behind, if_neg noComment, ofBodyText, if_pos holdsFields, ofAttributeText, noCall]
  simp [first, noAttribute, isFirst]

/-- Behind a name and a blank, and outside parentheses, there is a type or an attribute. -/
theorem behind_named {indent name more text : List Char} (blank : ∀ c ∈ indent, isBlank c = true)
    (isWord : IsWord name) (shape : text = indent ++ (name ++ ' ' :: more))
    (holdsFields : kind.holdsFields = true) (noneOpen : openParens text = []) :
    behind kind text =
      if !endsInAttribute text && isTypePosition text then fieldType else attributeName := by
  have noComment : ¬ ['/', '/'] <+: trimStart text := by
    rw [shape]
    exact not_comment_named blank isWord
  have later : isFirstWord text = false := by rw [shape, not_isFirstWord_named blank isWord]
  have first : continuesArguments text = false := by
    rw [shape, not_continuesArguments_named blank isWord]
  rw [behind, if_neg noComment, ofBodyText_words holdsFields (openCall?_eq_none noneOpen) later,
    if_neg (by simp [first])]

/-- What may stand of a type in front of the cursor. -/
structure StartsType (start : List Char) : Prop where
  starts : start ≠ [] → start.head?.any isWordChar = true
  plain : ∀ c ∈ start, isWordChar c = true ∨ c ∈ ['?', '[', ']']

namespace StartsType

variable {indent name start : List Char}

theorem nil : StartsType [] := ⟨fun nonempty => absurd rfl nonempty, nofun⟩

theorem noBlank (isStart : StartsType start) : ∀ c ∈ start, isBlank c = false := by
  intro c isIn
  rcases isStart.plain c isIn with word | suffix
  · exact not_isBlank_of_isWordChar word
  · have signs : ['?', '[', ']'].all (!isBlank ·) = true := by decide
    simpa using List.all_eq_true.1 signs c suffix

theorem mono {other : List Char} (isStart : StartsType start) (shorter : other <+: start) :
    StartsType other where
  starts nonempty := by
    obtain ⟨c, inner, rfl⟩ := List.exists_cons_of_ne_nil nonempty
    obtain ⟨rest, rfl⟩ := shorter
    exact isStart.starts (by simp)
  plain c isIn := isStart.plain c (shorter.subset isIn)

/-- No other sign stands in front of the cursor. -/
theorem not_mem (isStart : StartsType start) (blank : ∀ c ∈ indent, isBlank c = true)
    (isWord : IsWord name) {sign : Char} (noBlank : isBlank sign = false)
    (noWord : isWordChar sign = false) (other : sign ∉ ['?', '[', ']']) :
    sign ∉ indent ++ (name ++ ' ' :: start) := by
  intro isIn
  simp only [List.mem_append, List.mem_cons] at isIn
  rcases isIn with isIn | isIn | rfl | isIn
  · rw [blank sign isIn] at noBlank
    cases noBlank
  · exact isWord.not_mem noWord isIn
  · exact absurd noBlank (by decide)
  · rcases isStart.plain sign isIn with word | suffix
    · rw [word] at noWord
      cases noWord
    · exact other suffix

theorem openParens_eq_nil (isStart : StartsType start) (blank : ∀ c ∈ indent, isBlank c = true)
    (isWord : IsWord name) : openParens (indent ++ (name ++ ' ' :: start)) = [] := by
  apply openSigns_eq_nil
  intro c isIn
  constructor <;> rintro rfl
  · exact isStart.not_mem blank isWord (by decide) (by decide) (by decide) isIn
  · exact isStart.not_mem blank isWord (by decide) (by decide) (by decide) isIn

theorem isTypePosition (isStart : StartsType start) (blank : ∀ c ∈ indent, isBlank c = true)
    (isWord : IsWord name) : isTypePosition (indent ++ (name ++ ' ' :: start)) = true := by
  rw [isTypePosition_named blank isWord]
  by_cases nonempty : start = []
  · subst nonempty
    have isLast : (indent ++ (name ++ [' '])).getLast? = some ' ' := by simp
    rw [isLast]
    rfl
  · have isLast : (indent ++ (name ++ ' ' :: start)).getLast? = some (start.getLast nonempty) := by
      rw [List.append_cons, ← List.append_assoc, List.getLast?_append_of_ne_nil _ nonempty,
        List.getLast?_eq_some_getLast nonempty]
    have noList : startsWithOneOf ['['] start = false :=
      not_startsWithOneOf (isStart.starts nonempty) (by decide)
    have noAttribute : startsWithOneOf ['@'] start = false :=
      not_startsWithOneOf (isStart.starts nonempty) (by decide)
    have noEnd : isBlank (start.getLast nonempty) = false :=
      isStart.noBlank _ (List.getLast_mem nonempty)
    rw [isLast, words_of_noBlank nonempty isStart.noBlank]
    simp [noList, noAttribute, noEnd]

end StartsType

/-- **A type belongs** behind a name, a blank and the start of a type. -/
theorem behind_type {indent name start : List Char} (blank : ∀ c ∈ indent, isBlank c = true)
    (isWord : IsWord name) (holdsFields : kind.holdsFields = true) (isStart : StartsType start) :
    behind kind (indent ++ (name ++ ' ' :: start)) = fieldType := by
  have noSign : '@' ∉ indent ++ (name ++ ' ' :: start) :=
    isStart.not_mem blank isWord (by decide) (by decide) (by decide)
  rw [behind_named blank isWord rfl holdsFields (isStart.openParens_eq_nil blank isWord),
    not_endsInAttribute noSign, isStart.isTypePosition blank isWord]
  rfl

/-! ### Behind the type -/

/-- The text starts with a name and a type, and there is a blank behind each. -/
def StartsField (text : List Char) : Prop :=
  ∃ indent name word more, text = indent ++ (name ++ ' ' :: (word ++ ' ' :: more)) ∧
    (∀ c ∈ indent, isBlank c = true) ∧ IsWord name ∧ word ≠ [] ∧ ∀ c ∈ word, isBlank c = false

theorem noParen_signed {name : List Char} (isName : ∀ c ∈ name, isMemberChar c = true) :
    ∀ c ∈ ' ' :: '@' :: name, c ≠ '(' ∧ c ≠ ')' := by
  intro c isIn
  simp only [List.mem_cons] at isIn
  rcases isIn with rfl | rfl | isIn
  · decide
  · decide
  · have known := isName c isIn
    constructor <;> rintro rfl <;> exact absurd known (by decide)

namespace StartsField

variable {text : List Char}

theorem append (starts : StartsField text) (more : List Char) : StartsField (text ++ more) := by
  obtain ⟨indent, name, word, rest, rfl, known⟩ := starts
  exact ⟨indent, name, word, rest ++ more, by simp, known⟩

/-- There are two words, and if the last one is not complete there are three. -/
theorem not_isTypePosition (starts : StartsField text) : isTypePosition text = false := by
  obtain ⟨indent, name, word, more, rfl, blank, isWord, nonempty, noBlank⟩ := starts
  rw [isTypePosition_named blank isWord, words_append_cons nonempty noBlank (by decide)]
  split
  · rfl
  split
  · rfl
  rename_i incomplete
  -- without a third word nothing but blanks follows, and the last word would be complete
  cases further : words more with
  | cons third rest => simp
  | nil =>
      have blanks : ∀ c ∈ ' ' :: more, isBlank c = true :=
        List.forall_mem_cons.2 ⟨by decide, words_eq_nil.1 further⟩
      have isLast : (indent ++ (name ++ ' ' :: (word ++ ' ' :: more))).getLast? =
          some ((' ' :: more).getLast (List.cons_ne_nil _ _)) := by
        simp only [List.append_cons _ _ (word ++ _), ← List.append_assoc]
        rw [List.getLast?_append_of_ne_nil _ (List.cons_ne_nil _ _),
          List.getLast?_eq_some_getLast (List.cons_ne_nil _ _)]
      rw [isLast] at incomplete
      exact absurd (blanks _ (List.getLast_mem _)) incomplete

/-- **An attribute belongs** behind the type, outside parentheses. -/
theorem behind_attribute (starts : StartsField text) (holdsFields : kind.holdsFields = true)
    (noneOpen : openParens text = []) : behind kind text = attributeName := by
  have noType := starts.not_isTypePosition
  obtain ⟨indent, name, word, more, shape, blank, isWord, -⟩ := starts
  rw [behind_named blank isWord shape holdsFields noneOpen, noType, Bool.and_false]
  rfl

/-- **Arguments belong**, or nothing, inside the parentheses of an attribute. -/
theorem behind_argument {front name chars : List Char} (starts : StartsField (front ++ [' ']))
    (holdsFields : kind.holdsFields = true) (noneOpen : openParens front = [])
    (nonempty : name ≠ []) (isName : ∀ c ∈ name, isMemberChar c = true)
    (noParen : ∀ c ∈ chars, c ≠ '(' ∧ c ≠ ')') :
    behind kind (front ++ ' ' :: '@' :: name ++ '(' :: chars) =
      if argumentAttributes.contains (String.ofList ('@' :: name)) then attributeArgument
      else nothing := by
  have shape : front ++ ' ' :: '@' :: name ++ '(' :: chars =
      front ++ [' '] ++ ('@' :: name ++ '(' :: chars) := by simp
  have noComment : ¬ ['/', '/'] <+: trimStart (front ++ ' ' :: '@' :: name ++ '(' :: chars) := by
    obtain ⟨indent, first, word, more, same, blank, isWord, -⟩ :=
      starts.append ('@' :: name ++ '(' :: chars)
    rw [shape, same]
    exact not_comment_named blank isWord
  have opened : openParens (front ++ ' ' :: '@' :: name ++ '(' :: chars) =
      [(front ++ ' ' :: '@' :: name).length] := by
    rw [openParens, openSigns_opened noParen, openSigns_neither (noParen_signed isName)]
    exact congrArg _ noneOpen
  have named : EndsWithAttribute ((front ++ ' ' :: '@' :: name ++ '(' :: chars).take
      (front ++ ' ' :: '@' :: name).length) (String.ofList ('@' :: name)) := by
    rw [List.take_left]
    -- the at-sign is a single one, since it has a blank in front of it
    exact ⟨front ++ [' '], ['@'], name, [], by simp, .inr ⟨rfl, by simp⟩, nonempty, isName,
      nofun, rfl⟩
  rw [behind, if_neg noComment, ofBodyText_attribute holdsFields opened named]

end StartsField

end Context

end SchemaAssist
