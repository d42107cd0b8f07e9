/-
# SchemaAssist.Proofs.ArgumentLists — the cursor in the list of an argument

A cursor stands in the list of an argument if the innermost bracket open in front of it comes
behind the name of the argument and a colon (`InListOf`).

`isInsideArgument` does not match brackets.  It goes back over the words to the last one that
names the argument, and the list is open if no word from there on has a closing bracket
(`isInsideArgument_iff_words`).  Where lists are written plainly that is the same
(`isInsideArgument_iff_inListOf`): names start their words, the argument has a list, and no list
opens inside another one (`PlainLists`).  Without blanks between the arguments an open list is
missed, and a name whose list is not open yet counts as one
(`isInsideArgument_unspaced`).
-/
import SchemaAssist.Completion.Context
import SchemaAssist.Proofs.Text.Blanks
import SchemaAssist.Proofs.Text.OpenSigns

namespace SchemaAssist

set_option autoImplicit false

open Text

/-! ## Lists -/

/-- The text ends in that argument's name, as a whole word, and a colon, with blanks around the
colon or not. -/
def EndsWithArgument (argument text : List Char) : Prop :=
  ∃ front gap blanks, text = front ++ (argument ++ (gap ++ ':' :: blanks)) ∧
    front.getLast?.any isWordChar = false ∧ (∀ c ∈ gap, isBlank c = true) ∧
    ∀ c ∈ blanks, isBlank c = true

/-- The innermost open bracket opens the list of that argument. -/
def InListOf (argument text : List Char) : Prop :=
  ∃ i, (openSigns '[' ']' text).head? = some i ∧ EndsWithArgument argument (text.take i)

/-- Lists of arguments, as they are usually written. -/
structure PlainLists (argument text : List Char) : Prop where
  /-- A colon stands right behind a name, and nothing but commas between the name and the blank
  in front of it. -/
  named : ∀ front back, text = front ++ ':' :: back → lastRun isWordChar front ≠ [] ∧
    (trimEndWhere (· == ',') (trimEndWhere isWordChar front)).getLast?.all isBlank = true
  /-- The argument has a list. -/
  listed : ∀ front back, text = front ++ ':' :: back → lastRun isWordChar front = argument →
    (trimStart back).head? = some '['
  /-- No list opens inside another one. -/
  flat : ∀ front back, text = front ++ '[' :: back → openSigns '[' ']' front = []

/-- Whether lists are written plainly can be read off the places of colons and brackets. -/
theorem forall_split_iff {α : Type} {a : α} {text : List α} {P : List α → List α → Prop} :
    (∀ front back, text = front ++ a :: back → P front back) ↔
      ∀ i, (inside : i < text.length) → text[i] = a → P (text.take i) (text.drop (i + 1)) := by
  constructor
  · intro holds i inside here
    exact holds _ _ (eq_take_append_cons_drop (List.getElem?_eq_some_iff.2 ⟨inside, here⟩))
  · rintro holds front back rfl
    simpa using holds front.length (by simp) (by simp)

instance (argument text : List Char) : Decidable (PlainLists argument text) :=
  decidable_of_iff
    ((∀ i, (inside : i < text.length) → text[i] = ':' → lastRun isWordChar (text.take i) ≠ [] ∧
        (trimEndWhere (· == ',') (trimEndWhere isWordChar (text.take i))).getLast?.all isBlank) ∧
      (∀ i, (inside : i < text.length) → text[i] = ':' →
        lastRun isWordChar (text.take i) = argument →
          (trimStart (text.drop (i + 1))).head? = some '[') ∧
      ∀ i, (inside : i < text.length) → text[i] = '[' → openSigns '[' ']' (text.take i) = [])
    ⟨fun ⟨named, listed, flat⟩ =>
        ⟨forall_split_iff.2 named, forall_split_iff.2 listed, forall_split_iff.2 flat⟩,
      fun ⟨named, listed, flat⟩ =>
        ⟨forall_split_iff.1 named, forall_split_iff.1 listed, forall_split_iff.1 flat⟩⟩

/-! ## The innermost list -/

theorem openSigns_bracket {back : List Char} (noOpening : '[' ∉ back) (noClosing : ']' ∉ back)
    (front : List Char) :
    openSigns '[' ']' (front ++ '[' :: back) = front.length :: openSigns '[' ']' front :=
  openSigns_opened (fun _ isIn =>
    ⟨ne_of_mem_of_not_mem isIn noOpening, ne_of_mem_of_not_mem isIn noClosing⟩) front

namespace PlainLists

variable {argument text front back : List Char}

/-- A list that is not closed holds no further list. -/
theorem noBracket_of_open (plain : PlainLists argument text) (shape : text = front ++ '[' :: back)
    (stays : ']' ∉ back) : '[' ∉ back := by
  intro isIn
  obtain ⟨inner, rest, rfl, first⟩ := List.eq_append_cons_of_mem isIn
  have closed := plain.flat (front ++ '[' :: inner) rest (by simp [shape])
  rw [openSigns_bracket first fun isClose => stays (by simp [isClose])] at closed
  cases closed

/-- Behind the innermost open bracket no list opens or closes. -/
theorem of_head?_openSigns (plain : PlainLists argument text) {i : Nat}
    (isOpen : (openSigns '[' ']' text).head? = some i) :
    ∃ back, text = text.take i ++ '[' :: back ∧ '[' ∉ back ∧ ']' ∉ back := by
  have isIn := List.mem_of_mem_head? isOpen
  have bracket := getElem?_of_openSigns isIn
  have inside := (List.getElem?_eq_some_iff.1 bracket).1
  have shape := eq_take_append_cons_drop bracket
  have front : (text.take i).length = i := List.length_take_of_le (Nat.le_of_lt inside)
  generalize text.take i = before, text.drop (i + 1) = back at shape front
  subst shape front
  have noOpening : '[' ∉ back := by
    intro again
    obtain ⟨inner, rest, rfl⟩ := List.append_of_mem again
    have split : before ++ '[' :: (inner ++ '[' :: rest) =
        (before ++ '[' :: inner) ++ '[' :: rest := by simp
    rw [split] at isIn
    have known := mem_openSigns_of_append isIn (by simp)
    rw [plain.flat _ _ split] at known
    cases known
  refine ⟨back, rfl, noOpening, ?_⟩
  rw [List.append_cons, openSigns_append noOpening, openSigns_opening,
    plain.flat before back rfl] at isOpen
  rw [← List.count_eq_zero]
  by_contra closes
  rw [List.drop_of_length_le (by rw [List.length_singleton]; omega)] at isOpen
  cases isOpen

/-- What stands in front of a colon. -/
theorem exists_name (plain : PlainLists argument text) (shape : text = front ++ ':' :: back) :
    ∃ before commas, front = before ++ (commas ++ lastRun isWordChar front) ∧
      before.getLast?.all isBlank = true ∧ (∀ c ∈ commas, c = ',') ∧
      lastRun isWordChar front ≠ [] ∧ ∀ c ∈ lastRun isWordChar front, isWordChar c = true := by
  obtain ⟨nonempty, starts⟩ := plain.named front back shape
  refine ⟨_, lastRun (· == ',') (trimEndWhere isWordChar front), ?_, starts, ?_, nonempty, ?_⟩
  · rw [← List.append_assoc, append_lastRun, append_lastRun]
  · exact fun c isIn => by simpa using apply_of_mem_lastRun isIn
  · exact fun c isIn => apply_of_mem_lastRun isIn

/-- In front of the argument's colon stands the argument itself, and commas in front of it. -/
theorem exists_argument (plain : PlainLists argument text)
    (isWord : ∀ c ∈ argument, isWordChar c = true) {gap : List Char}
    (shape : text = (front ++ (argument ++ gap)) ++ ':' :: back)
    (apart : front.getLast?.any isWordChar = false) (blank : ∀ c ∈ gap, isBlank c = true) :
    ∃ before commas, gap = [] ∧ front = before ++ commas ∧ before.getLast?.all isBlank = true ∧
      (∀ c ∈ commas, c = ',') ∧ argument ≠ [] := by
  obtain ⟨before, commas, cut, starts, areCommas, nonempty, -⟩ := plain.exists_name shape
  -- the name ends with a word character, so there is no blank behind it
  obtain rfl : gap = [] := by
    rcases List.eq_nil_or_concat' gap with rfl | ⟨others, c, rfl⟩
    · rfl
    · have noWord := isWordChar_of_isBlank (blank c (by simp))
      have none : lastRun isWordChar (front ++ (argument ++ (others ++ [c]))) = [] := by
        refine (trimEndWhere_lastRun_iff.2 ⟨(List.append_nil _).symm, by simp, ?_⟩).2
        rw [← List.append_assoc, ← List.append_assoc, List.getLast?_concat]
        exact noWord
      exact absurd none nonempty
  rw [List.append_nil] at cut nonempty
  have named : lastRun isWordChar (front ++ argument) = argument :=
    (trimEndWhere_lastRun_iff.2 ⟨rfl, isWord, apart⟩).2
  rw [named, ← List.append_assoc] at cut
  rw [named] at nonempty
  exact ⟨before, commas, rfl, List.append_cancel_right cut, starts, areCommas, nonempty⟩

end PlainLists

/-! ## Words that name the argument -/

theorem namesArgument_spelled {argument commas name more : List Char}
    (areCommas : ∀ c ∈ commas, c = ',') (nonempty : name ≠ [])
    (wordChars : ∀ c ∈ name, isWordChar c = true) :
    namesArgument argument (commas ++ (name ++ ':' :: more)) = true ↔ name = argument := by
  let isEdge : Char → Bool := fun c => c == '(' || c == ','
  have noEdge : ∀ c ∈ name, isEdge c = false := by
    intro c isIn
    rw [Bool.eq_false_iff]
    intro edge
    have isWord := wordChars c isIn
    rcases Bool.or_eq_true_iff.1 edge with same | same
    all_goals
      rw [beq_iff_eq] at same
      subst same
      exact absurd isWord (by decide)
  have noColon : ∀ c ∈ commas ++ name, (c != ':') = true := by
    intro c isIn
    rw [bne_iff_ne]
    rintro rfl
    rcases List.mem_append.1 isIn with isIn | isIn
    · exact absurd (areCommas _ isIn) (by decide)
    · exact absurd (wordChars _ isIn) (by decide)
  have first : (commas ++ (name ++ ':' :: more)).takeWhile (· != ':') = commas ++ name := by
    rw [← List.append_assoc]
    exact (takeWhile_dropWhile_iff.2 ⟨rfl, noColon, rfl⟩).1
  have trimmed : trimWhere isEdge (commas ++ name) = name := by
    have starts : name.head?.any isEdge = false := by
      obtain ⟨c, inner, rfl⟩ := List.exists_cons_of_ne_nil nonempty
      exact noEdge c List.mem_cons_self
    have ends : name.getLast?.any isEdge = false := by
      rw [List.getLast?_eq_some_getLast nonempty]
      exact noEdge _ (List.getLast_mem nonempty)
    have edges : ∀ c ∈ commas, isEdge c = true := fun c isIn => by
      rw [areCommas c isIn]
      rfl
    rw [trimWhere, (takeWhile_dropWhile_iff.2 ⟨rfl, edges, starts⟩).2]
    exact (trimEndWhere_lastRun_iff.2 ⟨(List.append_nil name).symm, by simp, ends⟩).1
  rw [namesArgument, first, trimmed]
  simp

/-- A word that names an argument has a colon. -/
theorem exists_of_namesArgument {argument word : List Char}
    (names : namesArgument argument word = true) :
    ∃ start more, word = start ++ ':' :: more := by
  rw [namesArgument, Bool.and_eq_true, List.contains_iff_mem] at names
  obtain ⟨start, more, rfl⟩ := List.append_of_mem names.1
  exact ⟨start, more, rfl⟩

theorem isInsideArgumentWords_iff {argument : List Char} {reversed : List (List Char)} :
    isInsideArgumentWords argument reversed = true ↔
      ∃ later word earlier, reversed = later ++ word :: earlier ∧
        namesArgument argument word = true ∧ ∀ other ∈ later ++ [word], ']' ∉ other := by
  induction reversed with
  | nil => simp [isInsideArgumentWords]
  | cons last others ih =>
      rw [isInsideArgumentWords]
      constructor
      · intro inside
        split at inside
        · rename_i names
          exact ⟨[], last, others, rfl, names, by simpa using inside⟩
        · split at inside
          · cases inside
          · rename_i stays
            obtain ⟨later, word, earlier, rfl, names, clear⟩ := ih.1 inside
            refine ⟨last :: later, word, earlier, rfl, names, ?_⟩
            exact List.forall_mem_cons.2 ⟨by simpa using stays, clear⟩
      · rintro ⟨later, word, earlier, shape, names, clear⟩
        cases later with
        | nil =>
            obtain ⟨rfl, rfl⟩ := List.cons.inj shape
            rw [if_pos names]
            simpa using clear
        | cons first later =>
            obtain ⟨rfl, rfl⟩ := List.cons.inj shape
            obtain ⟨stays, clear⟩ := List.forall_mem_cons.1 clear
            split
            · simpa using stays
            · rw [if_neg (by simpa using stays)]
              exact ih.2 ⟨later, word, earlier, rfl, names, clear⟩

/-- The cursor is taken to be inside an argument if some word names it and neither that word nor
a later one has a closing bracket. -/
theorem isInsideArgument_iff_words {argument text : List Char} :
    isInsideArgument argument text = true ↔
      ∃ earlier word later, words text = earlier ++ word :: later ∧
        namesArgument argument word = true ∧ ∀ other ∈ word :: later, ']' ∉ other := by
  rw [isInsideArgument, isInsideArgumentWords_iff]
  constructor
  · rintro ⟨later, word, earlier, shape, names, clear⟩
    refine ⟨earlier.reverse, word, later.reverse, ?_, names, ?_⟩
    · rw [← List.reverse_inj, shape]
      simp
    · simpa [or_comm] using clear
  · rintro ⟨earlier, word, later, shape, names, clear⟩
    refine ⟨later.reverse, word, earlier.reverse, ?_, names, ?_⟩
    · rw [shape]
      simp
    · simpa [or_comm] using clear

/-! ## The list of the argument -/

variable {argument text : List Char}

/-- A front that ends at a blank is what stands before the last word. -/
theorem trimEndWhere_word {front word : List Char} (starts : front.getLast?.all isBlank = true)
    (noBlank : ∀ c ∈ word, isBlank c = false) :
    trimEndWhere (!isBlank ·) (front ++ word) = front := by
  refine (trimEndWhere_lastRun_iff.2 ⟨rfl, by simpa using noBlank, ?_⟩).1
  cases last : front.getLast? with
  | none => rfl
  | some c => simpa [last] using starts

theorem inListOf_of_isInsideArgument (plain : PlainLists argument text)
    (inside : isInsideArgument argument text = true) : InListOf argument text := by
  obtain ⟨earlier, word, later, split, names, clear⟩ := isInsideArgument_iff_words.1 inside
  obtain ⟨front, back, shape, starts, -, noBlank, -, rfl⟩ := exists_of_words_eq_append split
  obtain ⟨start, more, rfl⟩ := exists_of_namesArgument names
  have colon : text = (front ++ start) ++ ':' :: (more ++ back) := by simp [shape]
  obtain ⟨before, commas, cut, starts', areCommas, nonempty, wordChars⟩ :=
    plain.exists_name colon
  have listed := plain.listed _ _ colon
  generalize lastRun isWordChar (front ++ start) = name at cut nonempty wordChars listed
  have noBlank' : ∀ c ∈ commas ++ name, isBlank c = false := by
    intro c isIn
    rcases List.mem_append.1 isIn with isIn | isIn
    · rw [areCommas c isIn]
      decide
    · exact not_isBlank_of_isWordChar (wordChars c isIn)
  -- the word with the colon starts where the commas in front of the name do
  have own : trimEndWhere (!isBlank ·) (front ++ start) = front :=
    trimEndWhere_word starts fun c isIn => noBlank c (by simp [isIn])
  rw [cut, trimEndWhere_word starts' noBlank'] at own
  obtain rfl : front = before := own.symm
  obtain rfl := List.append_cancel_left cut
  rw [List.append_assoc] at names
  obtain rfl := (namesArgument_spelled areCommas nonempty wordChars).1 names
  obtain ⟨blanks, blank, behind⟩ := exists_trimStart (more ++ back)
  obtain ⟨rest, list⟩ := List.head?_eq_some_iff.1 (listed rfl)
  rw [list] at behind
  have stays : ']' ∉ rest := by
    intro isClose
    have isIn : ']' ∈ more ++ back := by simp [behind, isClose]
    rcases List.mem_append.1 isIn with isIn | isIn
    · exact clear _ List.mem_cons_self (by simp [isIn])
    · obtain ⟨other, known, isIn⟩ := mem_words.2 ⟨isIn, by decide⟩
      exact clear other (List.mem_cons_of_mem _ known) isIn
  have shape : text = (front ++ (commas ++ (name ++ ':' :: blanks))) ++ '[' :: rest := by
    simp [colon, behind]
  refine ⟨(front ++ (commas ++ (name ++ ':' :: blanks))).length, ?_, ?_⟩
  · rw [shape, openSigns_bracket (plain.noBracket_of_open shape stays) stays]
    rfl
  · rw [shape, List.take_left]
    refine ⟨front ++ commas, [], blanks, by simp, ?_, by simp, blank⟩
    rcases List.eq_nil_or_concat' commas with rfl | ⟨others, c, rfl⟩
    · rw [List.append_nil]
      cases last : front.getLast? with
      | none => rfl
      | some c => exact isWordChar_of_isBlank (by simpa [last] using starts)
    · have isComma := areCommas c (by simp)
      subst isComma
      rw [← List.append_assoc, List.getLast?_concat]
      decide

theorem isInsideArgument_of_inListOf (plain : PlainLists argument text)
    (isWord : ∀ c ∈ argument, isWordChar c = true) (inList : InListOf argument text) :
    isInsideArgument argument text = true := by
  obtain ⟨i, isOpen, front, gap, blanks, upTo, apart, blankGap, blank⟩ := inList
  obtain ⟨rest, shape, -, stays⟩ := plain.of_head?_openSigns isOpen
  rw [upTo] at shape
  have colon : text = (front ++ (argument ++ gap)) ++ ':' :: (blanks ++ '[' :: rest) := by
    rw [shape]
    simp
  obtain ⟨before, commas, rfl, rfl, starts, areCommas, nonempty⟩ :=
    plain.exists_argument isWord colon apart blankGap
  -- the word goes on behind the colon up to the next blank, and holds the bracket if there is none
  obtain ⟨run, back, runs⟩ : ∃ run back, (blanks ++ '[' :: rest).takeWhile (!isBlank ·) = run ∧
      (blanks ++ '[' :: rest).dropWhile (!isBlank ·) = back := ⟨_, _, rfl, rfl⟩
  obtain ⟨behind, noBlank, ends⟩ := takeWhile_dropWhile_iff.1 runs
  have noClose : ']' ∉ run ++ back := by
    rw [← behind]
    intro isIn
    rcases List.mem_append.1 isIn with isIn | isIn
    · exact absurd (blank _ isIn) (by decide)
    · rcases List.mem_cons.1 isIn with same | isIn
      · exact absurd same (by decide)
      · exact stays isIn
  have noBlank' : ∀ c ∈ commas ++ (argument ++ ':' :: run), isBlank c = false := by
    intro c isIn
    simp only [List.mem_append, List.mem_cons] at isIn
    rcases isIn with isIn | isIn | rfl | isIn
    · rw [areCommas c isIn]
      decide
    · exact not_isBlank_of_isWordChar (isWord c isIn)
    · decide
    · simpa using noBlank c isIn
  have ends' : back.head?.all isBlank = true := by
    cases back with
    | nil => rfl
    | cons c back => simpa using ends
  have split : words text = words before ++ (commas ++ (argument ++ ':' :: run)) :: words back := by
    rw [← words_append_word starts (by simp) noBlank' ends', colon, behind]
    simp
  refine isInsideArgument_iff_words.2 ⟨_, _, _, split,
    (namesArgument_spelled areCommas nonempty isWord).2 rfl, List.forall_mem_cons.2 ⟨?_, ?_⟩⟩
  · simp only [List.mem_append, List.mem_cons, not_or]
    exact ⟨fun isIn => absurd (areCommas _ isIn) (by decide),
      fun isIn => absurd (isWord _ isIn) (by decide), by decide,
      fun isIn => noClose (by simp [isIn])⟩
  · intro other known isIn
    exact noClose (List.mem_append_right _ (mem_words.1 ⟨other, known, isIn⟩).1)

/-- **Being inside the list of an argument is recognised**, where lists are written plainly. -/
theorem isInsideArgument_iff_inListOf (isWord : ∀ c ∈ argument, isWordChar c = true)
    (plain : PlainLists argument text) :
    isInsideArgument argument text = true ↔ InListOf argument text :=
  ⟨inListOf_of_isInsideArgument plain, isInsideArgument_of_inListOf plain isWord⟩

def openReferences : List Char := "onDelete: Cascade, fields: [ a,b ] ,references:[ c, ".toList

theorem inListOf_openReferences :
    PlainLists "references".toList openReferences ∧ PlainLists "fields".toList openReferences ∧
      InListOf "references".toList openReferences ∧ ¬ InListOf "fields".toList openReferences := by
  have plain : PlainLists "references".toList openReferences := by decide +kernel
  have plain' : PlainLists "fields".toList openReferences := by decide +kernel
  have isOpen : isInsideArgument "references".toList openReferences = true := by decide +kernel
  have isClosed : isInsideArgument "fields".toList openReferences = false := by decide +kernel
  have here := isInsideArgument_iff_inListOf (List.all_eq_true.1 (by decide)) plain
  have there := isInsideArgument_iff_inListOf (List.all_eq_true.1 (by decide)) plain'
  exact ⟨plain, plain', here.1 isOpen,
    fun inList => Bool.false_ne_true (isClosed.symm.trans (there.2 inList))⟩

/-- Without blanks between the arguments a list that is open is missed.  A list that is not open
yet is taken for one. -/
theorem isInsideArgument_unspaced :
    (InListOf "references".toList "fields:[a],references:[".toList ∧
        isInsideArgument "references".toList "fields:[a],references:[".toList = false) ∧
      isInsideArgument "fields".toList "fields: ".toList = true ∧
        ¬ InListOf "fields".toList "fields: ".toList := by
  refine ⟨⟨⟨22, by decide +kernel, "fields:[a],".toList, [], [], ?_⟩, by decide +kernel⟩,
    by decide +kernel, ?_⟩
  · exact ⟨by decide +kernel, by decide +kernel, by simp, by simp⟩
  · rintro ⟨i, isOpen, -⟩
    have none : openSigns '[' ']' "fields: ".toList = [] := by decide +kernel
    rw [none] at isOpen
    cases isOpen

end SchemaAssist
