/-
# SchemaAssist.Proofs.RelationLists — the two lists of a relation exclude each other

A relation names fields of its own model in `fields` and fields of the other one in `references`,
and a field that one list holds is not offered for the other.  The names in a list are found by a
pattern: the name of the argument at a word boundary, a colon, a bracket and all that stands up to
the next closing bracket.

The pattern finds the list wherever it is written (`mem_bracketIdentifiers`), because nothing in
front of it starts with the argument and a colon (`NamesNowhere`): neither a text without that
word, nor the other list, whose names have no colons behind them even if one of them is the name
of the argument.
-/
import SchemaAssist.Completion.Candidates
import SchemaAssist.Proofs.FieldFronts
import Mathlib.Data.List.Infix

namespace SchemaAssist

set_option autoImplicit false

open Text Candidates

/-! ## Lists as they are written -/

/-- A name in a list, with blanks around it or not. -/
structure WrittenName where
  before : List Char
  name : List Char
  behind : List Char
  isWord : IsWord name
  blankBefore : ∀ c ∈ before, isBlank c = true
  blankBehind : ∀ c ∈ behind, isBlank c = true

def WrittenName.text (written : WrittenName) : List Char :=
  written.before ++ (written.name ++ written.behind)

/-- The list of an argument: blanks between the name of the argument, the colon and the bracket,
and behind the bracket, or none, and the names. -/
structure WrittenList where
  gap : List Char
  space : List Char
  indent : List Char
  names : List WrittenName
  blankGap : ∀ c ∈ gap, isBlank c = true
  blankSpace : ∀ c ∈ space, isBlank c = true
  blankIndent : ∀ c ∈ indent, isBlank c = true

namespace WrittenList

def inside (list : WrittenList) : List Char :=
  list.indent ++ [','].intercalate (list.names.map WrittenName.text)

def text (list : WrittenList) (argument : String) : List Char :=
  argument.toList ++ (list.gap ++ ':' :: (list.space ++ '[' :: (list.inside ++ [']'])))

def identifiers (list : WrittenList) : List String :=
  list.names.map fun written => String.ofList written.name

end WrittenList

/-- A text that may stand in front of the lists of a relation: no word goes on behind it, and it
spells neither of their names. -/
structure LeadsList (text : List Char) : Prop where
  ends : text.getLast?.any isWordChar = false
  noName : ∀ name ∈ Catalogue.relationLists, ¬ name.toList <:+: text

/-- The line has both lists of a relation, in either order. -/
inductive HasBothLists (fields references : WrittenList) : List Char → Prop
  | fieldsFirst {front between tail : List Char} : LeadsList front → LeadsList between →
      HasBothLists fields references (front ++ (fields.text "fields" ++
        (between ++ (references.text "references" ++ tail))))
  | referencesFirst {front between tail : List Char} : LeadsList front → LeadsList between →
      HasBothLists fields references (front ++ (references.text "references" ++
        (between ++ (fields.text "fields" ++ tail))))

/-! ## Where an argument is named -/

/-- The text starts with that name and a colon, with blanks between them or not. -/
def StartsArgument (name text : List Char) : Prop :=
  ∃ gap rest, text = name ++ (gap ++ ':' :: rest) ∧ ∀ c ∈ gap, isBlank c = true

/-- No argument of that name starts inside the text, whatever follows the text. -/
def NamesNowhere (name text : List Char) : Prop :=
  ∀ start rest behind, text = start ++ rest → rest ≠ [] → ¬ StartsArgument name (rest ++ behind)

namespace NamesNowhere

variable {name text first second run : List Char}

theorem append (inFirst : NamesNowhere name first) (inSecond : NamesNowhere name second) :
    NamesNowhere name (first ++ second) := by
  intro start rest behind shape nonempty
  rcases List.append_eq_append_iff.1 shape with ⟨more, rfl, rfl⟩ | ⟨more, rfl, rfl⟩
  · exact inSecond more rest behind rfl nonempty
  · cases more with
    | nil => exact inSecond [] _ behind rfl (by simpa using nonempty)
    | cons c more =>
        rw [List.append_assoc]
        exact inFirst start (c :: more) (second ++ behind) rfl (List.cons_ne_nil c more)

/-- A text in which the name does not stand, nor begin at its end. -/
theorem of_apart (noName : ¬ name <:+: text)
    (noStart : ∀ rest, rest ≠ [] → rest <:+ text → ¬ rest <+: name) : NamesNowhere name text := by
  rintro start rest behind rfl nonempty ⟨gap, more, same, -⟩
  rcases List.prefix_or_prefix_of_prefix (List.prefix_append rest behind)
      (same ▸ List.prefix_append name _) with begun | within
  · exact noStart rest nonempty (List.suffix_append start rest) begun
  · exact noName (within.isInfix.trans (List.suffix_append start rest).isInfix)

theorem of_edge (isWord : IsWord name) (ends : text.getLast?.any isWordChar = false)
    (noName : ¬ name <:+: text) : NamesNowhere name text := by
  refine of_apart noName fun rest nonempty isSuffix begun => ?_
  obtain ⟨start, rfl⟩ := isSuffix
  have last := List.getLast_mem nonempty
  rw [List.getLast?_append_of_ne_nil _ nonempty, List.getLast?_eq_some_getLast nonempty,
    Option.any_some, isWord.wordChars _ (begun.subset last)] at ends
  cases ends

theorem of_noWord (isWord : IsWord name) (noWord : ∀ c ∈ text, isWordChar c = false) :
    NamesNowhere name text := by
  refine of_edge isWord ?_ fun isInfix => ?_
  · cases last : text.getLast? with
    | none => rfl
    | some c => exact noWord c (List.mem_of_getLast? last)
  · obtain ⟨c, inner, rfl⟩ := List.exists_cons_of_ne_nil isWord.ne_nil
    have word := isWord.wordChars c List.mem_cons_self
    rw [noWord c (isInfix.subset List.mem_cons_self)] at word
    cases word

/-- A text without colons, up to a sign that ends a name: what stands there may be the name, but
no colon follows it. -/
theorem of_sign (isWord : IsWord name) {c : Char} (noColon : ':' ∉ run) (other : c ≠ ':')
    (noBlank : isBlank c = false) (noWord : isWordChar c = false) :
    NamesNowhere name (run ++ [c]) := by
  rintro start rest behind shape nonempty ⟨gap, more, same, blank⟩
  have noSign : c ∉ name ++ gap := by
    refine not_mem_of_blank_or_word (fun d isIn => ?_) noBlank noWord
    exact (List.mem_append.1 isIn).elim (fun known => .inr (isWord.wordChars d known))
      fun known => .inl (blank d known)
  obtain ⟨inner, rfl⟩ : ∃ inner, rest = inner ++ [c] := by
    obtain ⟨inner, d, rfl⟩ := (List.eq_nil_or_concat' rest).resolve_left nonempty
    rw [← List.append_assoc] at shape
    exact ⟨inner, by rw [List.append_singleton_inj.1 shape |>.2]⟩
  have noColon : ':' ∉ inner := by
    rw [← List.append_assoc] at shape
    rw [List.append_cancel_right shape] at noColon
    exact fun isIn => noColon (List.mem_append_right _ isIn)
  -- the name and the colon on one side, the run and its sign on the other
  rw [List.append_assoc, List.singleton_append, ← List.append_assoc] at same
  rcases List.append_eq_append_iff.1 same with ⟨between, shape, colon⟩ | ⟨between, rfl, sign⟩
  · cases between with
    | nil => exact other (List.cons.inj colon).1
    | cons d between =>
        obtain ⟨rfl, -⟩ := List.cons.inj colon
        exact noSign (by rw [shape]; simp)
  · cases between with
    | nil => exact other (List.cons.inj sign).1.symm
    | cons d between =>
        obtain ⟨rfl, -⟩ := List.cons.inj sign
        exact noColon (by simp)

end NamesNowhere

/-! ## The pattern -/

section

variable {name text : List Char} {before : Option Char}

/-- Where no argument of that name starts, the pattern has no answer. -/
theorem bracketPattern_eq_none (apart : ¬ StartsArgument name text) :
    bracketPattern name before text = none := by
  unfold bracketPattern
  split
  · rfl
  rename_i rest found
  split
  · rename_i behind colon
    unfold atBoundary at found
    split at found
    · obtain rfl := stripWord_eq_some.1 found
      obtain ⟨gap, blank, shape⟩ := exists_trimStart rest
      rw [colon] at shape
      exact absurd ⟨gap, behind, by rw [shape], blank⟩ apart
    · cases found
  · rfl

/-- Blanks in front of a sign are skipped. -/
theorem trimStart_sign {blanks : List Char} (blank : ∀ c ∈ blanks, isBlank c = true) {sign : Char}
    (noBlank : isBlank sign = false) (rest : List Char) :
    trimStart (blanks ++ sign :: rest) = sign :: rest := by
  rw [trimStart_append blank, trimStart_cons noBlank]

namespace WrittenName

variable (written : WrittenName)

theorem plain : ∀ c ∈ written.text, isBlank c = true ∨ isWordChar c = true := by
  intro c isIn
  rw [text, List.mem_append, List.mem_append] at isIn
  rcases isIn with isIn | isIn | isIn
  · exact .inl (written.blankBefore c isIn)
  · exact .inr (written.isWord.wordChars c isIn)
  · exact .inl (written.blankBehind c isIn)

theorem trim_text : trim written.text = written.name := by
  have starts : written.name.head?.any isBlank = false := by
    obtain ⟨c, inner, shape⟩ := List.exists_cons_of_ne_nil written.isWord.ne_nil
    rw [shape]
    exact written.isWord.noBlank c (by simp [shape])
  have ends : written.name.getLast?.any isBlank = false := by
    rw [List.getLast?_eq_some_getLast written.isWord.ne_nil]
    exact written.isWord.noBlank _ (List.getLast_mem _)
  have front : written.text.dropWhile isBlank = written.name ++ written.behind := by
    refine (takeWhile_dropWhile_iff.2 ⟨rfl, written.blankBefore, ?_⟩).2
    obtain ⟨c, inner, shape⟩ := List.exists_cons_of_ne_nil written.isWord.ne_nil
    rw [shape] at starts ⊢
    exact starts
  rw [trim, trimWhere, front]
  exact (trimEndWhere_lastRun_iff.2 ⟨rfl, written.blankBehind, ends⟩).1

end WrittenName

namespace WrittenList

variable (list : WrittenList)

/-- Between the brackets stand blanks, word characters and commas. -/
theorem of_mem_inside {c : Char} (isIn : c ∈ list.inside) :
    c = ',' ∨ isBlank c = true ∨ isWordChar c = true := by
  rcases List.mem_append.1 isIn with isIn | isIn
  · exact .inr (.inl (list.blankIndent c isIn))
  · generalize list.names = names at isIn
    induction names with
    | nil => cases isIn
    | cons written names ih =>
        by_cases last : names.map WrittenName.text = []
        · rw [List.map_cons, last, List.intercalate_singleton] at isIn
          exact .inr (written.plain c isIn)
        · rw [List.map_cons, List.intercalate_cons_of_ne_nil last, List.mem_append,
            List.mem_append, List.mem_singleton] at isIn
          rcases isIn with (isIn | rfl) | isIn
          · exact .inr (written.plain c isIn)
          · exact .inl rfl
          · exact ih isIn

theorem not_mem_inside {sign : Char} (other : sign ≠ ',') (noBlank : isBlank sign = false)
    (noWord : isWordChar sign = false) : sign ∉ list.inside := by
  intro isIn
  rcases list.of_mem_inside isIn with same | blank | word
  · exact other same
  · rw [noBlank] at blank
    cases blank
  · rw [noWord] at word
    cases word

/-- What stands between the commas are the names, with blanks around them. -/
theorem trim_pieces :
    ((splitWhere (· == ',') list.inside).map trim).filter (!·.isEmpty) =
      list.names.map WrittenName.name := by
  have noComma {chars : List Char} (plain : ∀ c ∈ chars, isBlank c = true ∨ isWordChar c = true) :
      ∀ c ∈ chars, (c == ',') = false := by
    intro c isIn
    rw [beq_eq_false_iff_ne]
    rintro rfl
    exact not_mem_of_blank_or_word plain (by decide) (by decide) isIn
  have indent : ∀ c ∈ list.indent, isBlank c = true ∨ isWordChar c = true :=
    fun c isIn => .inl (list.blankIndent c isIn)
  cases shape : list.names with
  | nil =>
      have blank : list.inside = list.indent := by
        rw [inside, shape, List.map_nil, List.intercalate_nil, List.append_nil]
      have nothing : trim list.indent = [] := by
        rw [trim, trimWhere, List.dropWhile_eq_nil_iff.2 list.blankIndent]
        rfl
      rw [blank, splitWhere_of_none (noComma indent), List.map_singleton, nothing]
      rfl
  | cons first names =>
      let pieces := (list.indent ++ first.text) :: names.map WrittenName.text
      have cut : list.inside = [','].intercalate pieces := by
        rw [inside, shape, List.map_cons]
        cases names <;> simp [pieces]
      have apart : ∀ piece ∈ pieces, ∀ c ∈ piece, (c == ',') = false := by
        intro piece isIn
        rcases List.mem_cons.1 isIn with rfl | isIn
        · refine noComma fun c isIn => (List.mem_append.1 isIn).elim (indent c) (first.plain c)
        · obtain ⟨written, -, rfl⟩ := List.mem_map.1 isIn
          exact noComma written.plain
      have trimmed : pieces.map trim = (first :: names).map WrittenName.name := by
        have head : trim (list.indent ++ first.text) = trim first.text := by
          rw [trim, trimWhere, dropWhile_append_of_all list.blankIndent]
          rfl
        rw [List.map_cons, head, first.trim_text, List.map_map, List.map_cons]
        exact congrArg _ (List.map_congr_left fun written _ => written.trim_text)
      rw [cut, splitWhere_intercalate rfl apart (List.cons_ne_nil _ _), trimmed,
        List.filter_eq_self]
      intro name isIn
      obtain ⟨written, -, rfl⟩ := List.mem_map.1 isIn
      simpa using written.isWord.ne_nil

variable {argument : String}

theorem getLast?_text : (list.text argument).getLast? = some ']' := by
  have shape : list.text argument = (argument.toList ++ (list.gap ++ ':' ::
      (list.space ++ '[' :: list.inside))) ++ [']'] := by simp [text]
  rw [shape, List.getLast?_concat]

theorem occursIn_text (front rest : List Char) :
    occursIn argument.toList (front ++ (list.text argument ++ rest)) = true :=
  occursIn_iff.2 ⟨front, _, by rw [text, List.append_assoc]⟩

/-- The pattern answers with what stands between the brackets. -/
theorem bracketPattern_text (isWord : IsWord argument.toList)
    (starts : before.any isWordChar = false) (rest : List Char) :
    bracketPattern argument.toList before (list.text argument ++ rest) = some list.inside := by
  have boundary : isWordBoundary before (list.text argument ++ rest).head? = true := by
    obtain ⟨c, inner, shape⟩ := List.exists_cons_of_ne_nil isWord.ne_nil
    rw [text, shape]
    show isWordBoundary before (some c) = true
    rw [isWordBoundary, starts, Option.any_some, isWord.wordChars c (by simp [shape])]
    rfl
  have closed : (list.inside ++ ']' :: rest).takeWhile (· != ']') = list.inside := by
    refine (takeWhile_dropWhile_iff.2 ⟨rfl, fun c isIn => ?_, rfl⟩).1
    rw [bne_iff_ne]
    rintro rfl
    exact list.not_mem_inside (by decide) (by decide) (by decide) isIn
  have shape : list.text argument ++ rest = argument.toList ++ (list.gap ++ ':' ::
      (list.space ++ '[' :: (list.inside ++ ']' :: rest))) := by simp [text]
  have colon := trimStart_sign list.blankGap (by decide : isBlank ':' = false)
  have bracket := trimStart_sign list.blankSpace (by decide : isBlank '[' = false)
  simp only [bracketPattern, atBoundary, boundary, if_true]
  simp only [shape, stripWord_append, colon, bracket, closed]

/-- Behind a text in which the argument is not named, its list is the first one. -/
theorem mem_bracketIdentifiers (isWord : IsWord argument.toList) {front : List Char}
    (ends : front.getLast?.any isWordChar = false)
    (nowhere : NamesNowhere argument.toList front) (rest : List Char) (name : String) :
    name ∈ bracketIdentifiers (front ++ (list.text argument ++ rest)) argument.toList ↔
      name ∈ list.identifiers := by
  have found : firstMatch (bracketPattern argument.toList)
      (front ++ (list.text argument ++ rest)) = some list.inside := by
    have starts : (front.getLast?.or none).any isWordChar = false := by rwa [Option.or_none]
    have answer := list.bracketPattern_text isWord starts rest
    rw [firstMatch, firstMatchFrom_append fun start more shape nonempty =>
      bracketPattern_eq_none (nowhere start more _ shape nonempty)]
    cases line : list.text argument ++ rest with
    | nil => rw [line] at answer; exact answer
    | cons c line' =>
        rw [line] at answer
        rw [firstMatchFrom, answer]
  rw [bracketIdentifiers, found]
  simp only [List.mem_eraseDups, list.trim_pieces, List.map_map, identifiers]
  rfl

/-- Another argument is named nowhere in a list, even if a name in the list is its name. -/
theorem namesNowhere {name : List Char} (isWord : IsWord name)
    (apart : NamesNowhere name argument.toList) : NamesNowhere name (list.text argument) := by
  have signs : ∀ c ∈ list.gap ++ ':' :: (list.space ++ ['[']), isWordChar c = false := by
    intro c isIn
    simp only [List.mem_append, List.mem_cons, List.not_mem_nil, or_false] at isIn
    rcases isIn with isIn | rfl | isIn | rfl
    · exact isWordChar_of_isBlank (list.blankGap c isIn)
    · decide
    · exact isWordChar_of_isBlank (list.blankSpace c isIn)
    · decide
  have inside : NamesNowhere name (list.inside ++ [']']) :=
    .of_sign isWord (list.not_mem_inside (by decide) (by decide) (by decide)) (by decide)
      (by decide) (by decide)
  have whole := apart.append ((NamesNowhere.of_noWord isWord signs).append inside)
  simpa [text] using whole

end WrittenList

end

/-! ## Candidates -/

theorem isWord_relationList {name : String} (isIn : name ∈ Catalogue.relationLists) :
    IsWord name.toList := by
  have known := isIn
  simp only [Catalogue.relationLists, List.mem_cons, List.not_mem_nil, or_false] at known
  rcases known with rfl | rfl <;> exact ⟨by decide, List.all_eq_true.1 (by decide)⟩

/-- Neither list has a name that ends or starts with part of the other one's. -/
theorem namesNowhere_relationList {name other : String} (isIn : name ∈ Catalogue.relationLists)
    (isOther : other ∈ Catalogue.relationLists) (apart : name ≠ other) :
    NamesNowhere name.toList other.toList := by
  have separate : ∀ name ∈ Catalogue.relationLists, ∀ other ∈ Catalogue.relationLists,
      name ≠ other → ¬ name.toList <:+: other.toList ∧
        ∀ rest ∈ other.toList.tails, rest ≠ [] → ¬ rest <+: name.toList := by decide +kernel
  obtain ⟨noName, noStart⟩ := separate name isIn other isOther apart
  exact .of_apart noName fun rest nonempty isSuffix =>
    noStart rest ((List.mem_tails _ _).2 isSuffix) nonempty

/-- Of two lists on a line each is found by the name of its argument. -/
theorem mem_bracketIdentifiers_both {name other : String} (isIn : name ∈ Catalogue.relationLists)
    (isOther : other ∈ Catalogue.relationLists) (apart : name ≠ other) {front between : List Char}
    (leads : LeadsList front) (leads' : LeadsList between) (first second : WrittenList)
    (tail : List Char) {line : List Char} (shape : line =
      front ++ (first.text name ++ (between ++ (second.text other ++ tail)))) :
    (∀ found, found ∈ bracketIdentifiers line name.toList ↔ found ∈ first.identifiers) ∧
      (∀ found, found ∈ bracketIdentifiers line other.toList ↔ found ∈ second.identifiers) ∧
      occursIn name.toList line = true ∧ occursIn other.toList line = true := by
  have isWord := isWord_relationList isIn
  have isWord' := isWord_relationList isOther
  have nowhere : ∀ {text}, LeadsList text → NamesNowhere other.toList text :=
    fun leads => .of_edge isWord' leads.ends (leads.noName other isOther)
  let before := front ++ (first.text name ++ between)
  have cut : line = before ++ (second.text other ++ tail) := by simp [shape, before]
  have ends : before.getLast?.any isWordChar = false := by
    have noWord : isWordChar ']' = false := by decide
    rw [List.getLast?_append, List.getLast?_append, first.getLast?_text]
    cases last : between.getLast? with
    | none => exact noWord
    | some c => simpa [last] using leads'.ends
  refine ⟨fun found => ?_, fun found => ?_, ?_, ?_⟩
  · rw [shape]
    exact first.mem_bracketIdentifiers isWord leads.ends
      (.of_edge isWord leads.ends (leads.noName name isIn)) _ found
  · rw [cut]
    exact second.mem_bracketIdentifiers isWord' ends ((nowhere leads).append
      ((first.namesNowhere isWord' (namesNowhere_relationList isOther isIn apart.symm)).append
        (nowhere leads'))) _ found
  · rw [shape]
    exact first.occursIn_text front _
  · rw [cut]
    exact second.occursIn_text before tail

/-- What is used is what the other list holds. -/
theorem mem_otherListIdentifiers {fields references : WrittenList} {line : List Char}
    (both : HasBothLists fields references line) (name : String) :
    (name ∈ otherListIdentifiers line (some "references") ↔ name ∈ fields.identifiers) ∧
      (name ∈ otherListIdentifiers line (some "fields") ↔ name ∈ references.identifiers) := by
  have known : "fields" ∈ Catalogue.relationLists ∧ "references" ∈ Catalogue.relationLists := by
    decide
  obtain ⟨inFields, inReferences, hasFields, hasReferences⟩ :
      (∀ found, found ∈ bracketIdentifiers line "fields".toList ↔ found ∈ fields.identifiers) ∧
        (∀ found, found ∈ bracketIdentifiers line "references".toList ↔
          found ∈ references.identifiers) ∧
        occursIn "fields".toList line = true ∧ occursIn "references".toList line = true := by
    cases both with
    | fieldsFirst leads leads' =>
        exact mem_bracketIdentifiers_both known.1 known.2 (by decide) leads leads' _ _ _ rfl
    | referencesFirst leads leads' =>
        obtain ⟨references, fields, hasReferences, hasFields⟩ :=
          mem_bracketIdentifiers_both known.2 known.1 (by decide) leads leads' _ _ _ rfl
        exact ⟨fields, references, hasFields, hasReferences⟩
  have listed : Catalogue.relationLists.all (fun name => occursIn name.toList line) = true := by
    rw [Catalogue.relationLists, List.all_cons, List.all_cons, hasFields, hasReferences]
    rfl
  constructor
  · rw [otherListIdentifiers, if_pos ⟨by decide, listed⟩]
    exact inFields name
  · rw [otherListIdentifiers, if_pos ⟨by decide, listed⟩]
    exact inReferences name

/-- **The two lists of a relation exclude each other.**  On a line with both lists, the candidates
for one are the fields of the block that the other does not hold, in their order and as often as
they are declared.  No other argument takes any field away, on any line. -/
theorem fieldCandidates?_otherList {fields references : WrittenList} {line : List Char}
    (both : HasBothLists fields references line) (block : BlockView) (cursorLine : Int) :
    fieldCandidates? block line (some cursorLine) (some "references") =
        (block.fieldNames? (some cursorLine)).map (·.filter (· ∉ fields.identifiers)) ∧
      fieldCandidates? block line (some cursorLine) (some "fields") =
        (block.fieldNames? (some cursorLine)).map (·.filter (· ∉ references.identifiers)) ∧
      ∀ (other : List Char) (argument : Option String), argument ≠ some "fields" →
        argument ≠ some "references" → fieldCandidates? block other (some cursorLine) argument =
          block.fieldNames? (some cursorLine) := by
  have unused {used names : List String} (same : ∀ name, name ∈ used ↔ name ∈ names) :
      (fun name => !used.contains name) = fun name => decide (name ∉ names) := by
    funext name
    rw [List.contains_eq_mem, decide_eq_decide.2 (same name), ← decide_not]
  refine ⟨?_, ?_, ?_⟩
  · simp only [fieldCandidates?, unused fun name => (mem_otherListIdentifiers both name).1]
  · simp only [fieldCandidates?, unused fun name => (mem_otherListIdentifiers both name).2]
  · intro line argument notFields notReferences
    have nothing : otherListIdentifiers line argument = [] := by
      cases argument with
      | none => rfl
      | some argument =>
          rw [otherListIdentifiers, if_neg]
          rintro ⟨known, -⟩
          simp only [Catalogue.relationLists, List.contains_eq_mem, List.mem_cons,
            List.not_mem_nil, or_false, decide_eq_true_eq] at known
          rcases known with rfl | rfl
          · exact notFields rfl
          · exact notReferences rfl
    simp [fieldCandidates?, nothing]

def plainName (name : String) (isWord : IsWord name.toList) : WrittenName :=
  ⟨[], name.toList, [], isWord, List.forall_mem_nil _, List.forall_mem_nil _⟩

def ownList : WrittenList where
  gap := []
  space := [' ']
  indent := [' ']
  names := [plainName "references" ⟨by decide, List.all_eq_true.1 (by decide)⟩,
    plainName "b" ⟨by decide, List.all_eq_true.1 (by decide)⟩]
  blankGap := List.all_eq_true.1 (by decide)
  blankSpace := List.all_eq_true.1 (by decide)
  blankIndent := List.all_eq_true.1 (by decide)

/-- A list whose first name is that of the other list, with a blank in front of the colon. -/
def otherList : WrittenList where
  gap := [' ']
  space := []
  indent := []
  names := [plainName "fields" ⟨by decide, List.all_eq_true.1 (by decide)⟩,
    plainName "id" ⟨by decide, List.all_eq_true.1 (by decide)⟩]
  blankGap := List.all_eq_true.1 (by decide)
  blankSpace := List.all_eq_true.1 (by decide)
  blankIndent := List.all_eq_true.1 (by decide)

/-- The line of a relation, with a comment that looks like a list. -/
def crossedLine : List Char :=
  " a A @relation(references :[fields,id], fields: [ references,b]) // fields: [id]".toList

/-- A model that declares a field twice, and has the line of the relation at its end. -/
def crossedModel : ScannedBlock where
  kind := .model
  name := "A"
  startLine := 0
  endLine := 7
  lines := ["model A \x7b", " id Int", " b Int", " fields Int", " references Int", " id Int"].map
    String.toList ++ [crossedLine, ['\x7d']]

theorem fieldCandidates?_crossedLine :
    HasBothLists ownList otherList crossedLine ∧
      fieldCandidates? (.scanned crossedModel) crossedLine (some 6) (some "references") =
        some ["id", "fields", "id"] ∧
      fieldCandidates? (.scanned crossedModel) crossedLine (some 6) (some "fields") =
        some ["b", "references"] ∧
      fieldCandidates? (.scanned crossedModel) crossedLine (some 6) none =
        some ["id", "b", "fields", "references", "id"] := by
  have leads : LeadsList " a A @relation(".toList := ⟨by decide, by decide +kernel⟩
  have leads' : LeadsList ", ".toList := ⟨by decide, by decide +kernel⟩
  have both : HasBothLists ownList otherList crossedLine :=
    @HasBothLists.referencesFirst _ _ _ _ ") // fields: [id]".toList leads leads'
  obtain ⟨references, fields, others⟩ := fieldCandidates?_otherList both (.scanned crossedModel) 6
  refine ⟨both, references.trans ?_, fields.trans ?_, (others _ none nofun nofun).trans ?_⟩
  all_goals decide +kernel

end SchemaAssist
