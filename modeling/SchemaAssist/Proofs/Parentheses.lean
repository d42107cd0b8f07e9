/-
# SchemaAssist.Proofs.Parentheses — which parenthesis is still open

The parentheses of a text are matched from left to right with a stack, as all signs are
(`openSigns`).  `openParens` is what is left of them, the innermost parenthesis first.

`openCall?` searches from right to left with a counter instead.  It finds the same parenthesis
(`uncovered?_reverse`) and answers with the attribute in front of it, if there is one
(`openCall?_eq_forward`).
-/
import SchemaAssist.Completion.Context
import SchemaAssist.Proofs.Text.Blanks
import SchemaAssist.Proofs.Text.OpenSigns

namespace SchemaAssist

set_option autoImplicit false

open Text Scan

/-- The offsets of the parentheses that are still open at the end of a text, innermost first. -/
def openParens (text : List Char) : List Nat := openSigns '(' ')' text

/-! ## The search from the right -/

def splitAtParen (text behind : List Char) (i : Nat) : List Char × List Char :=
  ((text.take i).reverse, text.drop (i + 1) ++ behind)

theorem splitAtParen_concat {text : List Char} {i : Nat} (isOpen : i ∈ openParens text) (c : Char)
    (behind : List Char) :
    splitAtParen (text ++ [c]) behind i = splitAtParen text (c :: behind) i := by
  have inside := (List.getElem?_eq_some_iff.1 (getElem?_of_openSigns isOpen)).1
  rw [splitAtParen, splitAtParen, List.take_append_of_le_length (Nat.le_of_lt inside),
    List.drop_append_of_le_length inside, List.append_assoc, List.singleton_append]

/-- **The search from the right finds the top of the stack**, or the parenthesis below as many
others as it has seen closed. -/
theorem uncovered?_reverse (text behind : List Char) (closed : Nat) :
    uncovered? closed behind text.reverse =
      ((openParens text)[closed]?).map (splitAtParen text behind) := by
  unfold openParens
  induction text using List.reverseRecOn generalizing closed behind with
  | nil => rfl
  | append_singleton text c ih =>
      have onward (number : Nat) : uncovered? number (c :: behind) text.reverse =
          ((openSigns '(' ')' text)[number]?).map (splitAtParen (text ++ [c]) behind) := by
        rw [ih]
        refine Option.map_congr fun i found => ?_
        exact (splitAtParen_concat (List.mem_of_getElem? found) c behind).symm
      rw [List.reverse_append, List.reverse_singleton, List.singleton_append]
      unfold uncovered?
      by_cases closes : c = ')'
      · subst closes
        rw [if_pos rfl, onward, openSigns_closing (by decide), List.getElem?_tail]
      by_cases opens : c = '('
      · subst opens
        rw [if_neg closes, if_pos rfl, openSigns_opening]
        cases closed with
        | zero => simp [splitAtParen]
        | succ closed => rw [List.getElem?_cons_succ, ← onward]
      · rw [if_neg closes, if_neg opens, onward, openSigns_other opens closes]

/-! ## The attribute in front of it -/

/-- The at-signs of an attribute: two, or one with no other in front of it. -/
def AreSigns (signs : List Char) (before : Option Char) : Prop :=
  signs = ['@', '@'] ∨ signs = ['@'] ∧ before ≠ some '@'

theorem AreSigns.reverse {signs : List Char} {before : Option Char}
    (areSigns : AreSigns signs before) : signs.reverse = signs := by
  rcases areSigns with rfl | ⟨rfl, -⟩ <;> rfl

/-- The text ends in that attribute, with blanks behind it or not. -/
def EndsWithAttribute (text : List Char) (label : String) : Prop :=
  ∃ front signs name blanks, text = front ++ (signs ++ (name ++ blanks)) ∧
    AreSigns signs front.getLast? ∧ name ≠ [] ∧ (∀ c ∈ name, isMemberChar c = true) ∧
    (∀ c ∈ blanks, isBlank c = true) ∧ label = String.ofList (signs ++ name)

/-- Of the at-signs at the end of a text, given last first, the last two count. -/
theorem lastSigns_eq {reversed signs : List Char} :
    (reversed.takeWhile (· == '@')).take 2 = signs ∧ signs ≠ [] ↔
      ∃ front, reversed = signs ++ front ∧ AreSigns signs front.head? := by
  constructor
  · rintro ⟨rfl, nonempty⟩
    match reversed with
    | [] => exact absurd rfl nonempty
    | [c] =>
        by_cases first : c = '@'
        · subst first
          exact ⟨[], rfl, .inr ⟨rfl, nofun⟩⟩
        · simp [first] at nonempty
    | c :: d :: front =>
        by_cases first : c = '@'
        · subst first
          by_cases second : d = '@'
          · subst second
            exact ⟨front, rfl, .inl rfl⟩
          · exact ⟨d :: front, by simp [second], .inr ⟨by simp [second], by simpa using second⟩⟩
        · simp [first] at nonempty
  · rintro ⟨front, rfl, rfl | ⟨rfl, single⟩⟩
    · exact ⟨rfl, nofun⟩
    · refine ⟨?_, nofun⟩
      cases front with
      | nil => rfl
      | cons c front =>
          have other : c ≠ '@' := by simpa using single
          simp [other]

theorem attributeAtEnd?_eq_some {reversed : List Char} {label : String} :
    attributeAtEnd? reversed = some label ↔
      ∃ blanks name signs front, reversed = blanks ++ (name ++ (signs ++ front)) ∧
        AreSigns signs front.head? ∧ name ≠ [] ∧ (∀ c ∈ name, isMemberChar c = true) ∧
        (∀ c ∈ blanks, isBlank c = true) ∧ label = String.ofList (signs ++ name.reverse) := by
  unfold attributeAtEnd?
  simp only [Option.ite_none_left_eq_some, Bool.or_eq_true, List.isEmpty_iff, not_or,
    Option.some.injEq]
  constructor
  · rintro ⟨⟨nonempty, someSigns⟩, rfl⟩
    let text := reversed.dropWhile isBlank
    obtain ⟨front, behind, areSigns⟩ := lastSigns_eq.1 ⟨rfl, someSigns⟩
    refine ⟨reversed.takeWhile isBlank, text.takeWhile isMemberChar, _, front, ?_, areSigns,
      nonempty, fun _ => List.mem_takeWhile_imp, fun _ => List.mem_takeWhile_imp, rfl⟩
    rw [← behind, List.takeWhile_append_dropWhile, List.takeWhile_append_dropWhile]
  · rintro ⟨blanks, name, signs, front, rfl, areSigns, nonempty, isName, blank, rfl⟩
    have nameStarts : (name ++ (signs ++ front)).head?.any isBlank = false := by
      obtain ⟨c, inner, rfl⟩ := List.exists_cons_of_ne_nil nonempty
      simpa using not_isBlank_of_isMemberChar (isName c (by simp))
    have signStarts : (signs ++ front).head?.any isMemberChar = false := by
      have noName : isMemberChar '@' = false := by decide
      rcases areSigns with rfl | ⟨rfl, -⟩ <;> simp [noName]
    rw [(takeWhile_dropWhile_iff.2 ⟨rfl, blank, nameStarts⟩).2,
      (takeWhile_dropWhile_iff.2 ⟨rfl, isName, signStarts⟩).1,
      (takeWhile_dropWhile_iff.2 ⟨rfl, isName, signStarts⟩).2]
    obtain ⟨counted, someSigns⟩ := lastSigns_eq.2 ⟨front, rfl, areSigns⟩
    rw [counted]
    exact ⟨⟨nonempty, someSigns⟩, rfl⟩

theorem attributeAtEnd?_reverse {text : List Char} {label : String} :
    attributeAtEnd? text.reverse = some label ↔ EndsWithAttribute text label := by
  rw [attributeAtEnd?_eq_some]
  constructor
  · rintro ⟨blanks, name, signs, front, shape, areSigns, nonempty, isName, blank, rfl⟩
    refine ⟨front.reverse, signs, name.reverse, blanks.reverse, ?_, ?_, by simpa using nonempty,
      by simpa using isName, by simpa using blank, rfl⟩
    · rw [← List.reverse_reverse text, shape]
      simp [areSigns.reverse]
    · rwa [List.getLast?_reverse]
  · rintro ⟨front, signs, name, blanks, rfl, areSigns, nonempty, isName, blank, rfl⟩
    refine ⟨blanks.reverse, name.reverse, signs, front.reverse, by simp [areSigns.reverse], ?_,
      by simpa using nonempty, by simpa using isName, by simpa using blank, by simp⟩
    rwa [List.head?_reverse]

theorem EndsWithAttribute.unique {text : List Char} {label other : String}
    (named : EndsWithAttribute text label) (named' : EndsWithAttribute text other) :
    label = other :=
  Option.some.inj
    ((attributeAtEnd?_reverse.2 named).symm.trans (attributeAtEnd?_reverse.2 named'))

/-- **The open call** belongs to the innermost open parenthesis and to the attribute in front of
it; its arguments are what follows. -/
theorem openCall?_eq_some {text : List Char} {call : OpenCall} :
    openCall? text = some call ↔ ∃ i, (openParens text).head? = some i ∧
      EndsWithAttribute (text.take i) call.name ∧ call.arguments = text.drop (i + 1) := by
  unfold openCall?
  rw [uncovered?_reverse, ← List.head?_eq_getElem?]
  cases (openParens text).head? with
  | none => simp
  | some i =>
      simp only [Option.map_some, splitAtParen, List.append_nil, Option.map_eq_some_iff,
        attributeAtEnd?_reverse, Option.some.injEq, exists_eq_left']
      constructor
      · rintro ⟨name, found, rfl⟩
        exact ⟨found, rfl⟩
      · rintro ⟨found, same⟩
        exact ⟨call.name, found, by rw [← same]⟩

theorem openCall?_eq_none {text : List Char} (noneOpen : openParens text = []) :
    openCall? text = none := by
  rw [openCall?, uncovered?_reverse, noneOpen]
  rfl

section

variable {text : List Char} {i : Nat} {outer : List Nat}

theorem openCall?_of_attribute (opened : openParens text = i :: outer) {label : String}
    (named : EndsWithAttribute (text.take i) label) :
    openCall? text = some ⟨label, text.drop (i + 1)⟩ :=
  openCall?_eq_some.2 ⟨i, by rw [opened]; rfl, named, rfl⟩

theorem openCall?_of_function (opened : openParens text = i :: outer)
    (unnamed : ∀ label, ¬ EndsWithAttribute (text.take i) label) : openCall? text = none := by
  rw [Option.eq_none_iff_forall_ne_some]
  intro call found
  obtain ⟨j, top, named, -⟩ := openCall?_eq_some.1 found
  rw [opened] at top
  obtain rfl := Option.some.inj top
  exact unnamed _ named

end

/-- **The search from the right agrees with matching from the left**, whatever parentheses are
left over on either side: there is no open call if the stack ends empty, nor if no attribute
stands in front of its top, and else it is the call of that attribute. -/
theorem openCall?_eq_forward (text : List Char) :
    (openParens text = [] → openCall? text = none) ∧
      ∀ i outer, openParens text = i :: outer →
        text[i]? = some '(' ∧
        (∀ label, EndsWithAttribute (text.take i) label →
          openCall? text = some ⟨label, text.drop (i + 1)⟩) ∧
        ((∀ label, ¬ EndsWithAttribute (text.take i) label) → openCall? text = none) := by
  refine ⟨openCall?_eq_none, fun i outer opened => ⟨?_, fun label named => ?_, fun unnamed => ?_⟩⟩
  · exact getElem?_of_openSigns (opened ▸ List.mem_cons_self)
  · exact openCall?_of_attribute opened named
  · exact openCall?_of_function opened unnamed

/-- Closing parentheses too many, and one open inside another. -/
example : openCall? ") @a( b() @@id.x (c, (d)".toList = some ⟨"@@id.x", "c, (d)".toList⟩ := by
  decide +kernel

end SchemaAssist
