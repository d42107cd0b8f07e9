/-
# SchemaAssist.Proofs.Text.OpenSigns — which opening signs are not closed

Opening and closing signs of a text are matched from left to right with a stack: an opening one
is put on, a closing one takes the last one off, and is ignored if there is none.  `openSigns` is
what is left, the innermost sign first.  Parentheses and brackets are matched apart, each as if
the other did not exist.
-/
import Mathlib.Data.List.Induction

namespace SchemaAssist.Text

set_option autoImplicit false

/-- A list falls apart in front of and behind any of its elements. -/
theorem eq_take_append_cons_drop {α : Type} {list : List α} {i : Nat} {a : α}
    (here : list[i]? = some a) : list = list.take i ++ a :: list.drop (i + 1) := by
  obtain ⟨inside, rfl⟩ := List.getElem?_eq_some_iff.1 here
  rw [← List.drop_eq_getElem_cons inside, List.take_append_drop]

/-- The open signs behind one more character, which stands at that offset. -/
def matchSign (opening closing : Char) (stack : List Nat) : Char × Nat → List Nat
  | (c, offset) => if c = opening then offset :: stack else if c = closing then stack.tail else stack

/-- The offsets of the opening signs that are still open at the end of a text, innermost
first. -/
def openSigns (opening closing : Char) (text : List Char) : List Nat :=
  text.zipIdx.foldl (matchSign opening closing) []

variable {opening closing : Char}

theorem openSigns_concat (text : List Char) (c : Char) :
    openSigns opening closing (text ++ [c]) =
      matchSign opening closing (openSigns opening closing text) (c, text.length) := by
  simp [openSigns, List.zipIdx_append]

theorem openSigns_opening (text : List Char) :
    openSigns opening closing (text ++ [opening]) =
      text.length :: openSigns opening closing text := by
  rw [openSigns_concat, matchSign, if_pos rfl]

theorem openSigns_closing (distinct : closing ≠ opening) (text : List Char) :
    openSigns opening closing (text ++ [closing]) = (openSigns opening closing text).tail := by
  rw [openSigns_concat, matchSign, if_neg distinct, if_pos rfl]

theorem openSigns_other {c : Char} (noOpening : c ≠ opening) (noClosing : c ≠ closing)
    (text : List Char) : openSigns opening closing (text ++ [c]) = openSigns opening closing text := by
  rw [openSigns_concat, matchSign, if_neg noOpening, if_neg noClosing]

/-- Where nothing opens, each closing sign takes one off. -/
theorem openSigns_append {chars : List Char} (noOpening : opening ∉ chars) (text : List Char) :
    openSigns opening closing (text ++ chars) =
      (openSigns opening closing text).drop (chars.count closing) := by
  induction chars using List.reverseRecOn with
  | nil => simp
  | append_singleton chars c ih =>
      rw [List.mem_append, List.mem_singleton, not_or] at noOpening
      rw [← List.append_assoc, openSigns_concat, matchSign, if_neg (Ne.symm noOpening.2),
        ih noOpening.1, List.count_append]
      split
      · rename_i closes
        rw [closes, List.count_singleton_self, List.tail_drop]
      · rename_i other
        rw [List.count_singleton, if_neg (by simpa using other), Nat.add_zero]

section

variable {chars : List Char} (neither : ∀ c ∈ chars, c ≠ opening ∧ c ≠ closing)
include neither

/-- Neither opening nor closing, characters leave open what is open. -/
theorem openSigns_neither (text : List Char) :
    openSigns opening closing (text ++ chars) = openSigns opening closing text := by
  have noOpening : opening ∉ chars := fun isIn => (neither _ isIn).1 rfl
  have noClosing : chars.count closing = 0 :=
    List.count_eq_zero.2 fun isIn => (neither _ isIn).2 rfl
  rw [openSigns_append noOpening, noClosing, List.drop_zero]

theorem openSigns_eq_nil : openSigns opening closing chars = [] := openSigns_neither neither []

theorem openSigns_opened (text : List Char) :
    openSigns opening closing (text ++ opening :: chars) =
      text.length :: openSigns opening closing text := by
  rw [List.append_cons, openSigns_neither neither, openSigns_opening]

end

/-- What is open at the end and stands in the front of the text is open at the end of that
front. -/
theorem mem_openSigns_of_append {front back : List Char} {i : Nat}
    (isOpen : i ∈ openSigns opening closing (front ++ back)) (inFront : i < front.length) :
    i ∈ openSigns opening closing front := by
  induction back using List.reverseRecOn with
  | nil => rwa [List.append_nil] at isOpen
  | append_singleton back c ih =>
      rw [← List.append_assoc, openSigns_concat, matchSign] at isOpen
      split at isOpen
      · rcases List.mem_cons.1 isOpen with rfl | known
        · rw [List.length_append] at inFront
          omega
        · exact ih known
      · split at isOpen
        · exact ih (List.mem_of_mem_tail isOpen)
        · exact ih isOpen

/-- Each of these offsets is that of an opening sign. -/
theorem getElem?_of_openSigns {text : List Char} {i : Nat}
    (isOpen : i ∈ openSigns opening closing text) : text[i]? = some opening := by
  induction text using List.reverseRecOn with
  | nil => cases isOpen
  | append_singleton text c ih =>
      have onward (known : i ∈ openSigns opening closing text) :
          (text ++ [c])[i]? = some opening := by
        have inside := (List.getElem?_eq_some_iff.1 (ih known)).1
        rw [List.getElem?_append_left inside, ih known]
      rw [openSigns_concat, matchSign] at isOpen
      split at isOpen
      · rename_i opens
        rcases List.mem_cons.1 isOpen with rfl | known
        · rw [List.getElem?_concat_length, opens]
        · exact onward known
      · split at isOpen
        · exact onward (List.mem_of_mem_tail isOpen)
        · exact onward isOpen

end SchemaAssist.Text
