/-
# SchemaAssist.Proofs.Grammar.Progress — every reading comes to an end

The bounds that the readers count down are never used up.  Every turn of a reader that
loops or nests takes a token first, so a reader whose bound is above the number of
tokens answers or refuses (`Ends`), and `Schema.ofTokens`, which starts with such a
bound, always ends (`ends_blocks`).
-/
import SchemaAssist.Proofs.Grammar.Acceptance
import SchemaAssist.Proofs.Grammar.Locality

namespace SchemaAssist.Grammar

set_option autoImplicit false

variable {α β : Type}

/-- The reading of `tokens` comes to an end, with no more tokens left than there were. -/
def EndsOn (reading : Reading α) (tokens : List Token) : Prop :=
  ∃ rest, reading.rest? = some rest ∧ rest.length ≤ tokens.length

def Ends (reader : Reader α) (length : Nat) : Prop :=
  ∀ tokens, tokens.length ≤ length → EndsOn (reader tokens) tokens

/-- The reader takes a token whenever it answers. -/
def Takes (reader : Reader α) : Prop :=
  ∀ tokens a rest, reader tokens = .done a rest → rest.length < tokens.length

namespace Ends

variable {reader : Reader α} {f : α → Reader β} {length fewer : Nat}

theorem mono (ends : Ends reader length) (le : fewer ≤ length) : Ends reader fewer :=
  fun tokens fits => ends tokens (Nat.le_trans fits le)

theorem done (a : α) : Ends (Reading.done a) length :=
  fun tokens _ => ⟨tokens, rfl, Nat.le_refl _⟩

theorem andThen_of (ends : Ends reader length)
    (onward : ∀ tokens a between, tokens.length ≤ length → reader tokens = .done a between →
      between.length ≤ tokens.length → EndsOn (f a between) between) :
    Ends (fun tokens => (reader tokens).andThen f) length := by
  intro tokens fits
  obtain ⟨rest, left, shorter⟩ := ends tokens fits
  cases read : reader tokens with
  | exhausted => simp [read, Reading.rest?] at left
  | refused why behind =>
      obtain rfl : behind = rest := by simpa [read, Reading.rest?] using left
      exact ⟨behind, by simp [read, Reading.andThen, Reading.rest?], shorter⟩
  | done a between =>
      obtain rfl : between = rest := by simpa [read, Reading.rest?] using left
      obtain ⟨last, left', shorter'⟩ := onward tokens a between fits read shorter
      exact ⟨last, by simpa [read] using left', by omega⟩

theorem andThen (ends : Ends reader length) (onward : ∀ a, Ends (f a) length) :
    Ends (fun tokens => (reader tokens).andThen f) length :=
  ends.andThen_of fun _ a between fits _ shorter => onward a between (by omega)

/-- Behind a reader that takes a token, one token fewer is left. -/
theorem andThen_of_takes (ends : Ends reader (length + 1)) (takes : Takes reader)
    (onward : ∀ a, Ends (f a) length) :
    Ends (fun tokens => (reader tokens).andThen f) (length + 1) :=
  ends.andThen_of fun _ a between fits read _ =>
    onward a between (by have := takes _ _ _ read; omega)

theorem map {g : α → β} (ends : Ends reader length) :
    Ends (fun tokens => (reader tokens).map g) length :=
  ends.andThen fun a => .done (g a)

end Ends

/-- Tokens may stand in front of those that are read. -/
theorem EndsOn.behind {reading : Reading α} {tokens rest : List Token}
    (ends : EndsOn reading rest) (le : rest.length ≤ tokens.length) : EndsOn reading tokens := by
  obtain ⟨left, ends, shorter⟩ := ends
  exact ⟨left, ends, Nat.le_trans shorter le⟩

/-! ## Leaves -/

section

variable {length : Nat}

theorem ends_sign (wanted : Punct) : Ends (Reader.sign wanted) length := by
  intro tokens _
  cases tokens with
  | nil => exact ⟨[], rfl, Nat.le_refl _⟩
  | cons token rest =>
      rw [Reader.sign]
      split
      · exact ⟨rest, rfl, by simp⟩
      · exact ⟨_, rfl, Nat.le_refl _⟩

theorem ends_name : Ends Reader.name length := by
  intro tokens _
  cases tokens with
  | nil => exact ⟨[], rfl, Nat.le_refl _⟩
  | cons token rest =>
      rw [Reader.name]
      split
      · exact ⟨rest, rfl, by simp⟩
      · exact ⟨_, rfl, Nat.le_refl _⟩

theorem takes_name : Takes Reader.name := by
  intro tokens a rest read
  obtain ⟨name, mark⟩ := a
  obtain ⟨token, rfl, -⟩ := name_eq_done.1 read
  simp

theorem ends_optionalSign (wanted : Punct) : Ends (Reader.optionalSign wanted) length := by
  intro tokens _
  by_cases present : next tokens = some (.punct wanted)
  · obtain ⟨token, rest, rfl, same⟩ := exists_of_next present
    exact ⟨rest, by rw [optionalSign_present rest same]; rfl, by simp⟩
  · exact ⟨tokens, by rw [optionalSign_absent present]; rfl, Nat.le_refl _⟩

theorem ends_lineEnds : Ends Reader.lineEnds length := by
  intro tokens fits
  induction tokens with
  | nil => exact ⟨[], rfl, Nat.le_refl _⟩
  | cons token rest ih =>
      rw [List.length_cons] at fits
      rw [Reader.lineEnds]
      split
      · exact (ih (by omega)).behind (by simp)
      · exact ⟨_, rfl, Nat.le_refl _⟩

theorem ends_statementEnd : Ends Reader.statementEnd length := by
  intro tokens fits
  cases tokens with
  | nil => exact ⟨[], rfl, Nat.le_refl _⟩
  | cons token rest =>
      rw [Reader.statementEnd]
      split
      · exact (ends_lineEnds rest (Nat.le_refl _)).behind (by simp)
      · split <;> exact ⟨_, rfl, Nat.le_refl _⟩

theorem ends_dottedName (start : String) : Ends (Reader.dottedName start) length := by
  intro tokens fits
  fun_induction Reader.dottedName start tokens with
  | case1 => exact ⟨[], rfl, Nat.le_refl _⟩
  | case2 => exact ⟨[], rfl, by simp⟩
  | case3 start dot isDot part rest text named ih =>
      simp only [List.length_cons] at fits
      exact (ih (by omega)).behind (by simp; omega)
  | case4 => exact ⟨_, rfl, by simp⟩
  | case5 => exact ⟨_, rfl, Nat.le_refl _⟩

end

/-! ## Lists and values -/

theorem ends_commaList {close : Punct} {item : Reader α} {length bound : Nat}
    (ends : Ends item length) (le : bound ≤ length) :
    Ends (Reader.commaList close item (bound + 1)) bound := by
  induction bound using Nat.strongRecOn with
  | _ bound ih =>
    refine (ends_optionalSign close).andThen fun isClosed => ?_
    cases isClosed with
    | true => exact .done []
    | false =>
        refine (ends.mono le).andThen fun first => ?_
        refine (ends_optionalSign .comma).andThen_of fun tokens hasMore behind fits read _ => ?_
        cases hasMore with
        | false => exact (ends_sign close).map behind (Nat.le_refl _)
        | true =>
            -- the comma is a token, so the bound has room for another turn
            obtain ⟨-, comma, rfl, -⟩ | ⟨impossible, -⟩ := optionalSign_eq_done.1 read
            · simp only [List.length_cons] at *
              obtain ⟨bound, rfl⟩ := Nat.exists_eq_add_one_of_ne_zero (by omega : bound ≠ 0)
              exact (ih bound (by omega) (by omega)).map behind (by omega)
            · cases impossible

theorem ends_argument {value : Reader Value} {length : Nat} (ends : Ends value length) :
    Ends (Reader.argument value) length := by
  intro tokens fits
  by_cases named : ∃ name, next tokens = some (.word name) ∧
      next tokens.tail = some (.punct .colon)
  · obtain ⟨name, first, second⟩ := named
    obtain ⟨key, rest, rfl, isKey⟩ := exists_of_next first
    obtain ⟨colon, rest, rfl, isColon⟩ := exists_of_next second
    simp only [List.length_cons] at fits
    rw [argument_named isKey isColon]
    exact (ends.map rest (by omega)).behind (by simp; omega)
  · rw [argument_plain fun name first second => named ⟨name, first, second⟩]
    exact ends.map tokens fits

theorem ends_value (bound : Nat) : Ends (Reader.value (bound + 1)) bound := by
  induction bound with
  | zero =>
      intro tokens fits
      obtain rfl := List.length_eq_zero_iff.1 (Nat.le_zero.1 fits)
      exact ⟨[], rfl, Nat.le_refl _⟩
  | succ bound ih =>
      intro tokens fits
      cases tokens with
      | nil => exact ⟨[], rfl, Nat.le_refl _⟩
      | cons token rest =>
          have shorter : rest.length ≤ bound := Nat.le_of_succ_le_succ fits
          have part : rest.length ≤ (token :: rest).length := Nat.le_succ _
          cases named : token.lexeme.name? with
          | some name =>
              rw [value_name named]
              split
              · exact ⟨rest, rfl, part⟩
              refine ((ends_optionalSign .parenOpen).andThen (fun isCall => ?_) rest shorter).behind
                part
              cases isCall with
              | true => exact (ends_commaList (ends_argument ih) (Nat.le_refl _)).map
              | false => exact .done _
          | none =>
              by_cases array : token.lexeme = .punct .bracketOpen
              · rw [value_array array]
                exact ((ends_commaList ih (Nat.le_refl _)).map rest shorter).behind part
              · simp only [Reader.value]
                split
                · exact ⟨rest, rfl, part⟩
                · exact ⟨rest, rfl, part⟩
                · rename_i opens
                  exact absurd opens array
                · rw [named]
                  exact ⟨_, rfl, Nat.le_refl _⟩

/-! ## Attributes -/

theorem ends_arguments (bound : Nat) : Ends (Reader.arguments (bound + 1)) bound := by
  refine (ends_optionalSign .parenOpen).andThen fun isCall => ?_
  cases isCall with
  | true => exact ends_commaList (ends_argument (ends_value bound)) (Nat.le_refl _)
  | false => exact .done []

theorem ends_attributeAfter (isBlock : Bool) (mark : Mark) (bound : Nat) :
    Ends (Reader.attributeAfter isBlock mark (bound + 1)) bound :=
  ends_name.andThen fun first =>
    (ends_dottedName first.1).andThen fun _ => (ends_arguments bound).map

theorem ends_attributes (bound : Nat) : Ends (Reader.attributes (bound + 1)) bound := by
  induction bound with
  | zero =>
      intro tokens fits
      obtain rfl := List.length_eq_zero_iff.1 (Nat.le_zero.1 fits)
      exact ⟨[], rfl, Nat.le_refl _⟩
  | succ bound ih =>
      intro tokens fits
      cases tokens with
      | nil => exact ⟨[], rfl, Nat.le_refl _⟩
      | cons token rest =>
          by_cases isSign : token.lexeme = .punct .atSign
          · rw [Reader.attributes, if_pos isSign]
            exact ((ends_attributeAfter false token.mark bound).andThen (fun first => ih.map) rest
              (Nat.le_of_succ_le_succ fits)).behind (Nat.le_succ _)
          · rw [Reader.attributes, if_neg isSign]
            exact ⟨_, rfl, Nat.le_refl _⟩

/-! ## Members -/

theorem ends_listSuffix {length : Nat} : Ends Reader.listSuffix length := by
  refine (ends_optionalSign .bracketOpen).andThen fun isList => ?_
  cases isList with
  | true => exact (ends_sign .bracketClose).map
  | false => exact .done false

/-- A member starts with a token of its own, so its bound need not be above the number of
tokens. -/
theorem ends_member (kind : BlockKind) (bound : Nat) :
    Ends (Reader.member kind (bound + 1)) (bound + 1) := by
  intro tokens fits
  unfold Reader.member
  split
  · have assignment : Ends (Reader.assignment (bound + 1)) (bound + 1) :=
      ends_name.andThen_of_takes takes_name fun _ =>
        (ends_sign .equals).andThen fun _ => (ends_value bound).map
    exact assignment.map tokens fits
  by_cases first : next tokens = some (.punct .doubleAt)
  · obtain ⟨sign, rest, rfl, isSign⟩ := exists_of_next first
    rw [declaration_sign isSign]
    exact ((ends_attributeAfter true sign.mark bound).map rest
      (Nat.le_of_succ_le_succ fits)).behind (Nat.le_succ _)
  · rw [declaration_plain first]
    split
    · have value : Ends (Reader.enumValue (bound + 1)) (bound + 1) :=
        ends_name.andThen_of_takes takes_name fun _ => (ends_attributes bound).map
      exact value.map tokens fits
    · have field : Ends (Reader.field (bound + 1)) (bound + 1) :=
        ends_name.andThen_of_takes takes_name fun _ =>
          ends_name.andThen fun _ => ends_listSuffix.andThen fun _ =>
            (ends_optionalSign .question).andThen fun _ => (ends_attributes bound).map
      exact field.map tokens fits

theorem takes_member (kind : BlockKind) (bound : Nat) : Takes (Reader.member kind bound) := by
  intro tokens m rest read
  obtain ⟨stretch, rfl, member⟩ := member_sound kind bound _ _ _ read
  obtain ⟨token, others, rfl, -⟩ := member.cons
  simp only [List.length_append, List.length_cons]
  omega

/-! ## Blocks -/

theorem ends_members (kind : BlockKind) (name : String) (opened : Mark) (bound : Nat) :
    Ends (Reader.members kind name opened (bound + 1)) bound := by
  induction bound with
  | zero =>
      intro tokens fits
      obtain rfl := List.length_eq_zero_iff.1 (Nat.le_zero.1 fits)
      exact ⟨[], rfl, Nat.le_refl _⟩
  | succ bound ih =>
      intro tokens fits
      cases tokens with
      | nil => exact ⟨[], rfl, Nat.le_refl _⟩
      | cons token rest =>
          rw [Reader.members]
          split
          · exact ⟨rest, rfl, by simp⟩
          · refine (ends_member kind bound).andThen_of_takes (takes_member kind _)
              (fun first => ?_) (token :: rest) fits
            exact ends_statementEnd.andThen fun _ => ih.map

theorem ends_block (bound : Nat) : Ends (Reader.block (bound + 1)) (bound + 1) := by
  intro tokens fits
  by_cases isKeyword : ∃ kind, next tokens = some (.keyword kind)
  · obtain ⟨kind, first⟩ := isKeyword
    obtain ⟨keyword, rest, rfl, isKeyword⟩ := exists_of_next first
    rw [block_keyword isKeyword]
    refine (ends_name.andThen ?_ rest (Nat.le_of_succ_le_succ fits)).behind (Nat.le_succ _)
    rintro ⟨name, mark⟩
    exact (ends_sign .braceOpen).andThen fun _ => ends_lineEnds.andThen fun _ =>
      (ends_members kind name keyword.mark bound).map
  · rw [block_other fun kind first => isKeyword ⟨kind, first⟩]
    exact ⟨tokens, rfl, Nat.le_refl _⟩

theorem takes_block (bound : Nat) : Takes (Reader.block bound) := by
  intro tokens b rest read
  obtain ⟨stretch, rfl, isBlock⟩ := block_sound bound _ _ _ read
  obtain ⟨keyword, others, rfl, -⟩ := isBlock.cons
  simp only [List.length_append, List.length_cons]
  omega

/-- **The bound of a schema is never used up.** -/
theorem ends_blocks (bound : Nat) : Ends (Reader.blocks (bound + 1)) bound := by
  induction bound with
  | zero =>
      intro tokens fits
      obtain rfl := List.length_eq_zero_iff.1 (Nat.le_zero.1 fits)
      exact ⟨[], rfl, Nat.le_refl _⟩
  | succ bound ih =>
      refine ends_lineEnds.andThen fun _ => ?_
      intro tokens fits
      cases tokens with
      | nil => exact ⟨[], rfl, Nat.le_refl _⟩
      | cons token rest =>
          exact (ends_block bound).andThen_of_takes (takes_block _) (fun first => ih.map)
            (token :: rest) fits

end SchemaAssist.Grammar
