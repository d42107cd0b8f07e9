/-
# SchemaAssist.Proofs.Token.Continuation — going on behind a token

A text may be broken off behind any of its tokens and gone on with in any way that does not
prolong the token (`ProlongsNoToken`), after a blank for one: all tokens up to there are kept
(`Segmented.take_append`).
-/
import SchemaAssist.Proofs.Token.Segments

namespace SchemaAssist

set_option autoImplicit false

open Grammar

/-- The text is empty or starts with a character that goes on no number, no word and no
at-sign. -/
def ProlongsNoToken (text : List Char) : Prop :=
  ∀ c ∈ text.head?, isNumberChar c = false ∧ Text.isWordChar c = false ∧ c ≠ '@'

section

variable {text : List Char}

theorem ProlongsNoToken.noNumber (ends : ProlongsNoToken text) :
    text.head?.any isNumberChar = false := by
  rw [Bool.eq_false_iff]
  intro goesOn
  obtain ⟨c, first, isNumber⟩ := (Option.any_eq_true _ _).1 goesOn
  simp [(ends c first).1] at isNumber

theorem ProlongsNoToken.noWord (ends : ProlongsNoToken text) :
    text.head?.any Text.isWordChar = false := by
  rw [Bool.eq_false_iff]
  intro goesOn
  obtain ⟨c, first, isWord⟩ := (Option.any_eq_true _ _).1 goesOn
  simp [(ends c first).2.1] at isWord

theorem ProlongsNoToken.noAtSign (ends : ProlongsNoToken text) : text.head? ≠ some '@' :=
  fun first => (ends '@' first).2.2 rfl

end

/-- A segment ends in front of what prolongs no token, unless it is a comment. -/
theorem Front.before_other {depth : Nat} {chars rest other : List Char} {lexeme : Option Lexeme}
    (front : Front depth chars lexeme rest) (ends : ProlongsNoToken other) :
    Front depth chars lexeme other ∨
      lexeme = none ∧ ∃ body, '\n' ∉ body ∧ chars = '/' :: '/' :: body := by
  cases front with
  | blank isBlank => exact .inl (.blank isBlank)
  | comment noFeed _ => exact .inr ⟨rfl, _, noFeed, rfl⟩
  | feed => exact .inl .feed
  | string quoted => exact .inl (.string quoted)
  | number starts inner _ => exact .inl (.number starts inner ends.noNumber)
  | word starts noDigit inner _ => exact .inl (.word starts noDigit inner ends.noWord)
  | doubleAt => exact .inl .doubleAt
  | atSign _ => exact .inl (.atSign ends.noAtSign)
  | sign isSign => exact .inl (.sign isSign)

theorem Front.token_before_other {depth : Nat} {chars rest other : List Char} {lexeme : Lexeme}
    (front : Front depth chars (some lexeme) rest) (ends : ProlongsNoToken other) :
    Front depth chars (some lexeme) other :=
  (front.before_other ends).resolve_right fun comment => nomatch comment.1

/-- The text is empty or starts with a blank. -/
def EndsToken (text : List Char) : Prop := text.head? = none ∨ text.head? = some ' '

theorem EndsToken.prolongsNoToken {text : List Char} (ends : EndsToken text) :
    ProlongsNoToken text := by
  intro c first
  rcases ends with none | blank
  · rw [none] at first
    cases first
  · rw [blank] at first
    obtain rfl := Option.some.inj first
    decide

/-! ## Breaking off -/

/-- Whatever segments there are, the last one is a token. -/
def EndsOnToken (segments : List Segment) : Prop :=
  ∀ segment ∈ segments.getLast?, segment.lexeme.isSome = true

theorem EndsOnToken.tail {segment : Segment} {segments : List Segment}
    (last : EndsOnToken (segment :: segments)) : EndsOnToken segments := by
  intro other isLast
  refine last other ?_
  rw [List.getLast?_cons, Option.mem_def.1 isLast]
  rfl

theorem EndsOnToken.cons {segment : Segment} {segments : List Segment}
    (last : EndsOnToken segments) (token : segments = [] → segment.lexeme.isSome = true) :
    EndsOnToken (segment :: segments) := by
  intro other isLast
  cases segments with
  | nil =>
      obtain rfl : segment = other := by simpa using isLast
      exact token rfl
  | cons next others => exact last other (by simpa [List.getLast?_cons] using isLast)

/-- The first tokens of segments are those of a front part that ends on a token. -/
theorem exists_tokensOf_take (segments : List Segment) (count : Nat) :
    ∃ before others, segments = before ++ others ∧
      tokensOf before = (tokensOf segments).take count ∧ EndsOnToken before := by
  induction segments generalizing count with
  | nil => exact ⟨[], [], rfl, by simp, by simp [EndsOnToken]⟩
  | cons segment segments ih =>
      obtain ⟨mark, chars, lexeme⟩ := segment
      cases lexeme with
      | none =>
          obtain ⟨before, others, rfl, tokens, last⟩ := ih count
          cases before with
          | nil => exact ⟨[], _, rfl, by simpa using tokens, last⟩
          | cons next before =>
              exact ⟨_ :: next :: before, others, rfl, by simpa using tokens,
                last.cons fun empty => nomatch empty⟩
      | some lexeme =>
          cases count with
          | zero => exact ⟨[], _, rfl, by simp, by simp [EndsOnToken]⟩
          | succ count =>
              obtain ⟨before, others, rfl, tokens, last⟩ := ih count
              refine ⟨⟨mark, chars, some lexeme⟩ :: before, others, rfl, ?_, last.cons fun _ => rfl⟩
              rw [tokensOf_token, tokensOf_token, List.take_succ_cons, tokens]

/-- Behind a front part that ends on a token, a text can go on in any way that does not prolong
the token. -/
theorem Segmented.take_append {depth : Nat} {mark : Mark} {text second : List Char}
    {before others behind : List Segment} (segmented : Segmented depth mark text (before ++ others))
    (last : EndsOnToken before)
    (onward : Segmented (depthBehind depth (tokensOf before))
      (mark.behind (before.flatMap (·.chars))) second behind) (ends : ProlongsNoToken second) :
    Segmented depth mark (before.flatMap (·.chars) ++ second) (before ++ behind) := by
  induction before generalizing depth mark text with
  | nil => exact onward
  | cons segment before ih =>
      cases segmented with
      | @cons _ _ chars rest lexeme _ front tail =>
          rw [tokensOf_cons, depthBehind_append, depthBehind_token?, List.flatMap_cons,
            Mark.behind_append] at onward
          rw [List.flatMap_cons, List.append_assoc]
          refine .cons ?_ (ih tail last.tail onward)
          cases before with
          | nil =>
              obtain ⟨lexeme, rfl⟩ := Option.isSome_iff_exists.1 (last ⟨mark, chars, lexeme⟩ rfl)
              exact front.token_before_other ends
          | cons next before =>
              refine front.retail (.inl ?_)
              cases tail with
              | cons front' _ =>
                  obtain ⟨c, inner, rfl⟩ := front'.cons
                  rfl

end SchemaAssist
