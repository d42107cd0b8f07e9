/-
# SchemaAssist.Proofs.Literals — numbers and strings as they are written

A number is read as a digit and all digits and dots behind it, whatever comes of them.  It is an
integer or a decimal (`IsLiteral`) exactly if it has one dot at most and none at its end
(`IsNumber.isLiteral_iff`).

A string is broken off where its line or the text ends (`pieceAt_unterminated`), but a backslash
takes a line feed into it like any other character.  So its quotes stand on one line exactly if no
backslash stands in front of a line feed between them (`Quoted.line_iff`).

`ofText_literals` says both of all texts, and `ofText_looseLiterals` shows a number with two dots
and a string that ends on the line below.
-/
import SchemaAssist.Proofs.Token.Spelling

namespace SchemaAssist

set_option autoImplicit false

open Text

/-! ## Numbers -/

def IsDigits (chars : List Char) : Prop := chars ≠ [] ∧ chars.all isDigit = true

/-- An integer or a decimal: perhaps a minus sign, digits, and perhaps a dot and digits. -/
def IsLiteral (chars : List Char) : Prop :=
  ∃ sign whole, (sign = [] ∨ sign = ['-']) ∧ IsDigits whole ∧
    (chars = sign ++ whole ∨ ∃ places, IsDigits places ∧ chars = sign ++ whole ++ '.' :: places)

theorem count_dot_eq_zero {chars : List Char} (digits : chars.all isDigit = true) :
    chars.count '.' = 0 := by
  rw [List.count_eq_zero]
  intro isIn
  exact absurd (List.all_eq_true.1 digits '.' isIn) (by decide)

theorem IsDigits.getLast? {chars : List Char} (digits : IsDigits chars) (front : List Char) :
    (front ++ chars).getLast? ≠ some '.' := by
  obtain ⟨nonempty, all⟩ := digits
  rw [List.getLast?_append_of_ne_nil _ nonempty]
  intro last
  exact absurd (List.all_eq_true.1 all '.' (List.mem_of_getLast? last)) (by decide)

/-- Digits and dots without a dot are digits. -/
theorem all_isDigit_of_count {chars : List Char} (all : chars.all isNumberChar = true)
    (noDot : chars.count '.' = 0) : chars.all isDigit = true := by
  rw [List.all_eq_true] at all ⊢
  intro c isIn
  have other : c ≠ '.' := by
    rintro rfl
    exact List.count_eq_zero.1 noDot isIn
  simpa [isNumberChar, other] using all c isIn

/-- What is read as a number is an integer or a decimal if it has one dot at most and none at its
end, and only then. -/
theorem IsNumber.isLiteral_iff {chars : List Char} (isNumber : IsNumber chars) :
    IsLiteral chars ↔ chars.count '.' ≤ 1 ∧ chars.getLast? ≠ some '.' := by
  constructor
  · rintro ⟨sign, whole, isSign, digits, rfl | ⟨places, digits', rfl⟩⟩
    all_goals have noDot : sign.count '.' = 0 := by rcases isSign with rfl | rfl <;> rfl
    · rw [List.count_append, noDot, count_dot_eq_zero digits.2]
      exact ⟨Nat.zero_le _, digits.getLast? _⟩
    · rw [List.count_append, List.count_append, noDot, count_dot_eq_zero digits.2,
        List.count_cons_self, count_dot_eq_zero digits'.2, List.append_cons]
      exact ⟨Nat.le_refl _, digits'.getLast? _⟩
  · rintro ⟨dots, last⟩
    obtain ⟨sign, c, inner, rfl, isSign, digit, all⟩ := isNumber
    obtain ⟨whole, rest, rfl, -, digits, ends⟩ := exists_takeWhile_append isDigit inner
    have isWhole : IsDigits (c :: whole) := ⟨List.cons_ne_nil _ _, by simp [digit, digits]⟩
    refine ⟨sign, c :: whole, isSign, isWhole, ?_⟩
    cases rest with
    | nil => exact .inl (by simp)
    | cons d places =>
        -- what ends the digits is a dot, and the only one
        rw [List.all_append, Bool.and_eq_true, List.all_cons, Bool.and_eq_true] at all
        obtain ⟨-, isDot, all⟩ := all
        obtain rfl : d = '.' := by
          have noDigit : isDigit d = false := by simpa using ends
          simpa [isNumberChar, noDigit] using isDot
        have noDot : places.count '.' = 0 := by
          simp only [List.count_append, List.count_cons_self, ← List.cons_append] at dots
          omega
        have nonempty : places ≠ [] := by
          rintro rfl
          rw [← List.cons_append, ← List.append_assoc] at last
          exact last List.getLast?_concat
        exact .inr ⟨places, ⟨nonempty, all_isDigit_of_count all noDot⟩, by simp⟩

/-! ## Strings -/

/-- The quotes of a string stand on one line if no backslash stands in front of a line feed between
them, and only then. -/
theorem Quoted.line_iff {body text : List Char} (quoted : Quoted body text) (mark : Mark) :
    (mark.behind ('"' :: body)).line = mark.line ↔ ¬ ['\\', '\n'] <:+: body := by
  have escapes : '\n' ∈ body ↔ ['\\', '\n'] <:+: body := by
    constructor
    · intro isIn
      obtain ⟨front, back, rfl⟩ := quoted.exists_slash_feed isIn
      exact ⟨front, back, by simp⟩
    · intro part
      exact part.subset (by simp)
  rw [Mark.line_behind, ← escapes, ← List.count_eq_zero, List.count_cons_of_ne (by decide)]
  omega

/-- A string is unterminated where it is broken off. -/
theorem pieceAt_unterminated {depth : Nat} {c : Char} {tail : List Char} :
    pieceAt depth c tail = .error .unterminatedString ↔
      c = '"' ∧ ∃ body text rest, tail = body ++ rest ∧ Quoted body text ∧ BreaksOff rest := by
  rw [← stringBody_eq_none]
  constructor
  · intro failed
    unfold pieceAt at failed
    grind
  · rintro ⟨rfl, unread⟩
    simp [pieceAt, unread]

/-- An error of the lexer is that of an unterminated string if a string is broken off there, and
only then. -/
theorem ofText_unterminated {text : String} {error : SyntaxError}
    (failed : TokenStream.ofText text = .error error) :
    error.fault = .unterminatedString ↔ ∃ front body content rest,
      text.toList = front ++ '"' :: (body ++ rest) ∧ error.mark = Mark.start.behind front ∧
        Quoted body content ∧ BreaksOff rest := by
  obtain ⟨front, depth, c, tail, shape, read, place⟩ := exists_fault_of_lexFrom failed
  rw [shape, place]
  constructor
  · intro unterminated
    rw [unterminated, pieceAt_unterminated] at read
    obtain ⟨rfl, body, content, rest, rfl, quoted, ends⟩ := read
    exact ⟨front, body, content, rest, rfl, rfl, quoted, ends⟩
  · rintro ⟨front', body, content, rest, split, same, quoted, ends⟩
    obtain ⟨rfl, onward⟩ := Mark.behind_inj split same
    obtain ⟨rfl, rfl⟩ := List.cons.inj onward
    rw [pieceAt_unterminated.2 ⟨rfl, body, content, rest, rfl, quoted, ends⟩] at read
    exact (Except.error.inj read).symm

/-! ## Texts -/

/-- **Numbers and strings as they are written.**  The numbers of a text are those that `IsNumber`
allows, integers and decimals if they have one dot at most and none at the end.  Its strings stand
between quotes on one line, but for line feeds behind a backslash.  A text is refused for a string
where one is broken off. -/
theorem ofText_literals (text : String) :
    match TokenStream.ofText text with
    | .ok stream => ∀ token ∈ stream.tokens,
        (∀ value, token.lexeme = .number value → IsNumber value.toList ∧
          (IsLiteral value.toList ↔
            value.toList.count '.' ≤ 1 ∧ value.toList.getLast? ≠ some '.')) ∧
        (∀ value, token.lexeme = .string value → ∃ front body rest,
          text.toList = front ++ ('"' :: body ++ '"' :: rest) ∧
            token.mark = Mark.start.behind front ∧ Quoted body value.toList ∧
            ((token.mark.behind ('"' :: body)).line = token.mark.line ↔
              ¬ ['\\', '\n'] <:+: body))
    | .error error =>
        error.fault = .unterminatedString ↔ ∃ front body content rest,
          text.toList = front ++ '"' :: (body ++ rest) ∧ error.mark = Mark.start.behind front ∧
            Quoted body content ∧ BreaksOff rest := by
  split
  · rename_i stream lexed
    obtain ⟨segments, segmented, rfl⟩ := ofText_eq_ok.1 lexed
    rintro ⟨lexeme, mark⟩ isIn
    refine ⟨?_, ?_⟩
    · rintro value rfl
      obtain ⟨segment, known, isNumber, -⟩ := token_mem_iff.1 isIn
      obtain ⟨under, rest, front⟩ := segmented.exists_front known
      rw [isNumber] at front
      have isNumber : IsNumber value.toList := front.isSpellable
      exact ⟨isNumber, isNumber.isLiteral_iff⟩
    · rintro value rfl
      obtain ⟨before, others, body, rest, -, place, shape, quoted⟩ := segmented.exists_string isIn
      exact ⟨_, body, rest, shape, place, quoted, quoted.line_iff mark⟩
  · rename_i error failed
    exact ofText_unterminated failed

/-- A number with two dots, and a string over two lines. -/
theorem ofText_looseLiterals :
    TokenStream.ofText "1..2" = .ok ⟨[⟨.number "1..2", ⟨1, 1⟩⟩], ⟨1, 5⟩⟩ ∧
      ¬ IsLiteral "1..2".toList ∧
      TokenStream.ofText "\"\\\n\"" = .ok ⟨[⟨.string "\n", ⟨1, 1⟩⟩], ⟨2, 2⟩⟩ := by
  have isNumber : IsNumber "1..2".toList := ⟨[], '1', _, rfl, .inl rfl, by decide, by decide⟩
  refine ⟨by decide +kernel, ?_, by decide +kernel⟩
  rw [isNumber.isLiteral_iff]
  decide

end SchemaAssist
