/-
# SchemaAssist.Proofs.EarliestError — errors come at the earliest possible token

A stream that is no schema is refused in front of one of its tokens, or at its end
(`Schema.refusal?`).  The tokens before that place begin a schema, and with the token
there they begin none: readers decide by the tokens that they take and by the next
lexeme, so every stream that starts with the same tokens is refused at the same place
(`refusal?_congr`).

`ofTokens_error_earliest` puts this together with the place that an error names.
-/
import SchemaAssist.Proofs.Grammar.Progress
import SchemaAssist.Proofs.Grammar.Viability
import SchemaAssist.Proofs.Token.Spelling

namespace SchemaAssist

set_option autoImplicit false

open Grammar

/-! ## Where a reading is refused -/

/-- Why the tokens are refused, and the number of tokens before the offending one. -/
def Schema.refusal? (tokens : List Token) : Option (Refusal × Nat) :=
  match Reader.blocks (tokens.length + 1) tokens with
  | .refused why rest => some (why, tokens.length - rest.length)
  | _ => none

/-- Where token number `index` of the stream stands; behind the last one, the end. -/
def TokenStream.markAt (stream : TokenStream) (index : Nat) : Mark :=
  (stream.tokens[index]?.map (·.mark)).getD stream.stop

theorem refusal?_eq_some {tokens : List Token} {why : Refusal} {index : Nat} :
    Schema.refusal? tokens = some (why, index) ↔
      ∃ read rest, tokens = read ++ rest ∧ read.length = index ∧
        Reader.blocks (tokens.length + 1) tokens = .refused why rest := by
  unfold Schema.refusal?
  constructor
  · intro found
    split at found
    · rename_i cause rest refused
      obtain ⟨read, shape, -⟩ := blocks_refused refused
      have count := congrArg List.length shape
      rw [List.length_append] at count
      obtain ⟨rfl, rfl⟩ := Prod.mk.inj (Option.some.inj found)
      exact ⟨read, rest, shape, by omega, refused⟩
    · cases found
  · rintro ⟨read, rest, rfl, rfl, refused⟩
    rw [refused]
    simp

/-- A stream has an error exactly if its tokens are refused. -/
theorem ofTokens_eq_error {stream : TokenStream} {error : SyntaxError} :
    Schema.ofTokens stream = .error error ↔
      ∃ why index, Schema.refusal? stream.tokens = some (why, index) ∧
        error = why.error stream.stop (stream.tokens.drop index) := by
  obtain ⟨rest, ended, -⟩ := ends_blocks stream.tokens.length stream.tokens (Nat.le_refl _)
  simp only [refusal?_eq_some, Schema.ofTokens]
  cases reading : Reader.blocks (stream.tokens.length + 1) stream.tokens with
  | done blocks rest => simp
  | exhausted => simp [reading, Reading.rest?] at ended
  | refused cause behind =>
      obtain ⟨read, shape, -⟩ := blocks_refused reading
      have others : stream.tokens.drop read.length = behind := by rw [shape]; simp
      constructor
      · intro same
        exact ⟨cause, read.length, ⟨read, behind, shape, rfl, rfl⟩, by rw [others]; cases same; rfl⟩
      · rintro ⟨why, index, ⟨front, back, split, rfl, same⟩, rfl⟩
        obtain ⟨rfl, rfl⟩ := Reading.refused.inj same
        rw [split, List.drop_left]

/-! ## The tokens that are looked at -/

/-- Every bound above the number of tokens gives the same reading. -/
theorem blocks_bound {tokens : List Token} {bound : Nat} (enough : tokens.length < bound) :
    Reader.blocks bound tokens = Reader.blocks (tokens.length + 1) tokens := by
  obtain ⟨rest, ended, -⟩ := ends_blocks tokens.length tokens (Nat.le_refl _)
  obtain ⟨read, rfl, onward⟩ := keeps_blocks enough tokens rest ended
  rw [onward rest rfl]
  generalize Reader.blocks _ _ = reading at ended
  cases reading <;> cases ended <;> rfl

/-- The tokens before the refusal and the next lexeme decide it. -/
theorem refusal?_append {read rest other : List Token} {why : Refusal}
    (refused : Schema.refusal? (read ++ rest) = some (why, read.length))
    (same : next other = next rest) :
    Schema.refusal? (read ++ other) = some (why, read.length) := by
  obtain ⟨front, back, shape, length, refused⟩ := refusal?_eq_some.1 refused
  obtain ⟨rfl, rfl⟩ := List.append_inj shape length.symm
  let bound := (read ++ rest).length + 1 + (read ++ other).length
  have le : (read ++ rest).length + 1 ≤ bound := by omega
  obtain ⟨taken, split, onward⟩ := keeps_blocks le _ rest (by rw [refused]; rfl)
  obtain rfl := List.append_cancel_right split
  rw [refusal?_eq_some]
  refine ⟨read, other, rfl, rfl, ?_⟩
  have enough : (read ++ other).length < bound := by omega
  rw [← blocks_bound enough, onward other same, refused]
  rfl

/-- Streams with the same tokens up to the offending one are refused alike.  Taking one
token more than the stream has says that it ends there. -/
theorem refusal?_congr {tokens others : List Token} {why : Refusal} {index : Nat}
    (refused : Schema.refusal? tokens = some (why, index))
    (same : others.take (index + 1) = tokens.take (index + 1)) :
    Schema.refusal? others = some (why, index) := by
  obtain ⟨read, rest, rfl, rfl, -⟩ := refusal?_eq_some.1 refused
  have before : others.take read.length = read := by
    have shorter := congrArg (List.take read.length) same
    simpa [List.take_take] using shorter
  have here : others[read.length]? = (read ++ rest)[read.length]? := by
    have taken := congrArg (·[read.length]?) same
    simpa [List.getElem?_take] using taken
  have shape : others = read ++ others.drop read.length := by
    conv_lhs => rw [← List.take_append_drop read.length others, before]
  rw [shape]
  refine refusal?_append refused ?_
  rw [next, List.head?_drop, here, ← List.head?_drop, List.drop_left, next]

/-! ## The place of an error -/

/-- An error stands at the next token, unless it says that a block is not closed. -/
theorem mark_error {why : Refusal} {stop : Mark} {rest : List Token}
    (closed : ∀ kind name, (why.error stop rest).fault ≠ .unterminatedBlock kind name) :
    (why.error stop rest).mark = (rest.head?.map (·.mark)).getD stop := by
  cases why with
  | expected what => rfl
  | unexpected => rfl
  | unterminatedBlock kind name opened => exact absurd rfl (closed kind name)

theorem TokenStream.markAt_length {front rest : List Token} {stream : TokenStream}
    (split : stream.tokens = front ++ rest) :
    stream.markAt front.length = (rest.head?.map (·.mark)).getD stream.stop := by
  rw [TokenStream.markAt, split, ← List.head?_drop, List.drop_left]

/-! ## The tokens that begin a schema -/

theorem standsAlone_fillers : ∀ lexeme ∈ fillers, StandsAlone lexeme := by
  simp only [fillers, List.forall_mem_cons]
  refine ⟨fun _ _ ends => ?_, fun _ _ ends => ?_, fun _ _ _ => .sign rfl, fun _ _ _ => .sign rfl,
    fun _ _ _ => .sign rfl, fun _ _ _ => .sign rfl, fun _ _ _ => .sign rfl, nofun⟩
  · exact @Front.word _ 'x' [] _ (by decide) (by decide) rfl ends.prolongsNoToken.noWord
  · exact @Front.word _ 'e' ['n', 'u', 'm'] _ (by decide) (by decide) (by decide)
      ends.prolongsNoToken.noWord

/-- **Errors are reported at the earliest possible token.**  An error comes from a refusal
in front of some token or at the end.  What stands before begins an accepted stream, that
of a text if the stream is; together with the token there, or as the whole stream, it
begins none.  The error stands at that place; if a block is not closed, the tokens have
ended and the error stands at the keyword of that block. -/
theorem ofTokens_error_earliest {stream : TokenStream} {error : SyntaxError}
    (rejected : Schema.ofTokens stream = .error error) :
    ∃ why index, Schema.refusal? stream.tokens = some (why, index) ∧
      error = why.error stream.stop (stream.tokens.drop index) ∧
      index ≤ stream.tokens.length ∧
      (∃ more schema stop,
        Schema.ofTokens ⟨stream.tokens.take index ++ more, stop⟩ = .ok schema) ∧
      (∀ text, TokenStream.ofText text = .ok stream → ∃ other back schema,
        TokenStream.ofText other = .ok back ∧ stream.tokens.take index <+: back.tokens ∧
          Schema.ofTokens back = .ok schema) ∧
      (∀ other : TokenStream, other.tokens.take (index + 1) = stream.tokens.take (index + 1) →
        ∀ schema, Schema.ofTokens other ≠ .ok schema) ∧
      ((∀ kind name, error.fault ≠ .unterminatedBlock kind name) →
        error.mark = stream.markAt index) ∧
      (∀ kind name, error.fault = .unterminatedBlock kind name →
        index = stream.tokens.length ∧ ∃ front back schema, stream.tokens = front ++ back ∧
          IsSchema front schema ∧ IsOpenBlock kind name error.mark back) := by
  obtain ⟨why, index, refused, rfl⟩ := ofTokens_eq_error.1 rejected
  refine ⟨why, index, refused, rfl, ?_⟩
  obtain ⟨read, rest, split, rfl, reading⟩ := refusal?_eq_some.1 refused
  obtain ⟨front, shape, ⟨ends, areFillers, complete⟩, cause⟩ := blocks_refused reading
  obtain rfl : front = read := List.append_cancel_right (shape.symm.trans split)
  have before : stream.tokens.take front.length = front := by rw [split, List.take_left]
  have behind : stream.tokens.drop front.length = rest := by rw [split, List.drop_left]
  rw [before, behind]
  refine ⟨by rw [split]; simp, ?_, ?_, ?_, ?_, ?_⟩
  · obtain ⟨schema, derived⟩ := complete (ends.map (⟨·, .start⟩)) (by simp [Function.comp_def])
    exact ⟨_, schema, .start, ofTokens_eq_ok.2 derived⟩
  · intro text lexed
    obtain ⟨other, stop, more, lexed', same⟩ := exists_ofText_take lexed front.length
      fun lexeme isIn => standsAlone_fillers lexeme (areFillers lexeme isIn)
    obtain ⟨schema, derived⟩ := complete more same
    rw [before] at lexed'
    exact ⟨other, _, schema, lexed', List.prefix_append _ _, ofTokens_eq_ok.2 derived⟩
  · intro other same schema accepted
    have alike := refusal?_congr refused same
    have failed := ofTokens_eq_error.2 ⟨why, _, alike, rfl⟩
    rw [accepted] at failed
    cases failed
  · intro closed
    rw [TokenStream.markAt_length split]
    exact mark_error closed
  · intro kind name open'
    obtain plain | ⟨rfl, kind', name', opened, outer, inner, schema, rfl, rfl, derived, isOpen⟩ :=
      cause
    · obtain ⟨what, rfl⟩ | rfl := plain <;> cases open'
    · cases open'
      refine ⟨by rw [split]; simp, outer, inner, schema, by rw [split]; simp, derived, isOpen⟩

theorem ofTokens_runOnValue :
    Schema.ofTokens ⟨[⟨.keyword .enum, ⟨1, 1⟩⟩, ⟨.word "A", ⟨1, 6⟩⟩, ⟨.punct .braceOpen, ⟨1, 8⟩⟩,
        ⟨.word "a", ⟨1, 10⟩⟩, ⟨.word "b", ⟨1, 12⟩⟩, ⟨.punct .braceClose, ⟨1, 14⟩⟩], ⟨1, 15⟩⟩ =
      .error ⟨.unexpected (some (.word "b")), ⟨1, 12⟩⟩ ∧
    ∀ other : TokenStream, other.tokens.take 5 = [⟨.keyword .enum, ⟨1, 1⟩⟩, ⟨.word "A", ⟨1, 6⟩⟩,
        ⟨.punct .braceOpen, ⟨1, 8⟩⟩, ⟨.word "a", ⟨1, 10⟩⟩, ⟨.word "b", ⟨1, 12⟩⟩] →
      ∀ schema, Schema.ofTokens other ≠ .ok schema := by
  have rejected : Schema.ofTokens ⟨[⟨.keyword .enum, ⟨1, 1⟩⟩, ⟨.word "A", ⟨1, 6⟩⟩,
      ⟨.punct .braceOpen, ⟨1, 8⟩⟩, ⟨.word "a", ⟨1, 10⟩⟩, ⟨.word "b", ⟨1, 12⟩⟩,
      ⟨.punct .braceClose, ⟨1, 14⟩⟩], ⟨1, 15⟩⟩ =
      .error ⟨.unexpected (some (.word "b")), ⟨1, 12⟩⟩ := by decide +kernel
  obtain ⟨why, index, refused, -, -, -, -, hopeless, -⟩ := ofTokens_error_earliest rejected
  have found : some (why, index) = some (Refusal.unexpected, 4) :=
    refused.symm.trans (by decide +kernel)
  cases found
  exact ⟨rejected, hopeless⟩

end SchemaAssist
