/-
# SchemaAssist.Proofs.Parsing — the trees of texts

The lexer cuts a text into segments, and the parser accepts exactly the derivations of
the grammar.  Together, a text has a tree exactly if its segments spell tokens that
derive it (`parse_eq_ok`).
-/
import SchemaAssist.Proofs.Grammar.Acceptance
import SchemaAssist.Proofs.Token.Segments

namespace SchemaAssist

set_option autoImplicit false

open Grammar

/-- A text has a tree exactly if its segments spell tokens that derive it. -/
theorem parse_eq_ok {text : String} {schema : Schema} :
    Schema.parse text = .ok schema ↔
      ∃ segments, Segmented 0 .start text.toList segments ∧
        IsSchema (tokensOf segments) schema := by
  unfold Schema.parse
  constructor
  · intro parsed
    split at parsed
    · cases parsed
    · rename_i stream lexed
      obtain ⟨segments, segmented, rfl⟩ := ofText_eq_ok.1 lexed
      exact ⟨segments, segmented, ofTokens_eq_ok.1 parsed⟩
  · rintro ⟨segments, segmented, derived⟩
    have lexed := ofText_eq_ok.2 ⟨segments, segmented, rfl⟩
    simp only [lexed]
    exact ofTokens_eq_ok.2 derived

theorem parse?_eq_some {text : String} {schema : Schema} :
    Schema.parse? text = some schema ↔ Schema.parse text = .ok schema := by
  unfold Schema.parse?
  cases Schema.parse text <;> simp [Except.toOption]

/-- The tokens of a text with segments derive its tree. -/
theorem isSchema_of_parse? {text : String} {schema : Schema} {segments : List Segment}
    (parsed : Schema.parse? text = some schema)
    (segmented : Segmented 0 .start text.toList segments) :
    IsSchema (tokensOf segments) schema := by
  obtain ⟨own, ownSegmented, derived⟩ := parse_eq_ok.1 (parse?_eq_some.1 parsed)
  rwa [ownSegmented.unique segmented] at derived

/-- A text whose tokens are known has the tree that is read off them, and segments that spell
them. -/
theorem parse?_of_ofText {text : String} {tokens : List Token} {stop : Mark} {schema : Schema}
    (lexed : TokenStream.ofText text = .ok ⟨tokens, stop⟩)
    (read : Schema.ofTokens ⟨tokens, stop⟩ = .ok schema) :
    Schema.parse? text = some schema ∧
      ∃ segments, Segmented 0 .start text.toList segments ∧ tokensOf segments = tokens := by
  obtain ⟨segments, segmented, stream⟩ := ofText_eq_ok.1 lexed
  refine ⟨parse?_eq_some.2 ?_, segments, segmented, (congrArg TokenStream.tokens stream).symm⟩
  rw [Schema.parse, lexed]
  exact read

end SchemaAssist
