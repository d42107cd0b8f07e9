/-
# SchemaAssist.Proofs.ProviderAgreement — the providers of a text, parsed or scanned

Whether enums are offered hangs on the provider that a datasource names.  Where the blocks of
a text are laid out on lines and its datasources plainly (`PlainSources`), the tree and the
scan of the lines name the same providers, so the answer is the same with the tree and without
(`usesProvider_scanned_eq_parsed`).

Blocks on lines are not enough.  A comment that mentions a datasource lets the scan take the
provider of whatever block it meets (`usesProvider_mentionedGenerator`).
-/
import SchemaAssist.Proofs.BlockLocation
import SchemaAssist.Proofs.Layout.Sources
import SchemaAssist.Completion.Candidates

namespace SchemaAssist

set_option autoImplicit false

open Text Grammar

/-- **The tree and the scan agree on providers**, and on whether enums are supported. -/
theorem usesProvider_scanned_eq_parsed {text : String} {schema : Schema} {segments : List Segment}
    (parsed : Schema.parse? text = some schema) (layout : BlocksOnLines text segments)
    (sources : PlainSources text segments schema.blocks) (wanted : List String) :
    Scan.usesProvider (Document.ofText text) wanted = schema.usesProvider wanted ∧
      ∀ document, Candidates.enumsSupported none (some (Document.ofText text)) wanted =
        Candidates.enumsSupported (some schema) document wanted := by
  have laid := layout.laid
  have derived := isSchema_of_parse? parsed layout.segmented
  have same : Scan.usesProvider (Document.ofText text) wanted = schema.usesProvider wanted :=
    (laid.outline derived).usesProvider_eq (sources.shown laid derived) wanted
  refine ⟨same, fun document => ?_⟩
  show (!Scan.usesProvider (Document.ofText text) wanted) = !schema.usesProvider wanted
  rw [same]

/-! ## Texts with one provider -/

/-- A character that a text has once stands in one segment only. -/
theorem Segmented.not_mem_of_count {depth : Nat} {mark : Mark} {text : List Char}
    {segments : List Segment} (segmented : Segmented depth mark text segments) {c : Char}
    (once : text.count c ≤ 1) {own other : Segment} (isIn : own ∈ segments) (holds : c ∈ own.chars)
    (isOther : other ∈ segments) (apart : other ≠ own) : c ∉ other.chars := by
  intro holds'
  obtain ⟨front, back, rfl⟩ := List.append_of_mem isIn
  have further : other ∈ front ++ back := by
    rcases List.mem_append.1 isOther with known | known
    · exact List.mem_append_left _ known
    · exact List.mem_append_right _ ((List.mem_cons.1 known).resolve_left apart)
  have here : 0 < own.chars.count c := List.count_pos_iff.2 holds
  have there : 0 < ((front ++ back).flatMap (·.chars)).count c :=
    List.count_pos_iff.2 (List.mem_flatMap.2 ⟨other, further, holds'⟩)
  rw [← segmented.flatten, List.flatMap_append, List.flatMap_cons, List.count_append,
    List.count_append] at once
  rw [List.flatMap_append, List.count_append] at there
  omega

/-- A text with one closing brace and one letter of the word, both outside of comments and
strings, can be searched for its provider if it has no backslash. -/
theorem ClearRow.of_count {depth : Nat} {mark : Mark} {text : List Char} {segments : List Segment}
    (segmented : Segmented depth mark text segments) (brace : text.count '\x7d' ≤ 1)
    (letter : text.count 'v' ≤ 1) (noSlash : '\\' ∉ text)
    (closes : ∃ t ∈ tokensOf segments, t.lexeme = .punct .braceClose)
    (provides : ∃ t ∈ tokensOf segments, t.lexeme = .word "provider") : ClearRow segments := by
  have away : ∀ {c : Char}, text.count c ≤ 1 → ∀ {own : Segment}, own ∈ segments →
      c ∈ own.chars → own.isFree = false → ∀ segment ∈ segments, segment.isFree = true →
        c ∉ segment.chars := by
    intro c once own known holds noFree segment isIn isFree
    refine segmented.not_mem_of_count once known holds isIn ?_
    rintro rfl
    rw [noFree] at isFree
    cases isFree
  obtain ⟨closing, isClosing, isBrace⟩ := closes
  obtain ⟨word, isWord, isProvider⟩ := provides
  obtain ⟨own, known, lexeme, -⟩ := token_mem_iff.1 isClosing
  obtain ⟨own', known', lexeme', -⟩ := token_mem_iff.1 isWord
  obtain ⟨under, rest, front⟩ := segmented.exists_front known
  obtain ⟨under', rest', front'⟩ := segmented.exists_front known'
  rw [isBrace] at lexeme
  rw [isProvider] at lexeme'
  rw [lexeme] at front
  rw [lexeme'] at front'
  have spelled := front.punct
  obtain ⟨spelled', -⟩ := front'.name rfl
  refine ⟨away brace known ?_ (by rw [Segment.isFree, lexeme]), fun segment isIn isFree => ?_,
    fun segment isIn content _ holds => noSlash ?_⟩
  · rw [spelled]
    decide
  · rw [Bool.eq_false_iff]
    intro occurs
    obtain ⟨before, behind, same⟩ := occursIn_iff.1 occurs
    refine away letter known' ?_ (by rw [Segment.isFree, lexeme']) segment isIn isFree ?_
    · rw [spelled']
      decide
    · rw [same]
      simp
  · rw [← segmented.flatten]
    exact List.mem_flatMap.2 ⟨segment, isIn, holds⟩

/-- A datasource with a comment, and with a list that goes on over line ends. -/
def listedSource : String :=
  "datasource db \x7b\n  schemas = [\r\n    \"a=\"\n  ]\n  // one\n  provider = \"sqlite\"\n\x7d"

def listedTokens : List Token :=
  [⟨.keyword .datasource, 1, 1⟩, ⟨.word "db", 1, 12⟩, ⟨.punct .braceOpen, 1, 15⟩,
    ⟨.newline, 1, 16⟩, ⟨.word "schemas", 2, 3⟩, ⟨.punct .equals, 2, 11⟩,
    ⟨.punct .bracketOpen, 2, 13⟩, ⟨.string "a=", 3, 5⟩, ⟨.punct .bracketClose, 4, 3⟩,
    ⟨.newline, 4, 4⟩, ⟨.newline, 5, 9⟩, ⟨.word "provider", 6, 3⟩, ⟨.punct .equals, 6, 12⟩,
    ⟨.string "sqlite", 6, 14⟩, ⟨.newline, 6, 22⟩, ⟨.punct .braceClose, 7, 1⟩]

def listedBlock : Block :=
  .ofMembers .datasource "db" ⟨1, 1⟩ ⟨7, 1⟩
    [.assignment ⟨"schemas", ⟨.array, "", [⟨.string, "a=", []⟩]⟩, 1⟩,
      .assignment ⟨"provider", ⟨.string, "sqlite", []⟩, 5⟩]

theorem usesProvider_listedSource :
    Schema.parse? listedSource = some ⟨[listedBlock]⟩ ∧
      Scan.usesProvider (Document.ofText listedSource) ["mysql", "sqlite"] = true := by
  have lexed : TokenStream.ofText listedSource = .ok ⟨listedTokens, ⟨7, 2⟩⟩ := by decide +kernel
  have read : Schema.ofTokens ⟨listedTokens, ⟨7, 2⟩⟩ = .ok ⟨[listedBlock]⟩ := by decide +kernel
  obtain ⟨parsed, segments, segmented, tokens⟩ := parse?_of_ofText lexed read
  have layout : BlocksOnLines listedSource segments :=
    .ofSingle segmented tokens (.of_isChain (by decide +kernel) (by decide +kernel)) (by decide)
      (by decide) (by decide) (by decide +kernel) (by unfold FirstOnLine; decide)
  have clear : ClearRow segments :=
    .of_count segmented (by decide +kernel) (by decide +kernel) (by decide +kernel)
      (by rw [tokens]; decide) (by rw [tokens]; decide)
  have sources : PlainSources listedSource segments [listedBlock] := by
    refine ⟨fun n mentioned => ⟨listedBlock, by simp, rfl, ?_⟩,
      fun b _ _ => clear.subset fun _ isIn => (List.mem_filter.1 isIn).1, fun b isIn _ => ?_⟩
    · have first : ∀ n < 7, occursIn "datasource".toList
          ((Document.ofText listedSource).line (n : Nat)) = true → n = 0 := by decide +kernel
      rw [first n (lt_of_mentioned mentioned) mentioned]
      rfl
    · obtain rfl := List.mem_singleton.1 isIn
      unfold Block.HasSingleProvider
      decide
  refine ⟨parsed, (usesProvider_scanned_eq_parsed parsed layout sources _).1.trans ?_⟩
  decide +kernel

/-- A generator with a comment that mentions a datasource. -/
def mentionedGenerator : String :=
  "generator g \x7b // datasource\n  provider = \"sqlite\"\n\x7d"

def mentionedTokens : List Token :=
  [⟨.keyword .generator, 1, 1⟩, ⟨.word "g", 1, 11⟩, ⟨.punct .braceOpen, 1, 13⟩, ⟨.newline, 1, 28⟩,
    ⟨.word "provider", 2, 3⟩, ⟨.punct .equals, 2, 12⟩, ⟨.string "sqlite", 2, 14⟩,
    ⟨.newline, 2, 22⟩, ⟨.punct .braceClose, 3, 1⟩]

def mentionedBlock : Block :=
  .ofMembers .generator "g" ⟨1, 1⟩ ⟨3, 1⟩ [.assignment ⟨"provider", ⟨.string, "sqlite", []⟩, 1⟩]

/-- Where a comment mentions a datasource, the scan takes the provider of a generator. -/
theorem usesProvider_mentionedGenerator :
    Schema.parse? mentionedGenerator = some ⟨[mentionedBlock]⟩ ∧
      (∃ segments, BlocksOnLines mentionedGenerator segments) ∧
      (Schema.mk [mentionedBlock]).usesProvider ["sqlite"] = false ∧
      Scan.usesProvider (Document.ofText mentionedGenerator) ["sqlite"] = true ∧
      Candidates.enumsSupported (some ⟨[mentionedBlock]⟩) none ["sqlite"] = true ∧
      Candidates.enumsSupported none (some (Document.ofText mentionedGenerator)) ["sqlite"] =
        false := by
  have lexed : TokenStream.ofText mentionedGenerator = .ok ⟨mentionedTokens, ⟨3, 2⟩⟩ := by
    decide +kernel
  have read : Schema.ofTokens ⟨mentionedTokens, ⟨3, 2⟩⟩ = .ok ⟨[mentionedBlock]⟩ := by
    decide +kernel
  obtain ⟨parsed, segments, segmented, tokens⟩ := parse?_of_ofText lexed read
  have layout : BlocksOnLines mentionedGenerator segments :=
    .ofSingle segmented tokens (.of_all (by decide +kernel)) (by decide) (by decide) (by decide)
      (by decide +kernel) (by unfold FirstOnLine; decide)
  refine ⟨parsed, ⟨segments, layout⟩, ?_, ?_, ?_, ?_⟩
  all_goals decide +kernel

end SchemaAssist
