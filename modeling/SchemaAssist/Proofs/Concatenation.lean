/-
# SchemaAssist.Proofs.Concatenation — schemas one behind the other

A schema closes what it opens, so behind it the lexer is as at the start of a text,
but for the line.  A line feed keeps the two texts apart: no token reaches over it.
Hence a schema, a line feed and a text have a tree exactly if the text has one, and
the blocks of the text follow those of the schema, as many lines further down as
stand before them (`parse?_append_lineFeed`).
-/
import SchemaAssist.Proofs.Parsing

namespace SchemaAssist

set_option autoImplicit false

open Grammar

/-! ## Moving down -/

theorem moves_down (lines : Nat) (tokens : List Token) :
    Moves (Mark.down lines) (· + (lines : Int)) tokens := by
  intro token _
  simp only [Mark.down, Mark.row]
  omega

/-- Tokens moved down derive exactly the trees moved down. -/
theorem isSchema_down {lines : Nat} {tokens : List Token} {schema : Schema} :
    IsSchema (tokens.map (·.relocate (Mark.down lines))) schema ↔
      ∃ back, IsSchema tokens back ∧ schema = back.mapLine (· + (lines : Int)) := by
  constructor
  · intro derived
    let up (mark : Mark) : Mark := ⟨mark.line - lines, mark.column⟩
    have moved : Moves up (· - (lines : Int)) (tokens.map (·.relocate (Mark.down lines))) := by
      intro token isIn
      obtain ⟨original, -, rfl⟩ := List.mem_map.1 isIn
      simp only [up, mark_relocate, Mark.down, Mark.row]
      omega
    have original : (tokens.map (·.relocate (Mark.down lines))).map (·.relocate up) = tokens := by
      rw [List.map_map]
      conv_rhs => rw [← List.map_id tokens]
      apply List.map_congr_left
      intro token _
      simp [Token.relocate, up, Mark.down]
    have back := derived.relocate moved
    rw [original] at back
    have again := back.relocate (moves_down lines tokens)
    exact ⟨_, back, derived.unique again⟩
  · rintro ⟨back, derived, rfl⟩
    exact derived.relocate (moves_down lines tokens)

/-! ## Concatenation -/

/-- The segments behind a schema and a line feed are those of the text that follows,
moved down. -/
theorem Segmented.behind_schema {front text : List Char} {before segments : List Segment}
    {schema : Schema} (segmented : Segmented 0 .start front before)
    (derived : IsSchema (tokensOf before) schema) :
    Segmented 0 .start (front ++ '\n' :: text) segments ↔
      ∃ behind, Segmented 0 .start text behind ∧
        segments = before ++ ⟨Mark.start.behind front, ['\n'], some .newline⟩ ::
          behind.map (·.down (front.count '\n' + 1)) := by
  have feed : Front 0 ['\n'] (some .newline) text := .feed
  have place : (Mark.start.behind front).behind ['\n'] =
      Mark.start.down (front.count '\n' + 1) := by
    have line := Mark.line_behind .start front
    simp only [Mark.start] at line
    simp only [Mark.behind_cons, Mark.behind_nil, Mark.after, if_true, Mark.down, Mark.start, line]
    congr 1
  have back : ∀ behind, Segmented 0 .start text behind →
      Segmented 0 (Mark.start.behind front) (['\n'] ++ text)
        (⟨Mark.start.behind front, ['\n'], some .newline⟩ ::
          behind.map (·.down (front.count '\n' + 1))) := by
    intro behind onward
    refine .cons feed ?_
    rw [place]
    exact onward.down _
  rw [segmented.append_iff (.inr rfl), derived.balanced]
  constructor
  · rintro ⟨others, rfl, whole⟩
    generalize shape : '\n' :: text = all at whole
    cases whole with
    | done => cases shape
    | cons front' onward =>
        obtain ⟨rfl, rfl, rfl⟩ := feed.unique front' shape
        obtain ⟨behind, original⟩ := onward.anywhere .start
        refine ⟨behind, original, ?_⟩
        have again : Segmented 0 (Mark.start.behind front) (['\n'] ++ text) _ :=
          .cons feed onward
        rw [again.unique (back behind original)]
  · rintro ⟨behind, original, rfl⟩
    exact ⟨_, rfl, back behind original⟩

theorem parse?_append_eq_some {a b : String} {front schema : Schema}
    (parsed : Schema.parse? a = some front) :
    Schema.parse? (a ++ "\n" ++ b) = some schema ↔
      ∃ back, Schema.parse? b = some back ∧ schema =
        ⟨front.blocks ++ (back.mapLine (· + ((a.toList.count '\n' : Int) + 1))).blocks⟩ := by
  obtain ⟨before, segmented, derived⟩ := parse_eq_ok.1 (parse?_eq_some.1 parsed)
  have text : (a ++ "\n" ++ b).toList = a.toList ++ '\n' :: b.toList := by simp
  have lines : (a.toList.count '\n' : Int) + 1 = ((a.toList.count '\n' + 1 : Nat) : Int) := by
    omega
  have tokens : ∀ behind, IsSchema (tokensOf (before ++
      ⟨Mark.start.behind a.toList, ['\n'], some .newline⟩ ::
        behind.map (·.down (a.toList.count '\n' + 1)))) schema ↔
      ∃ back, IsSchema (tokensOf behind) back ∧ schema = ⟨front.blocks ++
        (back.mapLine (· + ((a.toList.count '\n' + 1 : Nat) : Int))).blocks⟩ := by
    intro behind
    rw [tokensOf_append, tokensOf_cons, derived.append]
    simp only [Segment.token?, Option.map_some, Option.toList_some, List.singleton_append,
      IsSchema.lineEnd_cons, tokensOf_down, isSchema_down]
    constructor
    · rintro ⟨others, shape, back, isBack, same⟩
      refine ⟨back, isBack, ?_⟩
      rw [← same, ← shape]
    · rintro ⟨back, isBack, rfl⟩
      exact ⟨_, rfl, back, isBack, rfl⟩
  simp only [parse?_eq_some, parse_eq_ok, text, segmented.behind_schema derived, lines]
  constructor
  · rintro ⟨_, ⟨behind, original, rfl⟩, whole⟩
    obtain ⟨back, isBack, same⟩ := (tokens behind).1 whole
    exact ⟨back, ⟨behind, original, isBack⟩, same⟩
  · rintro ⟨back, ⟨behind, original, isBack⟩, same⟩
    exact ⟨_, ⟨behind, original, rfl⟩, (tokens behind).2 ⟨back, isBack, same⟩⟩

/-- **Parsing is compositional.**  Behind a schema and a line feed, a text has a tree
exactly if it has one alone, and its blocks follow those of the schema, moved down by
the lines before them. -/
theorem parse?_append_lineFeed {a b : String} {front : Schema}
    (parsed : Schema.parse? a = some front) :
    Schema.parse? (a ++ "\n" ++ b) = (Schema.parse? b).map fun back =>
      ⟨front.blocks ++ (back.mapLine (· + ((a.toList.count '\n' : Int) + 1))).blocks⟩ := by
  cases alone : Schema.parse? b with
  | none =>
      rw [Option.map_none, Option.eq_none_iff_forall_ne_some]
      intro schema found
      obtain ⟨back, isBack, -⟩ := (parse?_append_eq_some parsed).1 found
      rw [alone] at isBack
      cases isBack
  | some back => exact (parse?_append_eq_some parsed).2 ⟨back, alone, rfl⟩

theorem parse?_enum_lineFeed_enum :
    Schema.parse? "enum A \x7b\n a\n\x7d" =
        some ⟨[.ofMembers .enum "A" ⟨1, 1⟩ ⟨3, 1⟩ [.value ⟨"a", [], 1⟩]]⟩ ∧
      Schema.parse? ("enum A \x7b\n a\n\x7d" ++ "\n" ++ "enum B \x7b b @c \x7d") =
        some ⟨[.ofMembers .enum "A" ⟨1, 1⟩ ⟨3, 1⟩ [.value ⟨"a", [], 1⟩],
          .ofMembers .enum "B" ⟨4, 1⟩ ⟨4, 15⟩ [.value ⟨"b", [⟨"c", false, [], 3⟩], 3⟩]]⟩ :=
  have front : Schema.parse? "enum A \x7b\n a\n\x7d" =
      some ⟨[.ofMembers .enum "A" ⟨1, 1⟩ ⟨3, 1⟩ [.value ⟨"a", [], 1⟩]]⟩ := by decide +kernel
  have back : Schema.parse? "enum B \x7b b @c \x7d" =
      some ⟨[.ofMembers .enum "B" ⟨1, 1⟩ ⟨1, 15⟩ [.value ⟨"b", [⟨"c", false, [], 0⟩], 0⟩]]⟩ := by
    decide +kernel
  ⟨front, (parse?_append_lineFeed front).trans (by rw [back]; decide +kernel)⟩

end SchemaAssist
