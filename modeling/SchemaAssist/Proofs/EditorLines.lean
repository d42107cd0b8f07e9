/-
# SchemaAssist.Proofs.EditorLines — the lines of a tree in an editor

The numbers of lines in a tree count line feeds, an editor counts any line end.  Each number
is taken from a token of its own and is the number of a line that the editor has: of the line
with that token, if all line ends above the token are plain, and otherwise of one above it
(`anchors_shown`).

So a carriage return of its own, which the lexer takes for a gap, puts the whole tree one line
too high (`anchors_returnedModel`).
-/
import SchemaAssist.Proofs.Grammar.Anchors
import SchemaAssist.Proofs.Parsing
import SchemaAssist.Proofs.Text.LineCounts
import SchemaAssist.Proofs.Token.Words

namespace SchemaAssist

set_option autoImplicit false

open Text Grammar

/-! ## Tokens in their text -/

/-- A token stands behind the part of the text that its mark counts. -/
theorem Segmented.exists_at {depth : Nat} {mark : Mark} {text : List Char}
    {segments : List Segment} (segmented : Segmented depth mark text segments) {t : Token}
    (isIn : t ∈ tokensOf segments) :
    ∃ front chars rest under, text = front ++ (chars ++ rest) ∧ t.mark = mark.behind front ∧
      Front under chars (some t.lexeme) rest := by
  obtain ⟨segment, known, lexeme, place⟩ := token_mem_iff.1 isIn
  obtain ⟨before, others, rfl⟩ := List.append_of_mem known
  obtain ⟨behind, rfl, onward⟩ := segmented.cut
  cases onward with
  | cons front _ =>
      simp only at lexeme place
      exact ⟨_, _, _, _, rfl, place.symm, lexeme ▸ front⟩

/-- A name or a sign is spelled on one line. -/
theorem Anchor.IsOf.spelling {a : Anchor} {t : Token} (isOf : a.IsOf t) {depth : Nat}
    {chars rest : List Char} (front : Front depth chars (some t.lexeme) rest) :
    chars = a.spelling.toList ∧ chars ≠ [] ∧ ∀ c ∈ chars, OnLine c := by
  rcases isOf.spelled with named | ⟨p, isSign, spelled⟩
  · have isName := front.isName named
    obtain ⟨rfl, -⟩ := front.name named
    exact ⟨rfl, isName.ne_nil, isName.onLine⟩
  · rw [isSign] at front
    obtain rfl := front.punct
    have onLine : p.text.toList.all (fun c => decide (OnLine c)) = true := by
      cases p <;> decide
    refine ⟨by rw [spelled], ?_, List.all_iff_forall_prop.1 onLine⟩
    cases p <;> decide

/-! ## Numbers and lines -/

/-- An editor has a line of that number.  It shows the token there if all line ends above the
token are plain, and further below otherwise. -/
def Anchor.ShownIn (text : String) (a : Anchor) (t : Token) : Prop :=
  ∃ upper before after below rest, t.mark = Mark.start.behind (upper ++ before) ∧
    text.toList = upper ++ before ++ (a.spelling.toList ++ rest) ∧
    (Document.ofText text).lines =
      editorLines upper ++ (before ++ a.spelling.toList ++ after) :: below ∧
    0 ≤ a.line ∧ a.line ≤ (editorLines upper).length ∧
    (a.line = (editorLines upper).length ↔ PlainLineEnds (upper ++ before))

theorem Segmented.anchor_shownIn {text : String} {segments : List Segment}
    (segmented : Segmented 0 .start text.toList segments) {a : Anchor} {t : Token}
    (isOf : a.IsOf t) (isIn : t ∈ tokensOf segments) : a.ShownIn text t := by
  obtain ⟨front, chars, rest, under, shape, place, spelled⟩ := segmented.exists_at isIn
  obtain ⟨rfl, nonempty, onLine⟩ := isOf.spelling spelled
  obtain ⟨upper, before, line⟩ := exists_shownLine front nonempty onLine rest
  obtain ⟨rfl, ⟨after, below, lines⟩, le, same⟩ := line
  have number : a.line = ((upper ++ before).count '\n' : Nat) := by
    rw [← isOf.row, place, Mark.row_behind_start]
  refine ⟨upper, before, after, below, rest, place, shape, ?_, ?_, ?_, ?_⟩
  · show editorLines text.toList = _
    rw [shape, lines]
  · omega
  · omega
  · rw [← same, number, Int.ofNat_inj]

/-- **Every number of a line in a tree** is taken from a token of its own and numbers a line of
the editor, and that is the line of the token exactly if all line ends above it are plain. -/
theorem anchors_shown {text : String} {schema : Schema}
    (parsed : Schema.parse? text = some schema) :
    ∃ stream own, TokenStream.ofText text = .ok stream ∧ own.Subperm stream.tokens ∧
      List.Forall₂ (fun a t => a.IsOf t ∧ a.ShownIn text t) schema.anchors own := by
  obtain ⟨segments, segmented, derived⟩ := parse_eq_ok.1 (parse?_eq_some.1 parsed)
  obtain ⟨own, part, matched⟩ := derived.takenFrom
  refine ⟨_, own, ofText_eq_ok.2 ⟨segments, segmented, rfl⟩, part, ?_⟩
  have known : ∀ t ∈ own, t ∈ tokensOf segments := fun t isIn => part.subset isIn
  clear part
  generalize schema.anchors = anchors at matched ⊢
  induction matched with
  | nil => exact .nil
  | cons here _ ih =>
      obtain ⟨isIn, others⟩ := List.forall_mem_cons.1 known
      exact .cons ⟨here, segmented.anchor_shownIn here isIn⟩ (ih others)

/-- An enum with a form feed in a comment behind its header. -/
def pagedEnum : String := "enum E \x7b // \x0c\n A @map(\"x\")\n\x7d"

def pagedBlock : Block :=
  .ofMembers .enum "E" ⟨1, 1⟩ ⟨3, 1⟩
    [.value ⟨"A", [⟨"map", false, [⟨none, ⟨.string, "x", []⟩⟩], 1⟩], 1⟩]

theorem anchors_pagedEnum :
    Schema.parse? pagedEnum = some ⟨[pagedBlock]⟩ ∧
      ∃ stream own, TokenStream.ofText pagedEnum = .ok stream ∧ own.Subperm stream.tokens ∧
        List.Forall₂ (fun (a : Anchor) t => a.IsOf t ∧ a.ShownIn pagedEnum t)
          [⟨0, "enum"⟩, ⟨2, "\x7d"⟩, ⟨1, "A"⟩, ⟨1, "@"⟩] own := by
  have parsed : Schema.parse? pagedEnum = some ⟨[pagedBlock]⟩ := by decide +kernel
  exact ⟨parsed, anchors_shown parsed⟩

/-- Behind a carriage return of its own, the numbers of a tree are not those of an editor. -/
theorem anchors_returnedModel :
    (Schema.parse? "\rmodel A \x7b\n\x7d").map Schema.anchors =
        some [⟨0, "model"⟩, ⟨1, "\x7d"⟩] ∧
      (Document.ofText "\rmodel A \x7b\n\x7d").lines =
        ["".toList, "model A \x7b".toList, "\x7d".toList] := by
  decide +kernel

end SchemaAssist
