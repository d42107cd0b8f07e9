/-
# SchemaAssist.Proofs.Token.Words — names on a line, and lines between others

What the lexer reads as a name (`IsName`) can stand wherever no word character follows.
So a line that is an indentation and two names is segmented in one way
(`Segmented.pair_iff`), and the second name can be exchanged for any other: behind a
line feed nothing depends on what stood before it (`Segmented.cut_feed`,
`Segmented.append_feed`), and of what follows on the line only the line end moves
(`Segmented.slide`).
-/
import SchemaAssist.Proofs.Text.Blanks
import SchemaAssist.Proofs.Token.Along
import Mathlib.Data.List.Basic

namespace SchemaAssist

set_option autoImplicit false

open Text Grammar

/-! ## Names -/

def IsName (chars : List Char) : Prop :=
  ∃ c inner, chars = c :: inner ∧ isWordStart c = true ∧ isDigit c = false ∧
    inner.all isWordChar = true

@[simp] theorem name?_wordLexeme (text : String) : (wordLexeme text).name? = some text := by
  unfold wordLexeme
  split
  · rename_i kind found
    rw [ofKeyword?_eq_some found]
    rfl
  · rfl

theorem wordLexeme_eq_keyword {word : String} {kind : BlockKind} :
    wordLexeme word = .keyword kind ↔ BlockKind.ofKeyword? word = some kind := by
  unfold wordLexeme
  cases BlockKind.ofKeyword? word <;> simp

theorem wordLexeme_keyword (kind : BlockKind) : wordLexeme kind.keyword = .keyword kind :=
  wordLexeme_eq_keyword.2 (by cases kind <;> decide)

@[simp] theorem depthAfter_wordLexeme (depth : Nat) (text : String) :
    depthAfter depth (some (wordLexeme text)) = depth := by
  unfold wordLexeme
  split <;> rfl

theorem IsName.front {name : List Char} (isName : IsName name) (depth : Nat) {rest : List Char}
    (ends : rest.head?.any isWordChar = false) :
    Front depth name (some (wordLexeme (String.ofList name))) rest := by
  obtain ⟨c, inner, rfl, starts, noDigit, all⟩ := isName
  exact .word starts noDigit all ends

theorem IsName.wordChars {name : List Char} (isName : IsName name) :
    ∀ c ∈ name, isWordChar c = true := by
  obtain ⟨c, inner, rfl, starts, -, all⟩ := isName
  intro d isIn
  rcases List.mem_cons.1 isIn with rfl | isIn
  · exact isWordChar_of_isWordStart starts
  · exact List.all_eq_true.1 all d isIn

theorem IsName.ne_nil {name : List Char} (isName : IsName name) : name ≠ [] := by
  obtain ⟨c, inner, rfl, -⟩ := isName
  exact List.cons_ne_nil _ _

theorem IsName.noFeed {name : List Char} (isName : IsName name) : '\n' ∉ name := by
  intro isIn
  have word := isName.wordChars _ isIn
  exact absurd word (by decide)

theorem isBlank_of_isRareLineEnd {c : Char} (rare : isRareLineEnd c = true) : isBlank c = true := by
  simp only [isRareLineEnd, Bool.or_eq_true, beq_iff_eq] at rare
  rcases rare with ((((((rfl | rfl) | rfl) | rfl) | rfl) | rfl) | rfl) | rfl <;> decide

theorem IsName.onLine {name : List Char} (isName : IsName name) : ∀ c ∈ name, OnLine c := by
  intro c isIn
  have word := isName.wordChars c isIn
  refine ⟨?_, ?_, ?_⟩
  · rintro rfl
    exact absurd word (by decide)
  · rintro rfl
    exact absurd word (by decide)
  · rw [Bool.eq_false_iff]
    intro rare
    rw [isWordChar_of_isBlank (isBlank_of_isRareLineEnd rare)] at word
    cases word

/-- The name of a lexeme is one that the lexer reads. -/
theorem Front.isName {depth : Nat} {chars rest : List Char} {lexeme : Lexeme} {name : String}
    (front : Front depth chars (some lexeme) rest) (named : lexeme.name? = some name) :
    IsName name.toList := by
  obtain ⟨same, -⟩ := front.name named
  rw [← same]
  generalize shape : some lexeme = found at front
  cases front with
  | word starts noDigit all _ => exact ⟨_, _, rfl, starts, noDigit, all⟩
  | feed =>
      unfold feedLexeme at shape
      split at shape <;> cases shape
      cases named
  | _ => cases shape <;> cases named

/-- A name is the lexeme that its word is looked up for. -/
theorem Front.eq_wordLexeme {depth : Nat} {chars rest : List Char} {lexeme : Lexeme} {word : String}
    (front : Front depth chars (some lexeme) rest) (named : lexeme.name? = some word) :
    lexeme = wordLexeme word := by
  obtain ⟨rfl, -, -, ends⟩ := front.name named
  have same := (front.unique ((front.isName named).front depth ends) rfl).2.1
  rw [String.ofList_toList] at same
  exact Option.some.inj same

/-! ## Segments at the front -/

/-- The first segment of a text can be taken off and put on. -/
theorem Segmented.front_iff {depth : Nat} {mark : Mark} {chars rest : List Char}
    {lexeme : Option Lexeme} {segments : List Segment} (front : Front depth chars lexeme rest) :
    Segmented depth mark (chars ++ rest) segments ↔
      ∃ others, segments = ⟨mark, chars, lexeme⟩ :: others ∧
        Segmented (depthAfter depth lexeme) (mark.behind chars) rest others := by
  constructor
  · intro segmented
    generalize shape : chars ++ rest = text at segmented
    cases segmented with
    | done =>
        obtain ⟨c, inner, rfl⟩ := front.cons
        cases shape
    | cons front' others =>
        obtain ⟨rfl, rfl, rfl⟩ := front.unique front' shape
        exact ⟨_, rfl, others⟩
  · rintro ⟨others, rfl, segmented⟩
    exact .cons front segmented

def gapSegments (mark : Mark) : List Char → List Segment
  | [] => []
  | c :: gap => ⟨mark, [c], none⟩ :: gapSegments (mark.after c) gap

@[simp] theorem tokensOf_gapSegments (mark : Mark) (gap : List Char) :
    tokensOf (gapSegments mark gap) = [] := by
  induction gap generalizing mark with
  | nil => rfl
  | cons c gap ih => exact ih _

theorem Segmented.gap_iff {depth : Nat} {mark : Mark} {gap rest : List Char}
    {segments : List Segment} (blank : ∀ c ∈ gap, IsGapChar c) :
    Segmented depth mark (gap ++ rest) segments ↔
      ∃ others, segments = gapSegments mark gap ++ others ∧
        Segmented depth (mark.behind gap) rest others := by
  induction gap generalizing mark segments with
  | nil => simp [gapSegments]
  | cons c gap ih =>
      obtain ⟨here, blank⟩ := List.forall_mem_cons.1 blank
      have front : Front depth [c] none (gap ++ rest) := .blank here
      rw [← List.singleton_append, List.append_assoc, Segmented.front_iff front]
      simp only [ih blank, gapSegments, depthAfter, Mark.behind_cons, Mark.behind_nil,
        List.cons_append]
      constructor
      · rintro ⟨_, rfl, others, rfl, segmented⟩
        exact ⟨others, rfl, segmented⟩
      · rintro ⟨others, rfl, segmented⟩
        exact ⟨_, rfl, others, rfl, segmented⟩

/-! ## Two names on a line -/

def pairSegments (mark : Mark) (indent name type : List Char) : List Segment :=
  gapSegments mark indent ++
    [⟨mark.behind indent, name, some (wordLexeme (String.ofList name))⟩,
      ⟨(mark.behind indent).behind name, [' '], none⟩,
      ⟨((mark.behind indent).behind name).behind [' '], type,
        some (wordLexeme (String.ofList type))⟩]

theorem tokensOf_pairSegments (mark : Mark) (indent name type : List Char) :
    tokensOf (pairSegments mark indent name type) =
      [⟨wordLexeme (String.ofList name), mark.behind indent⟩,
        ⟨wordLexeme (String.ofList type), ((mark.behind indent).behind name).behind [' ']⟩] := by
  simp [pairSegments]

/-- **Two names on a line** are two tokens, whatever follows them. -/
theorem Segmented.pair_iff {depth : Nat} {mark : Mark} {indent name type rest : List Char}
    {segments : List Segment} (blank : ∀ c ∈ indent, IsGapChar c) (isName : IsName name)
    (isType : IsName type) (ends : rest.head?.any isWordChar = false) :
    Segmented depth mark (indent ++ (name ++ ([' '] ++ (type ++ rest)))) segments ↔
      ∃ others, segments = pairSegments mark indent name type ++ others ∧
        Segmented depth ((((mark.behind indent).behind name).behind [' ']).behind type) rest
          others := by
  have first : Front depth name (some (wordLexeme (String.ofList name)))
      ([' '] ++ (type ++ rest)) := isName.front depth rfl
  have second : Front depth [' '] none (type ++ rest) := .blank (.inl rfl)
  have third := isType.front depth ends
  rw [Segmented.gap_iff blank]
  constructor
  · rintro ⟨_, rfl, behindIndent⟩
    obtain ⟨_, rfl, behindName⟩ := (Segmented.front_iff first).1 behindIndent
    rw [depthAfter_wordLexeme] at behindName
    obtain ⟨_, rfl, behindGap⟩ := (Segmented.front_iff second).1 behindName
    obtain ⟨others, rfl, segmented⟩ := (Segmented.front_iff third).1 behindGap
    rw [depthAfter_wordLexeme] at segmented
    exact ⟨others, by simp [pairSegments], segmented⟩
  · rintro ⟨others, rfl, segmented⟩
    have typed := Segmented.cons third ((depthAfter_wordLexeme depth _).symm ▸ segmented)
    have named := Segmented.cons first
      ((depthAfter_wordLexeme depth _).symm ▸ Segmented.cons second typed)
    exact ⟨_, by simp [pairSegments], named⟩

/-! ## Behind a line feed -/

/-- Segments that end in a line feed stand above what follows. -/
theorem Segmented.line_lt {depth : Nat} {mark : Mark} {text : List Char} {segments : List Segment}
    (segmented : Segmented depth mark text segments) (ends : EndsInFeed text) :
    ∀ segment ∈ segments, segment.mark.line < (mark.behind text).line := by
  induction segmented with
  | done => simp
  | @cons depth mark chars rest lexeme segments front others ih =>
      intro segment isIn
      rcases List.mem_cons.1 isIn with rfl | isIn
      · have nonempty : chars ++ rest ≠ [] := by
          obtain ⟨c, inner, rfl⟩ := front.cons
          simp
        rw [Mark.line_behind]
        have feeds := List.count_pos_iff.2 (ends.mem nonempty)
        simp only
        omega
      · have nonempty : rest ≠ [] := by
          rintro rfl
          rw [others.unique .done] at isIn
          cases isIn
        rw [Mark.behind_append]
        exact ih (ends.of_append nonempty) segment isIn

/-- A text can be cut behind a line feed, if that is a segment of its own. -/
theorem Segmented.cut_feed {depth : Nat} {mark : Mark} {front rest : List Char}
    {segments : List Segment} (segmented : Segmented depth mark (front ++ rest) segments)
    (alone : FeedsAlone segments) (ends : EndsInFeed front) :
    ∃ before others, segments = before ++ others ∧ Segmented depth mark front before ∧
      Segmented (depthBehind depth (tokensOf before)) (mark.behind front) rest others := by
  generalize shape : front ++ rest = text at segmented
  induction segmented generalizing front with
  | done =>
      obtain ⟨rfl, rfl⟩ := List.append_eq_nil_iff.1 shape
      exact ⟨[], [], rfl, .done, .done⟩
  | @cons depth mark chars behind lexeme segments here others ih =>
      by_cases empty : front = []
      · subst empty
        rw [List.nil_append] at shape
        subst shape
        exact ⟨[], _, rfl, .done, .cons here others⟩
      rcases List.append_eq_append_iff.1 shape with ⟨more, rfl, rfl⟩ | ⟨more, rfl, rfl⟩
      · have alone' := alone ⟨mark, front ++ more, lexeme⟩ (by simp)
          (List.mem_append_left _ (ends.mem empty))
        obtain ⟨rfl, rfl⟩ : front = ['\n'] ∧ more = [] := by
          rcases List.append_eq_singleton_iff.1 alone' with ⟨none, -⟩ | known
          · exact absurd none empty
          · exact known
        have single : Segmented depth mark (['\n'] ++ []) [⟨mark, ['\n'], lexeme⟩] :=
          .cons (here.retail (.inr (.inl rfl))) .done
        refine ⟨_, _, rfl, single, ?_⟩
        rw [tokensOf_cons, tokensOf_nil, List.append_nil, depthBehind_token?]
        exact others
      · have ends' : EndsInFeed more := by
          by_cases none : more = []
          · rw [none]
            nofun
          · exact ends.of_append none
        obtain ⟨before, others', rfl, cut, onward⟩ :=
          ih (fun s isIn => alone s (by simp [isIn])) ends' rfl
        have kept : Front depth chars lexeme more := by
          apply here.retail
          cases more with
          | nil => exact .inr (.inl rfl)
          | cons d more => exact .inl rfl
        refine ⟨_, others', rfl, .cons kept cut, ?_⟩
        rw [tokensOf_cons, depthBehind_append, depthBehind_token?, Mark.behind_append]
        exact onward

/-- Behind a line feed, a text can go on in any way. -/
theorem Segmented.append_feed {depth : Nat} {mark : Mark} {front rest : List Char}
    {before others : List Segment} (segmented : Segmented depth mark front before)
    (alone : FeedsAlone before) (ends : EndsInFeed front)
    (onward : Segmented (depthBehind depth (tokensOf before)) (mark.behind front) rest others) :
    Segmented depth mark (front ++ rest) (before ++ others) := by
  induction segmented with
  | done => exact onward
  | @cons depth mark chars behind lexeme segments here _ ih =>
      rw [tokensOf_cons, depthBehind_append, depthBehind_token?, Mark.behind_append] at onward
      rw [List.append_assoc, List.cons_append]
      have alone' : FeedsAlone segments := fun s isIn => alone s (by simp [isIn])
      cases behind with
      | nil =>
          -- the last segment is the line feed, which nothing prolongs
          rw [List.append_nil] at ends
          obtain ⟨c, inner, rfl⟩ := here.cons
          have feed := alone ⟨mark, c :: inner, lexeme⟩ (by simp) (ends.mem (by simp))
          obtain ⟨rfl, rfl⟩ := List.cons.inj feed
          have isFeed : Front depth ['\n'] (feedLexeme depth) [] := .feed
          obtain rfl := (here.unique isFeed rfl).2.1
          exact .cons .feed (ih alone' nofun onward)
      | cons d behind =>
          exact .cons (here.retail (.inl rfl)) (ih alone' (ends.of_append (by simp)) onward)

/-! ## Up to the end of the line -/

theorem Text.StartsWithLineEnd.noWord {text : List Char} (starts : StartsWithLineEnd text) :
    text.head?.any isWordChar = false := by
  have noFeed : isWordChar '\n' = false := by decide
  have noReturn : isWordChar '\r' = false := by decide
  rcases starts with rfl | ⟨gap, rest, rfl | rfl, rfl⟩
  · rfl
  · exact noFeed
  · exact noReturn

/-- What follows a line end does not depend on where on the line that stands. -/
theorem Segmented.lineEnd_iff {depth : Nat} {mark : Mark} {gap rest : List Char}
    {segments : List Segment} (isGap : gap = [] ∨ gap = ['\r']) :
    Segmented depth mark (gap ++ '\n' :: rest) segments ↔
      ∃ others, segments = gapSegments mark gap ++
          ⟨mark.behind gap, ['\n'], feedLexeme depth⟩ :: others ∧
        Segmented depth ⟨mark.line + 1, 1⟩ rest others := by
  have blank : ∀ c ∈ gap, IsGapChar c := by
    rcases isGap with rfl | rfl
    · exact List.forall_mem_nil _
    · exact List.forall_mem_singleton.2 (.inr (.inr rfl))
  have feed : Front depth ['\n'] (feedLexeme depth) rest := .feed
  have kept : depthAfter depth (feedLexeme depth) = depth := by
    unfold feedLexeme
    split <;> rfl
  have line : (mark.behind gap).behind ['\n'] = ⟨mark.line + 1, 1⟩ := by
    rw [← Mark.line_behind_of_noFeed (IsGapChar.noFeed blank) mark]
    rfl
  rw [Segmented.gap_iff blank]
  constructor
  · rintro ⟨_, rfl, behindGap⟩
    obtain ⟨others, rfl, segmented⟩ := (Segmented.front_iff feed).1 behindGap
    rw [kept, line] at segmented
    exact ⟨others, rfl, segmented⟩
  · rintro ⟨others, rfl, segmented⟩
    refine ⟨_, rfl, (Segmented.front_iff feed).2 ⟨others, rfl, ?_⟩⟩
    rw [kept, line]
    exact segmented

/-- Of what starts with a line end, only that can be a token on the first line. -/
theorem Segmented.newline_of_line {depth : Nat} {mark : Mark} {text : List Char}
    {segments : List Segment} (segmented : Segmented depth mark text segments)
    (starts : StartsWithLineEnd text) :
    ∀ t ∈ tokensOf segments, t.mark.line = mark.line → t.lexeme = .newline := by
  rcases starts with rfl | ⟨gap, rest, isGap, rfl⟩
  · rw [segmented.unique .done]
    simp
  · obtain ⟨others, rfl, further⟩ := (Segmented.lineEnd_iff isGap).1 segmented
    intro t isIn here
    rw [tokensOf_append, tokensOf_gapSegments, List.nil_append, tokensOf_cons,
      List.mem_append] at isIn
    rcases isIn with isIn | isIn
    · by_cases flat : depth = 0
      · simp only [Segment.token?, feedLexeme, if_pos flat] at isIn
        obtain rfl : t = _ := by simpa using isIn
        rfl
      · simp [Segment.token?, feedLexeme, flat] at isIn
    · obtain ⟨segment, known, -, same⟩ := token_mem_iff.1 isIn
      have below : mark.line + 1 ≤ segment.mark.line := further.line_le segment known
      rw [same] at below
      omega

/-- Of what starts with a line end, only that moves along a line. -/
theorem Segmented.slide {mark other : Mark} {text : List Char} {segments : List Segment}
    (segmented : Segmented 0 mark text segments) (starts : StartsWithLineEnd text)
    (sameLine : other.line = mark.line) :
    ∃ moved, Segmented 0 other text moved ∧
      (tokensOf segments = [] ∧ tokensOf moved = [] ∨
        ∃ place place' others, tokensOf segments = ⟨.newline, place⟩ :: others ∧
          tokensOf moved = ⟨.newline, place'⟩ :: others) := by
  rcases starts with rfl | ⟨gap, rest, isGap, rfl⟩
  · rw [segmented.unique .done]
    exact ⟨[], .done, .inl ⟨rfl, rfl⟩⟩
  · obtain ⟨others, rfl, further⟩ := (Segmented.lineEnd_iff isGap).1 segmented
    rw [← sameLine] at further
    refine ⟨_, (Segmented.lineEnd_iff isGap).2 ⟨others, rfl, further⟩, .inr ⟨mark.behind gap,
      other.behind gap, tokensOf others, ?_, ?_⟩⟩
    · simp [feedLexeme]
    · simp [feedLexeme]

end SchemaAssist
