/-
# SchemaAssist.Proofs.Text.Lines — the two ways to count lines agree

An editor ends lines at more characters than a schema does.  Where a text has none
of the rarer line ends and no carriage return but in front of a line feed
(`PlainLineEnds`), both count alike: the line of an editor is the line between line
feeds, but for one carriage return at its end (`feedLine_eq_editorLine`).
-/
import SchemaAssist.Document
import Mathlib.Data.Bool.AllAny
import Mathlib.Data.List.Basic
import Mathlib.Data.List.Chain
import Mathlib.Tactic.Common

namespace SchemaAssist.Text

set_option autoImplicit false

/-- The only line ends of the text are line feeds and pairs of a carriage return and
a line feed. -/
structure PlainLineEnds (text : List Char) : Prop where
  noRare : ∀ c ∈ text, isRareLineEnd c = false
  returns : ∀ front back, text = front ++ '\r' :: back → back.head? = some '\n'

theorem PlainLineEnds.of_append (front : List Char) {back : List Char}
    (plain : PlainLineEnds (front ++ back)) : PlainLineEnds back where
  noRare c isIn := plain.noRare c (by simp [isIn])
  returns before behind shape :=
    plain.returns (front ++ before) behind (by rw [shape, List.append_assoc])

theorem PlainLineEnds.of_all {text : List Char}
    (all : text.all (fun c => !isRareLineEnd c && c != '\r') = true) : PlainLineEnds text where
  noRare c isIn := by
    have known := List.all_eq_true.1 all c isIn
    rw [Bool.and_eq_true, Bool.not_eq_true'] at known
    exact known.1
  returns front back shape := by
    have known := List.all_eq_true.1 all '\r' (by rw [shape]; simp)
    simp at known

/-- Pairs can be looked for two characters at a time, up to the end of the text. -/
theorem PlainLineEnds.of_isChain {text : List Char}
    (noRare : text.all (fun c => !isRareLineEnd c) = true)
    (pairs : (text ++ [' ']).IsChain fun c d => c = '\r' → d = '\n') : PlainLineEnds text where
  noRare c isIn := by simpa using List.all_eq_true.1 noRare c isIn
  returns front back shape := by
    rw [shape, List.append_assoc] at pairs
    cases back with
    | nil => exact absurd ((List.isChain_append_cons_cons.1 pairs).2.1 rfl) (by decide)
    | cons d back => exact congrArg some ((List.isChain_append_cons_cons.1 pairs).2.1 rfl)

/-! ## Lines between line feeds -/

/-- The line of that number between line feeds, or an empty one. -/
def feedLine (text : List Char) (number : Nat) : List Char := (feedLines text).getD number []

theorem feedLine_nil (number : Nat) : feedLine [] number = [] := by
  cases number <;> rfl

@[simp] theorem feedLine_feed_zero (rest : List Char) : feedLine ('\n' :: rest) 0 = [] := rfl

@[simp] theorem feedLine_feed_succ (rest : List Char) (number : Nat) :
    feedLine ('\n' :: rest) (number + 1) = feedLine rest number := rfl

theorem splitWhere_ne_nil (cut : Char → Bool) (text : List Char) : splitWhere cut text ≠ [] := by
  induction text with
  | nil => simp [splitWhere]
  | cons c rest ih =>
      rw [splitWhere]
      split
      · simp
      · simpa [List.modifyHead_eq_nil_iff] using ih

theorem splitWhere_of_none {cut : Char → Bool} {word : List Char}
    (apart : ∀ c ∈ word, cut c = false) : splitWhere cut word = [word] := by
  induction word with
  | nil => rfl
  | cons c word ih =>
      obtain ⟨here, apart⟩ := List.forall_mem_cons.1 apart
      rw [splitWhere, if_neg (by simp [here]), ih apart]
      rfl

/-- Splitting at a character that cuts splits what stands on either side of it. -/
theorem splitWhere_append {cut : Char → Bool} {c : Char} (isCut : cut c = true)
    (front rest : List Char) :
    splitWhere cut (front ++ c :: rest) = splitWhere cut front ++ splitWhere cut rest := by
  induction front with
  | nil => simp [splitWhere, isCut]
  | cons d front ih =>
      rw [List.cons_append, splitWhere, splitWhere, ih]
      split
      · rfl
      · obtain ⟨piece, pieces, shape⟩ := List.exists_cons_of_ne_nil (splitWhere_ne_nil cut front)
        rw [shape]
        rfl

theorem splitWhere_append_cons {cut : Char → Bool} {word : List Char}
    (apart : ∀ c ∈ word, cut c = false) {c : Char} (isCut : cut c = true) (rest : List Char) :
    splitWhere cut (word ++ c :: rest) = word :: splitWhere cut rest := by
  rw [splitWhere_append isCut, splitWhere_of_none apart, List.singleton_append]

theorem feedLines_cons {c : Char} (noFeed : c ≠ '\n') (rest : List Char) :
    feedLines (c :: rest) = (feedLines rest).modifyHead (c :: ·) := by
  simp [feedLines, splitWhere, noFeed]

theorem length_feedLines (text : List Char) :
    (feedLines text).length = text.count '\n' + 1 := by
  induction text with
  | nil => rfl
  | cons c rest ih =>
      by_cases feed : c = '\n'
      · subst feed
        rw [List.count_cons_self, ← ih]
        rfl
      · rw [feedLines_cons feed, List.length_modifyHead, ih, List.count_cons_of_ne feed]

/-- Pieces without a cut are those of the text that they make up with a cut between them. -/
theorem splitWhere_intercalate {cut : Char → Bool} {c : Char} (isCut : cut c = true)
    {pieces : List (List Char)} (apart : ∀ piece ∈ pieces, ∀ d ∈ piece, cut d = false)
    (nonempty : pieces ≠ []) : splitWhere cut ([c].intercalate pieces) = pieces := by
  induction pieces with
  | nil => exact absurd rfl nonempty
  | cons piece pieces ih =>
      obtain ⟨here, apart⟩ := List.forall_mem_cons.1 apart
      by_cases last : pieces = []
      · subst last
        rw [List.intercalate_singleton]
        exact splitWhere_of_none here
      · rw [List.intercalate_cons_of_ne_nil last, List.append_assoc, List.singleton_append,
          splitWhere_append_cons here isCut, ih apart last]

/-- Lines without line feeds are the lines of the text that they make up. -/
theorem feedLines_intercalate {lines : List (List Char)} (noFeed : ∀ line ∈ lines, '\n' ∉ line)
    (nonempty : lines ≠ []) : feedLines (['\n'].intercalate lines) = lines := by
  refine splitWhere_intercalate (by decide) (fun line isIn c known => ?_) nonempty
  rw [beq_eq_false_iff_ne]
  rintro rfl
  exact noFeed line isIn known

@[simp] theorem feedLine_append_zero {chars : List Char} (noFeed : '\n' ∉ chars)
    (rest : List Char) : feedLine (chars ++ rest) 0 = chars ++ feedLine rest 0 := by
  induction chars with
  | nil => rfl
  | cons c chars ih =>
      obtain ⟨other, noFeed⟩ := List.ne_and_not_mem_of_not_mem_cons noFeed
      have onward := ih noFeed
      rw [List.cons_append, feedLine, feedLines_cons (Ne.symm other), List.cons_append, ← onward,
        feedLine]
      cases shape : feedLines (chars ++ rest) with
      | nil => exact absurd shape (splitWhere_ne_nil _ _)
      | cons line lines => rfl

@[simp] theorem feedLine_append_succ {chars : List Char} (noFeed : '\n' ∉ chars)
    (rest : List Char) (number : Nat) :
    feedLine (chars ++ rest) (number + 1) = feedLine rest (number + 1) := by
  induction chars with
  | nil => rfl
  | cons c chars ih =>
      obtain ⟨other, noFeed⟩ := List.ne_and_not_mem_of_not_mem_cons noFeed
      rw [← ih noFeed, List.cons_append, feedLine, feedLines_cons (Ne.symm other), feedLine]
      cases feedLines (chars ++ rest) <;> rfl

theorem not_mem_feedLine (text : List Char) (number : Nat) : '\n' ∉ feedLine text number := by
  induction text generalizing number with
  | nil => simp [feedLine_nil]
  | cons c rest ih =>
      by_cases feed : c = '\n'
      · subst feed
        cases number with
        | zero => simp
        | succ number => exact ih number
      · have noFeed : '\n' ∉ [c] := by simpa using Ne.symm feed
        rw [← List.singleton_append]
        cases number with
        | zero =>
            rw [feedLine_append_zero noFeed, List.mem_append, not_or]
            exact ⟨noFeed, ih 0⟩
        | succ number =>
            rw [feedLine_append_succ noFeed]
            exact ih (number + 1)

/-- A line starts as its text does, or is empty. -/
theorem head?_feedLine_zero (text : List Char) :
    (feedLine text 0).head? = text.head? ∨ (feedLine text 0).head? = none := by
  cases text with
  | nil => exact .inl rfl
  | cons c rest =>
      by_cases feed : c = '\n'
      · subst feed
        exact .inr rfl
      · have noFeed : '\n' ∉ [c] := by simpa using Ne.symm feed
        refine .inl ?_
        rw [← List.singleton_append, feedLine_append_zero noFeed]
        rfl

/-! ## Lines of an editor -/

def editorLine (text : List Char) (number : Nat) : List Char := (editorLines text).getD number []

theorem consLine_getD_zero (c : Char) (lines : List (List Char)) :
    (consLine c lines).getD 0 [] = c :: lines.getD 0 [] := by
  cases lines <;> rfl

theorem consLine_getD_succ (c : Char) (lines : List (List Char)) (number : Nat) :
    (consLine c lines).getD (number + 1) [] = lines.getD (number + 1) [] := by
  cases lines <;> rfl

/-- Where the line ends are plain, the line between line feeds is the line of an
editor, with a carriage return behind it or not. -/
theorem feedLine_eq_editorLine {text : List Char} (plain : PlainLineEnds text) (number : Nat) :
    feedLine text number = editorLine text number ∨
      feedLine text number = editorLine text number ++ ['\r'] := by
  unfold editorLine
  fun_induction editorLines text generalizing number with
  | case1 =>
      rw [feedLine_nil]
      cases number <;> exact .inl rfl
  | case2 rest ih =>
      cases number with
      | zero =>
          refine .inr ?_
          rw [← List.singleton_append, feedLine_append_zero (by decide)]
          rfl
      | succ number =>
          rw [← List.singleton_append, feedLine_append_succ (by decide)]
          have tail : PlainLineEnds rest := plain.of_append ['\r', '\n']
          exact ih tail number
  | case3 c rest noPair isEnd ih =>
      rcases isEnd with rfl | rfl
      · cases number with
        | zero => exact .inl rfl
        | succ number => exact ih (plain.of_append ['\n']) number
      · have feed := plain.returns [] rest rfl
        cases rest with
        | nil => cases feed
        | cons d rest =>
            obtain rfl : d = '\n' := by simpa using feed
            exact absurd rfl (noPair rest rfl)
  | case4 c rest noPair noEnd rare _ =>
      have common := plain.noRare c (by simp)
      rw [rare] at common
      cases common
  | case5 c rest noPair noEnd noRare ih =>
      have noFeed : '\n' ∉ [c] := fun isIn => noEnd (.inl (List.mem_singleton.1 isIn).symm)
      have tail : PlainLineEnds rest := plain.of_append [c]
      cases number with
      | zero =>
          rw [← List.singleton_append, feedLine_append_zero noFeed, consLine_getD_zero]
          refine (ih tail 0).imp ?_ ?_
          · intro same
            rw [same]
            rfl
          · intro same
            rw [same]
            rfl
      | succ number =>
          rw [← List.singleton_append, feedLine_append_succ noFeed, consLine_getD_succ]
          exact ih tail (number + 1)

/-! ## Lines one after another -/

/-- The text is empty or ends with a line feed. -/
def EndsInFeed (text : List Char) : Prop := ∀ c ∈ text.getLast?, c = '\n'

theorem EndsInFeed.of_append {front back : List Char} (ends : EndsInFeed (front ++ back))
    (nonempty : back ≠ []) : EndsInFeed back := by
  rwa [EndsInFeed, List.getLast?_append_of_ne_nil _ nonempty] at ends

theorem EndsInFeed.mem {text : List Char} (ends : EndsInFeed text) (nonempty : text ≠ []) :
    '\n' ∈ text := by
  have last := ends _ (List.getLast?_eq_some_getLast nonempty)
  rw [← last]
  exact List.getLast_mem nonempty

theorem EndsInFeed.tail {c : Char} {rest : List Char} (ends : EndsInFeed (c :: rest)) :
    EndsInFeed rest := by
  cases rest with
  | nil => nofun
  | cons d rest => exact @of_append [c] _ ends (List.cons_ne_nil _ _)

/-- A first character that is no line feed is not the last. -/
theorem EndsInFeed.tail_ne_nil {c : Char} {rest : List Char} (ends : EndsInFeed (c :: rest))
    (noFeed : c ≠ '\n') : rest ≠ [] := by
  rintro rfl
  exact noFeed (ends c rfl)

/-- Behind line feeds the lines are those of what follows. -/
theorem feedLine_behind {above : List Char} (ends : EndsInFeed above) (text : List Char) :
    feedLine (above ++ text) (above.count '\n') = feedLine text 0 := by
  induction above with
  | nil => rfl
  | cons c above ih =>
      by_cases feed : c = '\n'
      · subst feed
        rw [List.count_cons_self, List.cons_append, feedLine_feed_succ, ih ends.tail]
      · have isIn : '\n' ∈ above := ends.tail.mem (ends.tail_ne_nil feed)
        obtain ⟨number, same⟩ := Nat.exists_eq_add_one_of_ne_zero
          (Nat.pos_iff_ne_zero.1 (List.count_pos_iff.2 isIn))
        have noFeed : '\n' ∉ [c] := by simpa using Ne.symm feed
        rw [List.count_cons_of_ne feed, ← ih ends.tail, same, List.cons_append,
          ← List.singleton_append, feedLine_append_succ noFeed]

/-- The text is empty or starts with a line end. -/
def StartsWithLineEnd (text : List Char) : Prop :=
  text = [] ∨ ∃ gap rest, (gap = [] ∨ gap = ['\r']) ∧ text = gap ++ '\n' :: rest

def OnLine (c : Char) : Prop := c ≠ '\n' ∧ c ≠ '\r' ∧ isRareLineEnd c = false

instance (c : Char) : Decidable (OnLine c) :=
  inferInstanceAs (Decidable (c ≠ '\n' ∧ c ≠ '\r' ∧ isRareLineEnd c = false))

theorem consLine_ne_nil (c : Char) (lines : List (List Char)) : consLine c lines ≠ [] := by
  cases lines <;> simp [consLine]

theorem consLine_append {lines : List (List Char)} (nonempty : lines ≠ []) (c : Char)
    (others : List (List Char)) : consLine c (lines ++ others) = consLine c lines ++ others := by
  cases lines with
  | nil => exact absurd rfl nonempty
  | cons line lines => rfl

theorem editorLines_cons {c : Char} (onLine : OnLine c) (rest : List Char) :
    editorLines (c :: rest) = consLine c (editorLines rest) := by
  obtain ⟨noFeed, noReturn, common⟩ := onLine
  rw [editorLines]
  · rw [if_neg (by simp [noFeed, noReturn]), if_neg (by simp [common])]
  · exact fun _ isReturn => absurd isReturn noReturn

theorem editorLines_cons_lineEnd {gap : List Char} (isGap : gap = [] ∨ gap = ['\r'])
    (rest : List Char) : editorLines (gap ++ '\n' :: rest) = [] :: editorLines rest := by
  rcases isGap with rfl | rfl
  · rw [List.nil_append, editorLines]
    · exact if_pos (.inl rfl)
    · exact fun _ isReturn => absurd isReturn (by decide)
  · rw [List.singleton_append, editorLines]

theorem editorLines_ne_nil {c : Char} {rest : List Char} : editorLines (c :: rest) ≠ [] := by
  generalize shape : c :: rest = text
  fun_cases editorLines text with
  | case1 => cases shape
  | case5 => exact consLine_ne_nil _ _
  | _ => exact List.cons_ne_nil _ _

/-- No line holds a line feed. -/
theorem not_mem_editorLines (text : List Char) : ∀ line ∈ editorLines text, '\n' ∉ line := by
  fun_induction editorLines text with
  | case1 => exact List.forall_mem_nil _
  | case2 rest ih => exact List.forall_mem_cons.2 ⟨List.not_mem_nil, ih⟩
  | case3 c rest _ _ ih => exact List.forall_mem_cons.2 ⟨List.not_mem_nil, ih⟩
  | case4 c rest _ noFeed _ ih =>
      refine List.forall_mem_cons.2 ⟨?_, ih⟩
      rw [not_or] at noFeed
      simpa using Ne.symm noFeed.1
  | case5 c rest _ noFeed _ ih =>
      rw [not_or] at noFeed
      cases lines : editorLines rest with
      | nil => simpa [consLine] using Ne.symm noFeed.1
      | cons line others =>
          rw [lines] at ih
          obtain ⟨here, further⟩ := List.forall_mem_cons.1 ih
          refine List.forall_mem_cons.2 ⟨?_, further⟩
          rw [List.mem_cons, not_or]
          exact ⟨Ne.symm noFeed.1, here⟩

/-- The text in front is empty or ends with a line end, which the rest does not prolong. -/
def EndsLine (front rest : List Char) : Prop :=
  ∀ c ∈ front.getLast?, c = '\n' ∨ isRareLineEnd c = true ∨ c = '\r' ∧ rest.head? ≠ some '\n'

theorem EndsInFeed.endsLine {front : List Char} (ends : EndsInFeed front) (rest : List Char) :
    EndsLine front rest :=
  fun c isLast => .inl (ends c isLast)

theorem EndsLine.tail {c : Char} {front rest : List Char} (ends : EndsLine (c :: front) rest) :
    EndsLine front rest := by
  cases front with
  | nil => nofun
  | cons d front =>
      intro e isLast
      exact ends e (by rwa [List.getLast?_cons_cons])

/-- Behind a line end, an editor counts on as if the text started there. -/
theorem editorLines_append {front rest : List Char} (ends : EndsLine front rest) :
    editorLines (front ++ rest) = editorLines front ++ editorLines rest := by
  fun_induction editorLines front with
  | case1 => rfl
  | case2 front ih =>
      rw [List.cons_append, List.cons_append, editorLines, ih ends.tail.tail]
      rfl
  | case3 c front noPair isEnd ih =>
      rw [List.cons_append, editorLines, if_pos isEnd, ih ends.tail]
      · rfl
      · rintro back rfl shape
        cases front with
        | nil =>
            rcases ends '\r' rfl with feed | rare | ⟨-, noFeed⟩
            · exact absurd feed (by decide)
            · exact absurd rare (by decide)
            · exact noFeed (congrArg List.head? shape)
        | cons d inner =>
            obtain ⟨rfl, -⟩ := List.cons.inj shape
            exact noPair inner rfl rfl
  | case4 c front noPair noEnd rare ih =>
      rw [List.cons_append, editorLines, if_neg noEnd, if_pos rare, ih ends.tail]
      · rfl
      · exact fun _ isReturn => absurd (.inr isReturn) noEnd
  | case5 c front noPair noEnd noRare ih =>
      cases front with
      | nil =>
          rcases ends c rfl with feed | rare | ⟨isReturn, -⟩
          · exact absurd (.inl feed) noEnd
          · exact absurd rare noRare
          · exact absurd (.inr isReturn) noEnd
      | cons d inner =>
          rw [List.cons_append, editorLines, if_neg noEnd, if_neg noRare, ih ends.tail,
            consLine_append editorLines_ne_nil]
          exact fun _ isReturn => absurd (.inr isReturn) noEnd

/-- An editor counts plain line ends as a schema does. -/
theorem length_editorLines {front rest : List Char} (plain : PlainLineEnds (front ++ rest))
    (ends : EndsInFeed front) : (editorLines front).length = front.count '\n' := by
  fun_induction editorLines front with
  | case1 => rfl
  | case2 front ih =>
      have behind : PlainLineEnds (front ++ rest) := plain.of_append ['\r', '\n']
      rw [List.length_cons, ih behind ends.tail.tail]
      simp
  | case3 c front noPair isEnd ih =>
      have behind : PlainLineEnds (front ++ rest) := plain.of_append [c]
      rcases isEnd with rfl | rfl
      · rw [List.length_cons, ih behind ends.tail, List.count_cons_self]
      · obtain ⟨d, inner, rfl⟩ := List.exists_cons_of_ne_nil (ends.tail_ne_nil (by decide))
        obtain rfl : d = '\n' := by simpa using plain.returns [] _ rfl
        exact absurd rfl (noPair inner rfl)
  | case4 c front noPair noEnd rare _ =>
      have common := plain.noRare c (by simp)
      rw [rare] at common
      cases common
  | case5 c front noPair noEnd noRare ih =>
      have behind : PlainLineEnds (front ++ rest) := plain.of_append [c]
      have noFeed : c ≠ '\n' := fun isFeed => noEnd (.inl isFeed)
      rw [List.count_cons_of_ne noFeed, ← ih behind ends.tail]
      cases shape : editorLines front with
      | nil =>
          obtain ⟨d, inner, rfl⟩ := List.exists_cons_of_ne_nil (ends.tail_ne_nil noFeed)
          exact absurd shape editorLines_ne_nil
      | cons line lines => rfl

/-- A line in front of a line end, or of the end of the text, is the first line. -/
theorem editorLines_line {line after : List Char} (nonempty : line ≠ [])
    (onLine : ∀ c ∈ line, OnLine c) (starts : StartsWithLineEnd after) :
    editorLines (line ++ after) = line :: (editorLines after).tail := by
  induction line with
  | nil => exact absurd rfl nonempty
  | cons c line ih =>
      obtain ⟨here, onLine⟩ := List.forall_mem_cons.1 onLine
      rw [List.cons_append, editorLines_cons here]
      cases line with
      | nil =>
          rcases starts with rfl | ⟨gap, rest, isGap, rfl⟩
          · rfl
          · rw [List.nil_append, editorLines_cons_lineEnd isGap]
            rfl
      | cons d line =>
          rw [ih (List.cons_ne_nil _ _) onLine]
          rfl

/-- A text is the lines above its last line feed, and what follows. -/
theorem exists_lastLine (text : List Char) :
    ∃ above line, text = above ++ line ∧ EndsInFeed above ∧ '\n' ∉ line := by
  induction text with
  | nil => exact ⟨[], [], rfl, nofun, by simp⟩
  | cons c rest ih =>
      obtain ⟨above, line, rfl, ends, noFeed⟩ := ih
      by_cases empty : above = []
      · subst empty
        by_cases feed : c = '\n'
        · subst feed
          exact ⟨['\n'], line, rfl, fun d isLast => (Option.some.inj isLast).symm, noFeed⟩
        · exact ⟨[], c :: line, rfl, nofun,
            List.not_mem_cons_of_ne_of_not_mem (Ne.symm feed) noFeed⟩
      · refine ⟨c :: above, line, rfl, fun d isLast => ends d ?_, noFeed⟩
        rwa [← List.singleton_append, List.getLast?_append_of_ne_nil _ empty] at isLast

/-- Between plain line ends, what stands between two line feeds is a line, but for a carriage
return at its end. -/
theorem PlainLineEnds.onLine {above line after : List Char}
    (plain : PlainLineEnds (above ++ (line ++ after))) (noFeed : '\n' ∉ line)
    (noReturn : line.getLast? ≠ some '\r') : ∀ c ∈ line, OnLine c := by
  intro c isIn
  refine ⟨fun feed => noFeed (feed ▸ isIn), ?_, plain.noRare c (by simp [isIn])⟩
  rintro rfl
  obtain ⟨front, back, rfl⟩ := List.append_of_mem isIn
  have next := plain.returns (above ++ front) (back ++ after) (by simp)
  cases back with
  | nil => simp at noReturn
  | cons d back =>
      obtain rfl : d = '\n' := by simpa using next
      simp at noFeed

end SchemaAssist.Text

namespace SchemaAssist

theorem Document.line_natCast (document : Document) (number : Nat) :
    document.line (number : Int) = document.lines.getD number [] := by
  rw [Document.line, if_neg (by omega), Int.toNat_natCast]

/-- No line that is shown of a text holds a line feed. -/
theorem Document.noFeed_line (source : String) (number : Int) :
    '\n' ∉ (Document.ofText source).line number := by
  rw [Document.line]
  split
  · exact List.not_mem_nil
  · rw [List.getD_eq_getElem?_getD]
    cases here : (Document.ofText source).lines[number.toNat]? with
    | none => exact List.not_mem_nil
    | some line => exact Text.not_mem_editorLines source.toList line (List.mem_of_getElem? here)

end SchemaAssist
