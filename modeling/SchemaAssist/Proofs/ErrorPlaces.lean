/-
# SchemaAssist.Proofs.ErrorPlaces — errors point into their text

An error of the lexer stands where the lexer has come to, and an error of the parser at one of the
tokens or at the end of the text, so each stands behind a front of the text (`parseFrom_error`).
The place behind a front is on the line with the number of the line feeds before it, and as many
columns along that line as the front goes on behind the last of them (`Mark.exists_along`).

So the lines that a message shows exist and end with the line of the error.  There is always
something to show, since line feeds at the start of a text are skipped (`parseFrom_feed`) and an
empty first line has no error on it.
-/
import SchemaAssist.Proofs.EarliestError
import SchemaAssist.Proofs.EditorLines
import SchemaAssist.Proofs.Text.Blanks
import Mathlib.Data.List.GetD

namespace SchemaAssist

set_option autoImplicit false

open Text Grammar

/-! ## The line of a place -/

theorem Mark.column_behind_feeds {above : List Char} (ends : EndsInFeed above) :
    (Mark.start.behind above).column = 1 := by
  rcases List.eq_nil_or_concat above with rfl | ⟨front, c, rfl⟩
  · rfl
  · obtain rfl : c = '\n' := ends c (by simp)
    rw [List.concat_eq_append, Mark.behind_append, Mark.behind_cons, Mark.behind_nil, Mark.after,
      if_pos rfl]

/-- A place behind a front of the text is some characters along its line. -/
theorem Mark.exists_along (front rest : List Char) :
    ∃ before, feedLine (front ++ rest) (front.count '\n') = before ++ feedLine rest 0 ∧
      Mark.start.behind front = ⟨front.count '\n' + 1, before.length + 1⟩ := by
  obtain ⟨above, before, rfl, ends, noFeed⟩ := exists_lastLine front
  have count : (above ++ before).count '\n' = above.count '\n' := by
    rw [List.count_append, List.count_eq_zero_of_not_mem noFeed, Nat.add_zero]
  refine ⟨before, ?_, ?_⟩
  · rw [count, List.append_assoc, feedLine_behind ends, feedLine_append_zero noFeed]
  · have line : (Mark.start.behind above).line = above.count '\n' + 1 := by
      rw [Mark.line_behind, Nat.add_comm]
      rfl
    rw [count, Mark.behind_append, Mark.behind_of_noFeed noFeed, Mark.column_behind_feeds ends,
      line, Nat.add_comm before.length]

/-! ## Where errors stand -/

def Schema.parseFrom (mark : Mark) (text : List Char) : Except SyntaxError Schema :=
  match lexFrom 0 mark 0 text with
  | .error error => .error error
  | .ok stream => ofTokens stream

theorem parse_eq_parseFrom (text : String) :
    Schema.parse text = Schema.parseFrom .start text.toList := rfl

theorem lexFrom_error {depth : Nat} {mark : Mark} {text : List Char} {error : SyntaxError}
    (failed : lexFrom depth mark 0 text = .error error) :
    ∃ front, front <+: text ∧ error.mark = mark.behind front := by
  obtain ⟨front, under, c, tail, rfl, -, place⟩ := exists_fault_of_lexFrom failed
  exact ⟨front, List.prefix_append _ _, place⟩

/-- An error of the parser stands at one of the tokens, or where the text ends. -/
theorem ofTokens_error_mark {stream : TokenStream} {error : SyntaxError}
    (rejected : Schema.ofTokens stream = .error error) :
    error.mark = stream.stop ∨ ∃ t ∈ stream.tokens, error.mark = t.mark := by
  obtain ⟨why, index, refused, rfl⟩ := ofTokens_eq_error.1 rejected
  obtain ⟨read, rest, shape, rfl, reading⟩ := refusal?_eq_some.1 refused
  have behind : stream.tokens.drop read.length = rest := by rw [shape, List.drop_left]
  rw [behind]
  obtain ⟨front, split, -, cause⟩ := blocks_refused reading
  -- either the next token is to blame, or the keyword of a block that stays open
  obtain next | ⟨rfl, kind, name, opened, outer, inner, schema, rfl, rfl, -, isOpen⟩ := cause
  · have place : (why.error stream.stop rest).mark =
        (rest.head?.map (·.mark)).getD stream.stop := by
      obtain ⟨what, rfl⟩ | rfl := next <;> rfl
    rw [place]
    cases rest with
    | nil => exact .inl rfl
    | cons t rest => exact .inr ⟨t, by rw [shape]; simp, rfl⟩
  · cases isOpen with
    | @intro keyword token opening ends body members _ same =>
        exact .inr ⟨keyword, by rw [split]; simp, same.symm⟩

theorem parseFrom_error {mark : Mark} {text : List Char} {error : SyntaxError}
    (refused : Schema.parseFrom mark text = .error error) :
    ∃ front, front <+: text ∧ error.mark = mark.behind front := by
  unfold Schema.parseFrom at refused
  split at refused
  · rename_i failed
    cases refused
    exact lexFrom_error failed
  · rename_i stream lexed
    obtain ⟨segments, segmented, rfl⟩ := segmented_of_lexFrom lexed
    rcases ofTokens_error_mark refused with place | ⟨t, isIn, place⟩
    · exact ⟨text, List.prefix_rfl, place⟩
    · obtain ⟨front, chars, rest, -, rfl, at', -⟩ := segmented.exists_at isIn
      exact ⟨front, List.prefix_append _ _, place.trans at'⟩

theorem ofTokens_newline {token : Token} (isEnd : token.lexeme = .newline) (tokens : List Token)
    (stop : Mark) : Schema.ofTokens ⟨token :: tokens, stop⟩ = Schema.ofTokens ⟨tokens, stop⟩ := by
  have skipped : Reader.blocks (tokens.length + 2) (token :: tokens) =
      Reader.blocks (tokens.length + 2) tokens := by
    rw [Reader.blocks, Reader.blocks, Reader.lineEnds, if_pos isEnd]
  have same := skipped.trans (blocks_bound (by omega))
  simp only [Schema.ofTokens, List.length_cons, same]

/-- A line feed in front moves the errors of a text one line down. -/
theorem parseFrom_feed (mark : Mark) (rest : List Char) :
    Schema.parseFrom mark ('\n' :: rest) = Schema.parseFrom ⟨mark.line + 1, 1⟩ rest := by
  have lexed : lexFrom 0 mark 0 ('\n' :: rest) =
      (lexFrom 0 ⟨mark.line + 1, 1⟩ 0 rest).map fun stream =>
        { stream with tokens := ⟨.newline, mark⟩ :: stream.tokens } :=
    lexFrom_front (.feed) mark
  rw [Schema.parseFrom, lexed, Schema.parseFrom]
  cases lexFrom 0 ⟨mark.line + 1, 1⟩ 0 rest with
  | error error => rfl
  | ok stream => exact ofTokens_newline rfl stream.tokens stream.stop

/-- An error on the first line of a text has something on its line. -/
theorem feedLine_of_error {text : String} {error : SyntaxError}
    (refused : Schema.parse text = .error error) (first : error.mark.line = 1) :
    feedLine text.toList 0 ≠ [] := by
  rw [parse_eq_parseFrom] at refused
  generalize text.toList = chars at refused
  cases chars with
  | nil => cases refused
  | cons c rest =>
      by_cases feed : c = '\n'
      · -- the errors of the text are those of its rest, which starts on the second line
        subst feed
        rw [parseFrom_feed] at refused
        obtain ⟨front, -, place⟩ := parseFrom_error refused
        rw [place, Mark.line_behind] at first
        simp only [Mark.start] at first
        omega
      · have noFeed : '\n' ∉ [c] := by simpa using Ne.symm feed
        rw [← List.singleton_append, feedLine_append_zero noFeed]
        simp

/-! ## The excerpt -/

/-- The numbers of the lines that are shown with an error: its own and up to two before it. -/
def shownNumbers (line : Nat) : List Nat :=
  List.range' (max 1 (line - 2)) (line + 1 - max 1 (line - 2))

def numberedLine (text : String) (number : Nat) : String :=
  Place.margin number ++ String.ofList (feedLine text.toList (number - 1))

/-- The marker under a column of a numbered line: as many blanks as the line has characters in
front of that column, its number included. -/
def underline (mark : Mark) : String :=
  String.ofList (List.replicate ((Place.margin mark.line).length + (mark.column - 1)) ' ') ++ "^^^"

theorem slice_eq {text : List Char} {line : Nat} (inside : line ≤ text.count '\n' + 1) :
    slice (feedLines text) (excerptStart line - 1).toNat line =
      (shownNumbers line).map fun number => feedLine text (number - 1) := by
  have start : (excerptStart line - 1).toNat = max 1 (line - 2) - 1 := by
    rw [excerptStart]
    omega
  rw [← length_feedLines] at inside
  rw [start, slice, if_neg (by omega), Int.toNat_natCast]
  apply List.ext_getElem
  · simp only [shownNumbers, List.length_drop, List.length_take, List.length_map,
      List.length_range']
    omega
  · intro i left right
    simp only [List.length_drop, List.length_take] at left
    rw [List.getElem_drop, List.getElem_take, List.getElem_map]
    simp only [shownNumbers, List.getElem_range', Nat.one_mul]
    rw [feedLine, List.getD_eq_getElem _ _ (by omega)]
    congr 1
    omega

/-- The excerpt is these lines again, and is not empty unless all there is is an empty line. -/
theorem feedLines_excerptOf {text : String} {line : Nat} (positive : 1 ≤ line)
    (inside : line ≤ text.toList.count '\n' + 1) (filled : line = 1 → feedLine text.toList 0 ≠ []) :
    feedLines (excerptOf text line).toList =
        (shownNumbers line).map (fun number => feedLine text.toList (number - 1)) ∧
      (excerptOf text line).isEmpty = false := by
  have spelled : (excerptOf text line).toList = ['\n'].intercalate
      ((shownNumbers line).map fun number => feedLine text.toList (number - 1)) := by
    rw [excerptOf, slice_eq inside, String.toList_intercalate, List.map_map]
    simp [Function.comp_def]
  have split : feedLines (excerptOf text line).toList =
      (shownNumbers line).map fun number => feedLine text.toList (number - 1) := by
    rw [spelled]
    apply feedLines_intercalate
    · intro shown isIn
      obtain ⟨number, -, rfl⟩ := List.mem_map.1 isIn
      exact not_mem_feedLine _ _
    · rw [Ne, List.map_eq_nil_iff, shownNumbers, List.range'_eq_nil_iff]
      omega
  refine ⟨split, ?_⟩
  rw [Bool.eq_false_iff, Ne, String.isEmpty_iff]
  intro empty
  rw [empty] at split
  have one : (shownNumbers line).map (fun number => feedLine text.toList (number - 1)) = [[]] :=
    split.symm
  have length := congrArg List.length one
  simp only [shownNumbers, List.length_map, List.length_range', List.length_singleton] at length
  obtain rfl : line = 1 := by omega
  exact filled rfl (List.singleton_inj.1 one)

/-- The lines of an excerpt are numbered, and the marker stands under the last one. -/
theorem numbered_eq {place : Place} {source : Nat → String} {first count : Nat}
    (last : place.line = (first + count : Nat)) :
    place.numbered first ((List.range' first (count + 1)).map source) =
      (List.range' first (count + 1)).map (fun (number : Nat) =>
        Place.margin number ++ source number) ++ [place.marker] := by
  induction count generalizing first with
  | zero =>
      have here : (first : Int) = place.line := last.symm
      rw [List.range'_one, List.map_singleton, List.map_singleton, Place.numbered, if_pos here]
      rfl
  | succ count ih =>
      have above : ¬ (first : Int) = place.line := by omega
      have below : place.line = (first + 1 + count : Nat) := by omega
      have onward := ih below
      rw [List.range'_succ, List.map_cons, List.map_cons, List.cons_append, ← onward,
        Place.numbered, if_neg above]
      rfl

theorem intercalate_concat {lines : List String} (nonempty : lines ≠ []) (last : String) :
    "\n".intercalate (lines ++ [last]) = "\n".intercalate lines ++ "\n" ++ last := by
  rw [← String.toList_inj]
  simp only [String.toList_append, String.toList_intercalate, List.map_append, List.map_singleton]
  induction lines with
  | nil => exact absurd rfl nonempty
  | cons line lines ih =>
      by_cases single : lines = []
      · subst single
        rw [List.map_singleton, List.singleton_append,
          List.intercalate_cons_of_ne_nil (List.cons_ne_nil _ _), List.intercalate_singleton,
          List.intercalate_singleton]
      · have some : lines.map String.toList ≠ [] := by simpa using single
        rw [List.map_cons, List.cons_append, List.intercalate_cons_of_ne_nil (by simp),
          List.intercalate_cons_of_ne_nil some, ih single]
        simp only [List.append_assoc]

/-- An error inside a text is shown with the lines around it. -/
theorem diagnostic_text {text : String} {error : SyntaxError} (positive : 1 ≤ error.mark.line)
    (inside : error.mark.line ≤ text.toList.count '\n' + 1) (column : 1 ≤ error.mark.column)
    (filled : error.mark.line = 1 → feedLine text.toList 0 ≠ []) (file : String) :
    (error.diagnostic file (some text)).text = "\n".intercalate (
      [file ++ ":" ++ toString error.mark.line ++ ":" ++ toString error.mark.column] ++
      (shownNumbers error.mark.line).map (numberedLine text) ++ [underline error.mark] ++
      [error.fault.message]) := by
  obtain ⟨lines, notEmpty⟩ := feedLines_excerptOf positive inside filled
  let place : Place := ⟨file, error.mark.line, error.mark.column, excerptOf text error.mark.line⟩
  have whole : (error.diagnostic file (some text)).text =
      place.text ++ "\n" ++ error.fault.message := rfl
  have numbered : place.numbered (excerptStart error.mark.line)
      ((feedLines (excerptOf text error.mark.line).toList).map String.ofList) =
      (shownNumbers error.mark.line).map (numberedLine text) ++ [place.marker] := by
    have first : excerptStart error.mark.line = (max 1 (error.mark.line - 2) : Nat) := by
      rw [excerptStart]
      omega
    have count : error.mark.line + 1 - max 1 (error.mark.line - 2) =
        error.mark.line - max 1 (error.mark.line - 2) + 1 := by omega
    rw [lines, first, shownNumbers, count, List.map_map]
    refine numbered_eq ?_
    simp only [place]
    omega
  have marker : place.marker = underline error.mark := by
    have width : ((Place.margin error.mark.line).length + (error.mark.column : Int) - 1).toNat =
        (Place.margin error.mark.line).length + (error.mark.column - 1) := by omega
    rw [Place.marker, width, underline]
  rw [intercalate_concat (by simp), whole, ← marker, List.append_assoc, ← numbered]
  simp only [Place.text, place, notEmpty]
  rfl

/-- **Errors point into their text.**  The line and the column of an error exist, and it is shown
with its place, then the lines of the text up to its own, at most two before it, each behind its
number, then one marker under its column, then the message. -/
theorem parse_error_shown {text : String} {error : SyntaxError}
    (refused : Schema.parse text = .error error) (file : String) :
    1 ≤ error.mark.line ∧ error.mark.line ≤ text.toList.count '\n' + 1 ∧
      1 ≤ error.mark.column ∧
      error.mark.column ≤ (feedLine text.toList (error.mark.line - 1)).length + 1 ∧
      (error.diagnostic file (some text)).text = "\n".intercalate (
        [file ++ ":" ++ toString error.mark.line ++ ":" ++ toString error.mark.column] ++
        (shownNumbers error.mark.line).map (numberedLine text) ++ [underline error.mark] ++
        [error.fault.message]) := by
  obtain ⟨front, ⟨rest, shape⟩, place⟩ :=
    parseFrom_error ((parse_eq_parseFrom text).symm.trans refused)
  obtain ⟨before, along, same⟩ := Mark.exists_along front rest
  have number : error.mark.line = front.count '\n' + 1 := by rw [place, same]
  have width : error.mark.column = before.length + 1 := by rw [place, same]
  have count : front.count '\n' ≤ text.toList.count '\n' := by
    rw [← shape, List.count_append]
    omega
  have positive : 1 ≤ error.mark.line := by omega
  have inside : error.mark.line ≤ text.toList.count '\n' + 1 := by omega
  have column : 1 ≤ error.mark.column := by omega
  refine ⟨positive, inside, column, ?_, diagnostic_text positive inside column
    (feedLine_of_error refused) file⟩
  rw [number, Nat.add_sub_cancel, ← shape, along, List.length_append]
  omega

/-- A model with a comma behind its third field. -/
def commaSource : String := "model A \x7b\n  a Int\n  b Int\n  c Int ,\n\x7d"

theorem parse_error_shown_commaSource :
    Schema.parse commaSource = .error ⟨.unexpected (some (.punct .comma)), ⟨4, 9⟩⟩ ∧
      (SyntaxError.diagnostic ⟨.unexpected (some (.punct .comma)), ⟨4, 9⟩⟩ "a.prisma"
        (some commaSource)).text =
        "a.prisma:4:9\n   2 |   a Int\n   3 |   b Int\n   4 |   c Int ,\n" ++
        "               ^^^\nUnexpected ','" := by
  have refused : Schema.parse commaSource =
      .error ⟨.unexpected (some (.punct .comma)), ⟨4, 9⟩⟩ := by decide +kernel
  exact ⟨refused, (parse_error_shown refused "a.prisma").2.2.2.2.trans (by decide +kernel)⟩

end SchemaAssist
