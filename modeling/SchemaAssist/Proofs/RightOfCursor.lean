/-
# SchemaAssist.Proofs.RightOfCursor — text to the right of the cursor does not matter

Two documents that differ in nothing but the rest of the cursor's line (`AlikeUpTo`) look alike
to all that scans them, if that line bounds no block in either.  The search for the block passes
over the line (`AlikeUpTo.at?_eq`), the members are counted without it, it declares no type, and
what a cursor stands in is told from the text in front of it.  Only whether a line assigns a
provider is read off the whole line, but the equals sign in front of the cursor has settled that
already (`fieldValueItems_congr`).
-/
import SchemaAssist.Proofs.CompletionAgreement
import SchemaAssist.Proofs.Layout.Members

namespace SchemaAssist

set_option autoImplicit false

open Text Scan

/-! ## Documents -/

namespace Document

/-- The line is the last one of the document, or would be the next. -/
def EndsNear (document : Document) (line : Int) : Prop :=
  line ≤ document.lines.length ∧ document.lines.length ≤ line + 1

/-- The documents differ at most in what stands on the cursor's line to the right of the cursor.
At the end of a document that line may be missing in one of them: a line that is empty there is
none. -/
structure AlikeUpTo (first second : Document) (cursor : Cursor) : Prop where
  others : ∀ number, number ≠ cursor.line → first.line number = second.line number
  before : first.textBefore cursor = second.textBefore cursor
  size : first.lines.length = second.lines.length ∨
    first.EndsNear cursor.line ∧ second.EndsNear cursor.line

end Document

/-! ## Searching for boundaries -/

variable {lines others : List (List Char)}

theorem boundaryBefore?_congr
    (same : ∀ n, isBoundary (lines.getD n []) = isBoundary (others.getD n [])) (number : Nat) :
    boundaryBefore? lines number = boundaryBefore? others number := by
  ext start
  simp only [boundaryBefore?_eq_some, same]

theorem boundaryAfter_congr
    (same : ∀ n, isBoundary (lines.getD n []) = isBoundary (others.getD n [])) {start number : Nat}
    (le : start ≤ number) (size : max lines.length (number + 1) = max others.length (number + 1)) :
    boundaryAfter lines start number = boundaryAfter others start number := by
  obtain ⟨below, clear, ends⟩ := endsBody_boundaryAfter others le
  simp only [← same, ← size] at clear ends
  exact (boundaryAfter_eq_iff le).2 ⟨below, clear, ends⟩

/-! ## Finding the block -/

/-- A scanned block starts on a line of the document. -/
theorem ScannedBlock.exists_range {document : Document} {number : Int} {block : ScannedBlock}
    (found : at? document number = some block) :
    ∃ start stop : Nat, block.startLine = start ∧ block.endLine = stop ∧
      block.lines = document.lines ∧ start < document.lines.length := by
  obtain ⟨⟨start, stop⟩, -, ofRange⟩ := Option.bind_eq_some_iff.1 found
  obtain ⟨header, isHeader, rfl⟩ := Option.map_eq_some_iff.1 ofRange
  refine ⟨start, stop, rfl, rfl, rfl, lt_length_of_isBoundary ?_⟩
  rw [Document.line_natCast] at isHeader
  rw [isBoundary, isHeader]
  rfl

namespace Document.AlikeUpTo

variable {first second : Document} {cursor : Cursor} {line : Nat}

theorem getD (alike : first.AlikeUpTo second cursor) (here : cursor.line = line) {n : Nat}
    (other : n ≠ line) : first.lines.getD n [] = second.lines.getD n [] := by
  have same := alike.others n (by omega)
  rwa [line_natCast, line_natCast] at same

theorem isBoundary_eq (alike : first.AlikeUpTo second cursor) (here : cursor.line = line)
    (passes : isBoundary (first.line cursor.line) = false)
    (passes' : isBoundary (second.line cursor.line) = false) (n : Nat) :
    isBoundary (first.lines.getD n []) = isBoundary (second.lines.getD n []) := by
  by_cases own : n = line
  · rw [here, line_natCast] at passes passes'
    rw [own, passes, passes']
  · rw [alike.getD here own]

/-- **Scanning finds the same block**, with the lines of the other document. -/
theorem at?_eq (alike : first.AlikeUpTo second cursor)
    (passes : isBoundary (first.line cursor.line) = false)
    (passes' : isBoundary (second.line cursor.line) = false) :
    ScannedBlock.at? second cursor.line = (ScannedBlock.at? first cursor.line).map fun block =>
      { block with lines := second.lines } := by
  by_cases negative : cursor.line < 0
  · simp [ScannedBlock.at?, blockRange?, negative]
  obtain ⟨line, here⟩ : ∃ line : Nat, cursor.line = line := ⟨cursor.line.toNat, by omega⟩
  have same := alike.isBoundary_eq here passes passes'
  have size : max first.lines.length (line + 1) = max second.lines.length (line + 1) := by
    rcases alike.size with same | ⟨ends, ends'⟩
    · rw [same]
    · unfold EndsNear at ends ends'
      omega
  unfold ScannedBlock.at? blockRange?
  rw [here, if_neg (by omega), if_neg (by omega), Int.toNat_natCast,
    ← boundaryBefore?_congr same]
  cases nearest : boundaryBefore? first.lines line with
  | none => rfl
  | some start =>
      obtain ⟨above, -, -⟩ := boundaryBefore?_eq_some.1 nearest
      have header := alike.getD here (Nat.ne_of_lt above)
      simp only [← boundaryAfter_congr same (Nat.le_of_lt above) size, ← header]
      split
      · simp only [Option.bind_some, ScannedBlock.ofRange?, line_natCast, ← header,
          Option.map_map]
        rfl
      · rfl

/-- The block has the same members. -/
theorem agree (alike : first.AlikeUpTo second cursor) {block : ScannedBlock}
    (found : ScannedBlock.at? first cursor.line = some block)
    (found' : ScannedBlock.at? second cursor.line = some { block with lines := second.lines }) :
    (BlockView.scanned block).Agree (.scanned { block with lines := second.lines })
      cursor.line where
  kind := rfl
  startLine := rfl
  endLine := rfl
  members := by
    obtain ⟨start, stop, starts, ends, lines, inside⟩ := ScannedBlock.exists_range found
    obtain ⟨start', _, starts', -, -, inside'⟩ := ScannedBlock.exists_range found'
    obtain rfl : start' = start := by
      simp only [starts] at starts'
      omega
    simp only [BlockView.memberNames?, ScannedBlock.memberNames?, starts, ends, lines]
    rw [memberNames?_eq_walk inside, memberNames?_eq_walk inside']
    congr 1
    apply List.filterMap_congr
    intro n _
    by_cases own : (n : Int) = cursor.line
    · rw [own]
      simp
    · have same := alike.others n own
      rw [line_natCast, line_natCast] at same
      rw [same]

/-- No type is declared on a line that bounds no block. -/
theorem typeNames_eq (alike : first.AlikeUpTo second cursor)
    (passes : isBoundary (first.line cursor.line) = false)
    (passes' : isBoundary (second.line cursor.line) = false) (exclude : Option Int) :
    typeNames first exclude = typeNames second exclude := by
  have noType : ∀ line : List Char, isBoundary line = false → typeName? line = none := by
    intro line passes
    have noHeader : header? line = none := by
      rw [isBoundary, Bool.or_eq_false_iff] at passes
      simpa using passes.1
    rw [typeName?, noHeader]
  have bound := Nat.le_max_left first.lines.length second.lines.length
  have bound' := Nat.le_max_right first.lines.length second.lines.length
  rw [typeNames_eq_walk bound, typeNames_eq_walk bound']
  apply List.filterMap_congr
  intro n _
  congr 1
  by_cases own : (n : Int) = cursor.line
  · rw [← own, line_natCast] at passes passes'
    rw [noType _ passes, noType _ passes']
  · have same := alike.others n own
    rw [line_natCast, line_natCast] at same
    rw [same]

theorem atCursor_eq (alike : first.AlikeUpTo second cursor) (view : Option BlockView) :
    Context.atCursor first cursor view = Context.atCursor second cursor view := by
  simp only [Context.atCursor, alike.before]

end Document.AlikeUpTo

/-! ## What a line starts with -/

/-- Taking blanks off the end takes nothing off a word at the start. -/
theorem prefix_trim {word text : List Char} (noBlank : ∀ c ∈ word, isBlank c = false) :
    word <+: trim text ↔ word <+: trimStart text := by
  constructor
  · intro starts
    obtain ⟨tail, shape⟩ := trimEndWhere_prefix isBlank (trimStart text)
    rw [shape]
    exact starts.trans (List.prefix_append _ _)
  · rintro ⟨rest, shape⟩
    obtain rfl | ⟨front, c, rfl⟩ := List.eq_nil_or_concat' word
    · exact List.nil_prefix
    · have kept : trimEndWhere isBlank (front ++ c :: rest) =
          front ++ c :: trimEndWhere isBlank rest := trimEndWhere_append (noBlank c (by simp))
      have trimmed : trim text = front ++ c :: trimEndWhere isBlank rest := by
        show trimEndWhere isBlank (trimStart text) = _
        rw [← kept, ← shape]
        simp
      rw [trimmed]
      exact ⟨trimEndWhere isBlank rest, by simp⟩

/-- A text with a character that the word does not have decides whether the word stands at its
start. -/
theorem prefix_append_iff {word front : List Char} {c : Char} (isIn : c ∈ front)
    (notIn : c ∉ word) (rest : List Char) : word <+: front ++ rest ↔ word <+: front := by
  constructor
  · intro starts
    rcases List.prefix_or_prefix_of_prefix starts (List.prefix_append front rest) with
      inFront | longer
    · exact inFront
    · exact absurd (longer.subset isIn) notIn
  · exact fun starts => starts.trans (List.prefix_append _ _)

theorem trimStart_append_of_mem {front : List Char} {c : Char} (isIn : c ∈ front)
    (other : isBlank c = false) (rest : List Char) :
    trimStart (front ++ rest) = trimStart front ++ rest := by
  have nonempty : trimStart front ≠ [] := List.ne_nil_of_mem (mem_trimStart isIn other)
  rw [trimStart, List.dropWhile_append]
  exact if_neg fun empty => nonempty (List.isEmpty_iff.1 empty)

/-! ## Suggestions -/

namespace Completion

variable {first second : Document} {cursor : Cursor}

/-- What stands in front of an equals sign is not changed by what follows it. -/
theorem fieldValueItems_congr (alike : first.AlikeUpTo second cursor)
    (assigns : '=' ∈ first.textBefore cursor) (kind : Option BlockKind)
    (settings : CompletionSettings) :
    fieldValueItems kind first cursor settings = fieldValueItems kind second cursor settings := by
  have decided : ∀ document : Document, document.textBefore cursor = first.textBefore cursor →
      ((stripWord "provider".toList (trim (document.line cursor.line))).isSome = true ↔
        "provider".toList <+: trimStart (first.textBefore cursor)) := by
    intro document before
    have line : document.line cursor.line = first.textBefore cursor ++
        (document.line cursor.line).drop cursor.character.toNat := by
      rw [← before, Document.textBefore, List.take_append_drop]
    have noBlanks : "provider".toList.all (!isBlank ·) = true := by decide
    have noBlank : ∀ c ∈ "provider".toList, isBlank c = false := fun c isIn => by
      simpa using List.all_eq_true.1 noBlanks c isIn
    have noEquals : '=' ∉ "provider".toList := by simp
    rw [isSome_stripWord, prefix_trim noBlank, line,
      trimStart_append_of_mem assigns (by decide),
      prefix_append_iff (mem_trimStart assigns (by decide)) noEquals]
  have same : (stripWord "provider".toList (trim (first.line cursor.line))).isNone =
      (stripWord "provider".toList (trim (second.line cursor.line))).isNone := by
    rw [← Option.not_isSome, ← Option.not_isSome, Bool.not_inj_iff, Bool.eq_iff_iff,
      decided first rfl, decided second alike.before.symm]
  simp only [fieldValueItems, same, alike.before]

/-- The items of a context that does not depend on the text to the right of the cursor. -/
theorem itemsIn_congr (alike : first.AlikeUpTo second cursor)
    (passes : isBoundary (first.line cursor.line) = false)
    (passes' : isBoundary (second.line cursor.line) = false) {view other : BlockView}
    (agree : view.Agree other cursor.line) (settings : CompletionSettings) {context : Context}
    (here : Context.atCursor first cursor (some view) = context)
    (blind : context ∈ [.firstMember, .fieldType, .fieldValue, .nothing]) :
    itemsIn context first cursor none settings (some view) =
      itemsIn context second cursor none settings (some other) := by
  cases context with
  | firstMember =>
      have same := agree.firstMemberItems? (some other.kind) first second cursor none none
      simp only [itemsIn, agree.kind, same]
  | fieldType =>
      simp only [itemsIn, typeItems, Option.any_some, agree.isWellFormed, declaredTypes,
        Option.map_some, agree.startLine, alike.typeNames_eq passes passes']
  | fieldValue =>
      have assigns : '=' ∈ first.textBefore cursor := Context.fits_of_atCursor here
      simp only [itemsIn, agree.kind, fieldValueItems_congr alike assigns]
  | nothing => rfl
  | blockKind | attributeName | attributeArgument => simp at blind

end Completion

def BlockView.extent (view : BlockView) : BlockKind × String × Int × Int :=
  (view.kind, view.name, view.startLine, view.endLine)

/-- **Text to the right of the cursor does not matter** while scanning, as long as the cursor's
line bounds no block: the block and the context stay, and so do the suggestions at the start of
a line, for a type, for a value, and where there are none. -/
theorem items_eq_of_alikeUpTo {first second : Document} {cursor : Cursor}
    (alike : first.AlikeUpTo second cursor)
    (passes : isBoundary (first.line cursor.line) = false)
    (passes' : isBoundary (second.line cursor.line) = false) :
    (BlockView.find? first cursor.line none).map BlockView.extent =
        (BlockView.find? second cursor.line none).map BlockView.extent ∧
      Context.atCursor first cursor (BlockView.find? first cursor.line none) =
        Context.atCursor second cursor (BlockView.find? second cursor.line none) ∧
      ∀ settings, Context.atCursor first cursor (BlockView.find? first cursor.line none) ∈
          [.firstMember, .fieldType, .fieldValue, .nothing] →
        Completion.items first cursor none settings =
          Completion.items second cursor none settings := by
  have range : (cursor.line < 0 ∨ cursor.character < 0 ∨ first.lines.length < cursor.line) ↔
      (cursor.line < 0 ∨ cursor.character < 0 ∨ second.lines.length < cursor.line) := by
    rcases alike.size with same | ⟨⟨ends, -⟩, ends', -⟩
    · rw [same]
    · omega
  have located := alike.at?_eq passes passes'
  simp only [Completion.items, range, BlockView.find?, located]
  cases found : ScannedBlock.at? first cursor.line with
  | none =>
      refine ⟨rfl, alike.atCursor_eq none, fun settings blind => ?_⟩
      simp only [Option.map_none, ← alike.atCursor_eq none] at blind ⊢
      split
      · rfl
      · -- without a block, only block keywords are suggested
        generalize Context.atCursor first cursor none = context at blind ⊢
        cases context with
        | blockKind => simp at blind
        | _ => rfl
  | some block =>
      rw [found] at located
      have agree := alike.agree found located
      have context : Context.atCursor second cursor
          (some (.scanned { block with lines := second.lines })) =
            Context.atCursor first cursor (some (.scanned block)) := by
        rw [← alike.atCursor_eq, agree.atCursor]
      refine ⟨rfl, context.symm, fun settings blind => ?_⟩
      simp only [Option.map_some, context]
      split
      · rfl
      · exact Completion.itemsIn_congr alike passes passes' agree settings rfl blind

/-! ## Texts -/

/-- What is put in front of a text comes to stand on its first line.  A text with nothing in it has
no line. -/
theorem exists_editorLines_line {line : List Char} (onLine : ∀ c ∈ line, OnLine c)
    (below : List Char) :
    ∃ rows, editorLines (line ++ below) = rows ++ (editorLines below).tail ∧
      (rows = [line ++ (editorLines below).headD []] ∨
        rows = [] ∧ line ++ (editorLines below).headD [] = [] ∧ (editorLines below).tail = []) := by
  induction line with
  | nil =>
      cases shape : editorLines below with
      | nil => exact ⟨[], shape, .inr ⟨rfl, rfl, rfl⟩⟩
      | cons row tail => exact ⟨[row], shape, .inl rfl⟩
  | cons c line ih =>
      obtain ⟨here, onLine⟩ := List.forall_mem_cons.1 onLine
      obtain ⟨rows, shape, kinds⟩ := ih onLine
      refine ⟨[c :: (line ++ (editorLines below).headD [])], ?_, .inl rfl⟩
      rw [List.cons_append, editorLines_cons here, shape]
      rcases kinds with rfl | ⟨rfl, empty, noTail⟩
      · rfl
      · rw [noTail, empty]
        rfl

/-- The lines of a text are those above a line, the line, and those below it. -/
theorem Document.exists_rows {above line below : String}
    (ends : EndsLine above.toList (line ++ below).toList) (onLine : ∀ c ∈ line.toList, OnLine c) :
    ∃ rows, (Document.ofText (above ++ (line ++ below))).lines =
        editorLines above.toList ++ (rows ++ (editorLines below.toList).tail) ∧
      (rows = [line.toList ++ (editorLines below.toList).headD []] ∨
        rows = [] ∧ line.toList ++ (editorLines below.toList).headD [] = [] ∧
          (editorLines below.toList).tail = []) := by
  obtain ⟨rows, shape, kinds⟩ := exists_editorLines_line onLine below.toList
  refine ⟨rows, ?_, kinds⟩
  rw [Document.ofText, String.toList_append, editorLines_append ends, String.toList_append, shape]

/-- All lines but one are those of the document with that line empty. -/
theorem getD_append_rows {above rows tail : List (List Char)} {line : List Char}
    (shape : rows = [line] ∨ rows = [] ∧ line = [] ∧ tail = []) (n : Nat) :
    (above ++ (rows ++ tail)).getD n [] =
      if n = above.length then line else (above ++ [] :: tail).getD n [] := by
  rcases Nat.lt_trichotomy n above.length with before | rfl | behind
  · rw [if_neg (by omega), List.getD_append _ _ _ _ before, List.getD_append _ _ _ _ before]
  · rcases shape with rfl | ⟨rfl, rfl, rfl⟩ <;> simp
  · obtain ⟨further, rfl⟩ := Nat.exists_eq_add_of_lt behind
    have later : above.length ≤ above.length + further + 1 := by omega
    have index : above.length + further + 1 - above.length = further + 1 := by omega
    rw [if_neg (by omega), List.getD_append_right _ _ _ _ later,
      List.getD_append_right above _ _ _ later, index]
    rcases shape with rfl | ⟨rfl, rfl, rfl⟩ <;> rfl

/-- Texts that differ in the rest of one line only are shown as documents that do, whatever their
line ends are.  A carriage return above the line must not come to stand in front of a line feed. -/
theorem Document.AlikeUpTo.ofText {above front first second below : String}
    (ends : EndsLine above.toList ((front ++ first) ++ below).toList)
    (ends' : EndsLine above.toList ((front ++ second) ++ below).toList)
    (onLine : ∀ c ∈ (front ++ first).toList, OnLine c)
    (onLine' : ∀ c ∈ (front ++ second).toList, OnLine c) :
    AlikeUpTo (.ofText (above ++ ((front ++ first) ++ below)))
      (.ofText (above ++ ((front ++ second) ++ below)))
      ⟨(editorLines above.toList).length, front.length⟩ := by
  obtain ⟨rows, lines, kinds⟩ := exists_rows ends onLine
  obtain ⟨rows', lines', kinds'⟩ := exists_rows ends' onLine'
  refine ⟨fun number other => ?_, ?_, ?_⟩
  · by_cases negative : number < 0
    · rw [line, line, if_pos negative, if_pos negative]
    · obtain ⟨n, rfl⟩ : ∃ n : Nat, number = n := ⟨number.toNat, by omega⟩
      have apart : n ≠ (editorLines above.toList).length := fun same => other (congrArg _ same)
      rw [line_natCast, line_natCast, lines, lines', getD_append_rows kinds,
        getD_append_rows kinds', if_neg apart, if_neg apart]
  · rw [textBefore, textBefore, line_natCast, line_natCast, lines, lines', getD_append_rows kinds,
      getD_append_rows kinds', if_pos rfl, if_pos rfl, Int.toNat_natCast, String.toList_append,
      String.toList_append, List.append_assoc, List.append_assoc, ← String.length_toList,
      List.take_left, List.take_left]
  · rcases kinds with rfl | ⟨rfl, -, noTail⟩ <;> rcases kinds' with rfl | ⟨rfl, -, noTail⟩
    · exact .inl (by simp [lines, lines'])
    all_goals
      unfold EndsNear
      simp only [lines, lines', noTail, List.length_append, List.length_cons, List.length_nil]
      omega

def typedProvider (rest : String) : String :=
  "datasource db \x7b\n" ++ ((" provider = \"" ++ rest) ++ "\n url = \"\"\n\x7d")

theorem items_eq_of_alikeUpTo_typedProvider :
    (Document.ofText (typedProvider "")).AlikeUpTo
        (.ofText (typedProvider "x\" \x7d model M \x7b")) ⟨1, 13⟩ ∧
      isBoundary ((Document.ofText (typedProvider "")).line 1) = false ∧
      isBoundary ((Document.ofText (typedProvider "x\" \x7d model M \x7b")).line 1) = false ∧
      (BlockView.find? (.ofText (typedProvider "x\" \x7d model M \x7b")) 1 none).map
          BlockView.extent = some (.datasource, "db", 0, 3) ∧
      Context.atCursor (.ofText (typedProvider "x\" \x7d model M \x7b")) ⟨1, 13⟩
          (BlockView.find? (.ofText (typedProvider "x\" \x7d model M \x7b")) 1 none) =
        .fieldValue ∧
      ∀ settings,
        Completion.items (.ofText (typedProvider "")) ⟨1, 13⟩ none settings =
          Completion.items (.ofText (typedProvider "x\" \x7d model M \x7b")) ⟨1, 13⟩ none
            settings := by
  have alike : (Document.ofText (typedProvider "")).AlikeUpTo
      (.ofText (typedProvider "x\" \x7d model M \x7b")) ⟨1, 13⟩ :=
    @Document.AlikeUpTo.ofText "datasource db \x7b\n" " provider = \"" "" "x\" \x7d model M \x7b"
      "\n url = \"\"\n\x7d" (by rintro c ⟨⟩; exact .inl rfl) (by rintro c ⟨⟩; exact .inl rfl)
      (List.all_iff_forall_prop.1 (by decide)) (List.all_iff_forall_prop.1 (by decide))
  have passes : isBoundary ((Document.ofText (typedProvider "")).line 1) = false := by
    decide +kernel
  have passes' : isBoundary
      ((Document.ofText (typedProvider "x\" \x7d model M \x7b")).line 1) = false := by
    decide +kernel
  obtain ⟨blocks, contexts, items⟩ := items_eq_of_alikeUpTo alike passes passes'
  refine ⟨alike, passes, passes', ?_, ?_, fun settings => items settings ?_⟩
  · rw [← blocks]
    decide +kernel
  · rw [← contexts]
    decide +kernel
  · decide +kernel

end SchemaAssist
