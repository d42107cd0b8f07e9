/-
# SchemaAssist.Proofs.Layout.Providers — the provider on a line

Scanning looks for `provider = "…"` anywhere on a line.  Where comments and the texts
of strings cannot spell it, the search finds three tokens in sequence
(`Segmented.provider_tokens`), and it finds them wherever they stand
(`Segmented.exists_provider`).  A statement has one equals sign at most, so on the line
of an assignment the search answers for that assignment (`firstMatch_assignment`).
-/
import SchemaAssist.Proofs.Layout.Bodies

namespace SchemaAssist

set_option autoImplicit false

open Text Scan Grammar

/-! ## The pattern -/

/-- What the pattern of a provider reads: the word, an equals sign and a string, with
blanks between them. -/
theorem exists_of_providerPattern {before : Option Char} {text : List Char} {provider : String}
    (found : providerPattern before text = some provider) :
    ∃ blanks₁ blanks₂ body tail,
      text = "provider".toList ++ (blanks₁ ++ '=' :: (blanks₂ ++ '"' :: (body ++ '"' :: tail))) ∧
      (∀ c ∈ blanks₁, isBlank c = true) ∧ (∀ c ∈ blanks₂, isBlank c = true) ∧ '"' ∉ body ∧
      provider = String.ofList body ∧ before.any isWordChar = false := by
  unfold providerPattern at found
  split at found
  · cases found
  rename_i rest word
  split at found
  · rename_i rest₁ equals
    split at found
    · rename_i rest₂ quote
      split at found
      · rename_i closes
        unfold atBoundary at word
        split at word
        · rename_i boundary
          obtain rfl := stripWord_eq_some.1 word
          obtain ⟨blanks₁, blank₁, shape₁⟩ := exists_trimStart rest
          obtain ⟨blanks₂, blank₂, shape₂⟩ := exists_trimStart rest₁
          rw [equals] at shape₁
          rw [quote] at shape₂
          obtain ⟨body, tail, shape₃, taken, all, ends⟩ :=
            exists_takeWhile_append (· != '"') rest₂
          obtain ⟨more, rfl⟩ : ∃ more, tail = '"' :: more := by
            cases tail with
            | nil =>
                rw [List.append_nil] at shape₃
                subst shape₃
                have isIn : '"' ∈ rest₂ := by simpa using closes
                have other := List.all_eq_true.1 all '"' isIn
                simp at other
            | cons c more =>
                have same : c = '"' := by simpa using ends
                exact ⟨more, by rw [same]⟩
          refine ⟨blanks₁, blanks₂, body, more, ?_, blank₁, blank₂, ?_, ?_, ?_⟩
          · rw [shape₁, shape₂, shape₃]
          · intro isIn
            have other := List.all_eq_true.1 all '"' isIn
            simp at other
          · rw [← Option.some.inj found, taken]
          · have word : isWordChar 'p' = true := by decide
            have head : ("provider".toList ++ rest).head? = some 'p' := rfl
            rw [head, isWordBoundary, Option.any_some, word] at boundary
            simpa using boundary
        · cases word
      · cases found
    · cases found
  · cases found

theorem all_ne_quote {text : List Char} (noQuote : '"' ∉ text) :
    text.all (· != '"') = true := by
  simpa using fun c isIn => ne_of_mem_of_not_mem isIn noQuote

theorem providerPattern_spelled {before : Option Char} {blanks₁ blanks₂ body tail : List Char}
    (blank₁ : ∀ c ∈ blanks₁, isBlank c = true) (blank₂ : ∀ c ∈ blanks₂, isBlank c = true)
    (noQuote : '"' ∉ body) (starts : before.any isWordChar = false) :
    providerPattern before
      ("provider".toList ++ (blanks₁ ++ '=' :: (blanks₂ ++ '"' :: (body ++ '"' :: tail)))) =
        some (String.ofList body) := by
  have boundary : isWordBoundary before (some 'p') = true := by
    have word : isWordChar 'p' = true := by decide
    rw [isWordBoundary, starts, Option.any_some, word]
    rfl
  have word : atBoundary "provider".toList before
      ("provider".toList ++ (blanks₁ ++ '=' :: (blanks₂ ++ '"' :: (body ++ '"' :: tail)))) =
        some (blanks₁ ++ '=' :: (blanks₂ ++ '"' :: (body ++ '"' :: tail))) := by
    unfold atBoundary
    have head : ("provider".toList ++
        (blanks₁ ++ '=' :: (blanks₂ ++ '"' :: (body ++ '"' :: tail)))).head? = some 'p' := rfl
    rw [head, if_pos boundary, stripWord_append]
  have equals : trimStart (blanks₁ ++ '=' :: (blanks₂ ++ '"' :: (body ++ '"' :: tail))) =
      '=' :: (blanks₂ ++ '"' :: (body ++ '"' :: tail)) := by
    rw [trimStart_append blank₁, trimStart_cons (by decide)]
  have quote : trimStart (blanks₂ ++ '"' :: (body ++ '"' :: tail)) =
      '"' :: (body ++ '"' :: tail) := by
    rw [trimStart_append blank₂, trimStart_cons (by decide)]
  have taken : (body ++ '"' :: tail).takeWhile (· != '"') = body := by
    exact takeWhile_eq_self_append (all_ne_quote noQuote) (by simp)
  unfold providerPattern
  simp only [word, equals, quote, taken]
  rw [if_pos (by simp)]

/-! ## Blanks among the segments -/

theorem not_isDigit_of_isBlank {c : Char} (blank : isBlank c = true) : isDigit c = false := by
  have noWord := isWordChar_of_isBlank blank
  simp only [isWordChar, isAlphanumeric, Bool.or_eq_false_iff] at noWord
  exact noWord.1.1.2

/-- A blank at the front of a line is a gap of its own. -/
theorem Front.eq_of_isBlank {depth : Nat} {c : Char} {inner rest : List Char}
    {lexeme : Option Lexeme} (front : Front depth (c :: inner) lexeme rest)
    (blank : isBlank c = true) (noFeed : c ≠ '\n') : inner = [] ∧ lexeme = none := by
  have other : ∀ d, isBlank d = false → c ≠ d := fun d => ne_of_apply blank
  generalize shape : c :: inner = chars at front
  cases front with
  | blank _ =>
      obtain ⟨-, rfl⟩ := List.cons.inj shape
      exact ⟨rfl, rfl⟩
  | comment _ _ => exact absurd (List.cons.inj shape).1 (other '/' (by decide))
  | feed => exact absurd (List.cons.inj shape).1 noFeed
  | string _ => exact absurd (List.cons.inj shape).1 (other '"' (by decide))
  | number starts _ _ =>
      obtain ⟨rfl, -⟩ := List.cons.inj shape
      rcases starts with isDigit | ⟨minus, -⟩
      · rw [not_isDigit_of_isBlank blank] at isDigit
        cases isDigit
      · exact absurd minus (other '-' (by decide))
  | word starts _ _ _ =>
      obtain ⟨rfl, -⟩ := List.cons.inj shape
      have word := isWordChar_of_isWordStart starts
      rw [isWordChar_of_isBlank blank] at word
      cases word
  | doubleAt => exact absurd (List.cons.inj shape).1 (other '@' (by decide))
  | atSign _ => exact absurd (List.cons.inj shape).1 (other '@' (by decide))
  | sign isSign =>
      obtain ⟨rfl, -⟩ := List.cons.inj shape
      unfold Punct.ofChar? at isSign
      split at isSign <;> first
        | exact absurd rfl (other _ (by decide))
        | cases isSign

theorem Segmented.skipBlanks {blanks text : List Char} {mark : Mark} {segments : List Segment}
    (segmented : Segmented 0 mark (blanks ++ text) segments)
    (blank : ∀ c ∈ blanks, isBlank c = true) (noFeed : '\n' ∉ blanks) :
    ∃ onward mark', Segmented 0 mark' text onward ∧ tokensOf segments = tokensOf onward ∧
      onward ⊆ segments := by
  induction blanks generalizing mark segments with
  | nil => exact ⟨segments, mark, segmented, rfl, fun _ isIn => isIn⟩
  | cons c blanks ih =>
      obtain ⟨other, noFeed⟩ := List.ne_and_not_mem_of_not_mem_cons noFeed
      generalize shape : c :: blanks ++ text = line at segmented
      cases segmented with
      | done => cases shape
      | @cons _ _ chars rest lexeme others front behind =>
          obtain ⟨d, inner, rfl⟩ := front.cons
          obtain ⟨rfl, tail⟩ := List.cons.inj shape
          obtain ⟨rfl, rfl⟩ := front.eq_of_isBlank (blank c (by simp)) (Ne.symm other)
          obtain rfl : blanks ++ text = rest := tail
          obtain ⟨onward, mark', segmented, same, part⟩ :=
            ih behind (fun d isIn => blank d (by simp [isIn])) noFeed
          exact ⟨onward, mark', segmented, same, fun s isIn => List.mem_cons_of_mem _ (part isIn)⟩

/-! ## The tokens of a provider -/

/-- Segments without comments, and with no string that spells the word or holds a closing
brace or a backslash. -/
structure PlainRow (row : List Segment) : Prop where
  noComment : ∀ segment ∈ row, segment.lexeme = none → segment.chars.head? ≠ some '/'
  noBrace : ∀ segment ∈ row, ∀ text, segment.lexeme = some (.string text) →
    '\x7d' ∉ segment.chars
  noSlash : ∀ segment ∈ row, ∀ text, segment.lexeme = some (.string text) →
    '\\' ∉ segment.chars
  noWord : ∀ segment ∈ row, ∀ text, segment.lexeme = some (.string text) →
    occursIn "provider".toList segment.chars = false

/-- Whether a segment is a comment, a string or a blank, so that any text may stand in it. -/
def Segment.isFree (segment : Segment) : Bool :=
  match segment.lexeme with
  | none | some (.string _) => true
  | some _ => false

/-- Segments among which the search for a provider can be trusted: no comment and no string
spells the word or holds a closing brace, and no string holds a backslash. -/
structure ClearRow (row : List Segment) : Prop where
  noBrace : ∀ segment ∈ row, segment.isFree = true → '\x7d' ∉ segment.chars
  noWord : ∀ segment ∈ row, segment.isFree = true →
    occursIn "provider".toList segment.chars = false
  noSlash : ∀ segment ∈ row, ∀ text, segment.lexeme = some (.string text) →
    '\\' ∉ segment.chars

theorem ClearRow.subset {row part : List Segment} (clear : ClearRow row) (subset : part ⊆ row) :
    ClearRow part where
  noBrace segment isIn := clear.noBrace segment (subset isIn)
  noWord segment isIn := clear.noWord segment (subset isIn)
  noSlash segment isIn := clear.noSlash segment (subset isIn)

/-- Without comments, what is neither a token nor a string is one blank character. -/
theorem Front.eq_blank {depth : Nat} {chars rest : List Char}
    (front : Front depth chars none rest) (noComment : chars.head? ≠ some '/') :
    ∃ c, chars = [c] ∧ isBlank c = true := by
  generalize same : none = lexeme at front
  cases front with
  | blank blank => exact ⟨_, rfl, IsGapChar.isBlank blank⟩
  | comment _ _ => exact absurd rfl noComment
  | feed => exact ⟨_, rfl, by decide⟩
  | _ => cases same

theorem PlainRow.clear {depth : Nat} {mark : Mark} {text : List Char}
    {segments row : List Segment} (plain : PlainRow row)
    (segmented : Segmented depth mark text segments) (part : row ⊆ segments) : ClearRow row := by
  have free : ∀ segment ∈ row, segment.isFree = true →
      (∃ c, segment.chars = [c] ∧ isBlank c = true) ∨
        ∃ content, segment.lexeme = some (.string content) := by
    intro segment isIn isFree
    obtain ⟨under, rest, front⟩ := segmented.exists_front (part isIn)
    cases lexeme : segment.lexeme with
    | none =>
        rw [lexeme] at front
        exact .inl (front.eq_blank (plain.noComment segment isIn lexeme))
    | some lexeme' =>
        cases lexeme' with
        | string content => exact .inr ⟨content, rfl⟩
        | _ => simp [Segment.isFree, lexeme] at isFree
  refine ⟨fun segment isIn isFree => ?_, fun segment isIn isFree => ?_, plain.noSlash⟩
  all_goals rcases free segment isIn isFree with ⟨c, single, blank⟩ | ⟨content, isString⟩
  · rw [single, List.mem_singleton]
    exact ne_of_apply_ne isBlank (by rw [blank]; decide)
  · exact plain.noBrace segment isIn content isString
  · rw [single, Bool.eq_false_iff]
    intro spelled
    obtain ⟨front, back, same⟩ := occursIn_iff.1 spelled
    have lengths := congrArg List.length same
    simp at lengths
    omega
  · exact plain.noWord segment isIn content isString

/-- Without backslashes the text of a string is what stands between its quotes. -/
theorem Quoted.eq_of_noSlash {body text : List Char} (quoted : Quoted body text)
    (noSlash : '\\' ∉ body) : text = body ∧ '"' ∉ body := by
  induction quoted with
  | done => exact ⟨rfl, List.not_mem_nil⟩
  | escaped _ _ => simp at noSlash
  | plain noQuote _ _ _ ih =>
      obtain ⟨-, noSlash⟩ := List.ne_and_not_mem_of_not_mem_cons noSlash
      obtain ⟨rfl, clean⟩ := ih noSlash
      exact ⟨rfl, List.not_mem_cons_of_ne_of_not_mem (Ne.symm noQuote) clean⟩

/-- A segment that starts with a quote is a string. -/
theorem Front.of_quote {depth : Nat} {inner rest : List Char} {lexeme : Option Lexeme}
    (front : Front depth ('"' :: inner) lexeme rest) :
    ∃ body text, inner = body ++ ['"'] ∧ Quoted body text ∧
      lexeme = some (.string (String.ofList text)) := by
  rcases front.of_signChar (by decide) List.mem_cons_self with ⟨text, rfl⟩ | ⟨body, shape, -⟩ |
    ⟨-, (isBlank | isBlank | isBlank) | isFeed | ⟨p, isPunct, -⟩⟩
  · obtain ⟨body, content, shape, quoted, rfl⟩ := front.stringLexeme
    exact ⟨body, content, (List.cons.inj shape).2, quoted, rfl⟩
  · cases shape
  · cases isBlank
  · cases isBlank
  · cases isBlank
  · cases isFeed
  · cases isPunct

/-- Behind the word, the tokens are an equals sign and the string. -/
theorem Segmented.equals_string {mark : Mark} {blanks₁ blanks₂ body tail : List Char}
    {row : List Segment}
    (segmented : Segmented 0 mark (blanks₁ ++ '=' :: (blanks₂ ++ '"' :: (body ++ '"' :: tail))) row)
    (noFeed : '\n' ∉ blanks₁ ++ '=' :: (blanks₂ ++ '"' :: (body ++ '"' :: tail)))
    (blank₁ : ∀ c ∈ blanks₁, isBlank c = true) (blank₂ : ∀ c ∈ blanks₂, isBlank c = true)
    (noQuote : '"' ∉ body) (clear : ClearRow row) :
    ∃ equals value behind, tokensOf row = equals :: value :: behind ∧
      equals.lexeme = .punct .equals ∧ value.lexeme = .string (String.ofList body) := by
  simp only [List.mem_append, List.mem_cons, not_or] at noFeed
  obtain ⟨row₁, mark₁, segmented₁, same₁, part₁⟩ := segmented.skipBlanks blank₁ noFeed.1
  have sign : Front 0 ['='] (some (.punct .equals))
      (blanks₂ ++ '"' :: (body ++ '"' :: tail)) := .sign rfl
  generalize shape₁ : '=' :: (blanks₂ ++ '"' :: (body ++ '"' :: tail)) = text₁ at segmented₁
  cases segmented₁ with
  | done => cases shape₁
  | @cons _ _ chars₁ rest₁ lexeme₁ others₁ front₁ behind₁ =>
      obtain ⟨rfl, rfl, rfl⟩ := sign.unique front₁ shape₁
      obtain ⟨row₂, mark₂, segmented₂, same₂, part₂⟩ :=
        behind₁.skipBlanks blank₂ noFeed.2.2.1
      generalize shape₂ : '"' :: (body ++ '"' :: tail) = text₂ at segmented₂
      cases segmented₂ with
      | done => cases shape₂
      | @cons _ _ chars₂ rest₂ lexeme₂ others₂ front₂ _ =>
          obtain ⟨c, inner, rfl⟩ := front₂.cons
          obtain ⟨rfl, shape₃⟩ := List.cons.inj shape₂
          obtain ⟨own, text, rfl, quoted, rfl⟩ := front₂.of_quote
          have here : (⟨mark₂, '"' :: (own ++ ['"']), some (.string (String.ofList text))⟩ :
              Segment) ∈ row := part₁ (List.mem_cons_of_mem _ (part₂ List.mem_cons_self))
          have noSlash : '\\' ∉ own := fun isIn => clear.noSlash _ here _ rfl (by simp [isIn])
          obtain ⟨rfl, clean⟩ := quoted.eq_of_noSlash noSlash
          have split : body ++ '"' :: tail = text ++ '"' :: rest₂ := by
            rw [shape₃]
            simp
          obtain ⟨rfl, -⟩ := append_inj_of_run (all_ne_quote noQuote) (by simp)
            (all_ne_quote clean) (by simp) split
          exact ⟨_, _, _, by rw [same₁, tokensOf_token, same₂, tokensOf_token], rfl, rfl⟩

/-- The word of a provider that starts in a comment or a string goes on behind it. -/
theorem ClearRow.goes_on {segment : Segment} {front more rest behind : List Char}
    (clear : ClearRow [segment]) (isFree : segment.isFree = true)
    (shape : front ++ more = segment.chars)
    (spelled : more ++ rest = "provider".toList ++ behind) :
    ∃ c tail, "provider".toList = more ++ c :: tail ∧ rest.head? = some c := by
  have clean := clear.noWord segment (List.mem_singleton_self _) isFree
  have inside : ∀ tail, more ≠ "provider".toList ++ tail := by
    intro tail same
    have occurs : occursIn "provider".toList segment.chars = true :=
      occursIn_iff.2 ⟨front, tail, by rw [← shape, same]⟩
    rw [occurs] at clean
    cases clean
  rcases List.append_eq_append_iff.1 spelled with ⟨tail, inWord, onward⟩ | ⟨tail, same, -⟩
  · cases tail with
    | nil =>
        rw [List.append_nil] at inWord
        exact absurd (by rw [inWord, List.append_nil]) (inside [])
    | cons c tail => exact ⟨c, tail, inWord, by rw [onward]; rfl⟩
  · exact absurd same (inside tail)

/-- The word of a provider stands at the front of a segment, and is all of it: no
string spells it, and it starts where no word character stands before it. -/
theorem Front.provider {depth : Nat} {front more rest behind : List Char}
    {lexeme : Option Lexeme} (here : Front depth (front ++ more) lexeme rest) (mark : Mark)
    (noFeed : '\n' ∉ front ++ more) (clear : ClearRow [⟨mark, front ++ more, lexeme⟩])
    (nonempty : more ≠ []) (spelled : more ++ rest = "provider".toList ++ behind)
    (starts : front.getLast?.any isWordChar = false)
    (ends : behind.head?.any isWordChar = false) :
    front = [] ∧ more = "provider".toList ∧ lexeme = some (.word "provider") ∧ rest = behind := by
  have first : more.head? = some 'p' := by
    obtain ⟨c, inner, rfl⟩ := List.exists_cons_of_ne_nil nonempty
    rw [(List.cons.inj spelled).1]
    rfl
  have isIn : 'p' ∈ front ++ more := List.mem_append_right _ (List.mem_of_mem_head? first)
  generalize shape : front ++ more = chars at here clear isIn noFeed
  cases here with
  | blank isBlank =>
      obtain rfl := List.mem_singleton.1 isIn
      rcases isBlank with same | same | same <;> cases same
  | comment _ ends =>
      obtain ⟨c, tail, word, head⟩ := clear.goes_on rfl shape spelled
      rw [head] at ends
      rcases ends with none | feed
      · cases none
      · have inWord : '\n' ∈ "provider".toList := by
          rw [word, Option.some.inj feed]
          simp
        exact absurd inWord (by decide)
  | feed => exact absurd (List.mem_singleton_self _) noFeed
  | string _ =>
      obtain ⟨c, tail, word, -⟩ := clear.goes_on rfl shape spelled
      have closing : '"' ∈ more := by
        have last := congrArg List.getLast? shape
        rw [List.getLast?_append_of_ne_nil _ nonempty, List.getLast?_append] at last
        exact List.mem_of_getLast? last
      have inWord : '"' ∈ "provider".toList := by
        rw [word]
        exact List.mem_append_left _ closing
      exact absurd inWord (by decide)
  | number starts inner _ =>
      exfalso
      rcases List.mem_cons.1 isIn with rfl | isIn
      · rcases starts with isDigit | ⟨minus, -⟩
        · exact absurd isDigit (by decide)
        · cases minus
      · exact absurd (List.all_eq_true.1 inner _ isIn) (by decide)
  | @word c inner _ isStart _ all noWord =>
      have allWord : (c :: inner).all isWordChar = true := by
        rw [List.all_cons, isWordChar_of_isWordStart isStart, all]
        rfl
      have noFront : front = [] := by
        rcases List.eq_nil_or_concat front with empty | ⟨init, last, rfl⟩
        · exact empty
        · have isWord := List.all_eq_true.1 allWord last (by rw [← shape]; simp)
          simp [isWord] at starts
      subst noFront
      obtain rfl : more = c :: inner := shape
      obtain ⟨own, tail⟩ := append_inj_of_run allWord noWord (by decide) ends spelled
      refine ⟨rfl, own, ?_, tail⟩
      rw [own]
      decide
  | doubleAt => simp at isIn
  | atSign _ => simp at isIn
  | sign isSign =>
      obtain rfl := List.mem_singleton.1 isIn
      cases isSign

/-- **What the search finds are three tokens in sequence.** -/
theorem Segmented.provider_tokens {depth : Nat} {mark : Mark} {front text : List Char}
    {row : List Segment} (segmented : Segmented depth mark (front ++ text) row)
    (noFeed : '\n' ∉ front ++ text) (clear : ClearRow row) {before : Option Char}
    {provider : String} (found : providerPattern (front.getLast?.or before) text = some provider) :
    ∃ others key equals value behind, tokensOf row = others ++ key :: equals :: value :: behind ∧
      key.lexeme = .word "provider" ∧ equals.lexeme = .punct .equals ∧
      value.lexeme = .string provider := by
  obtain ⟨blanks₁, blanks₂, body, tail, rfl, blank₁, blank₂, noQuote, rfl, starts⟩ :=
    exists_of_providerPattern found
  generalize shape : front ++ ("provider".toList ++ (blanks₁ ++ '=' ::
    (blanks₂ ++ '"' :: (body ++ '"' :: tail)))) = line at segmented noFeed
  clear found
  induction segmented generalizing front before with
  | done => simp at shape
  | @cons depth mark chars rest lexeme segments here onward ih =>
      have onwardClear : ClearRow segments := clear.subset (List.subset_cons_self _ _)
      rw [List.mem_append, not_or] at noFeed
      by_cases inside : ∃ more, more ≠ [] ∧ chars = front ++ more
      · obtain ⟨more, nonempty, rfl⟩ := inside
        rw [List.append_assoc] at shape
        have spelled := (List.append_cancel_left shape).symm
        have single : ClearRow [⟨mark, front ++ more, lexeme⟩] :=
          clear.subset (by simp)
        have before' : front.getLast?.any isWordChar = false := by
          cases last : front.getLast? with
          | none => rfl
          | some c => rwa [last] at starts
        have after : (blanks₁ ++ '=' :: (blanks₂ ++ '"' :: (body ++ '"' :: tail))).head?.any
            isWordChar = false := by
          cases blanks₁ with
          | nil => rfl
          | cons c blanks₁ => simpa using isWordChar_of_isBlank (blank₁ c (by simp))
        obtain ⟨rfl, rfl, rfl, rfl⟩ :=
          here.provider mark noFeed.1 single nonempty spelled before' after
        obtain ⟨equals, value, behind, tokens, isEquals, isString⟩ :=
          (onward.anyDepth noFeed.2 0).equals_string noFeed.2 blank₁ blank₂ noQuote onwardClear
        exact ⟨[], _, equals, value, behind, by rw [tokensOf_token, tokens]; rfl, rfl, isEquals,
          isString⟩
      · have split : ∃ more, front = chars ++ more ∧ rest = more ++ ("provider".toList ++
            (blanks₁ ++ '=' :: (blanks₂ ++ '"' :: (body ++ '"' :: tail)))) := by
          rcases List.append_eq_append_iff.1 shape with ⟨more, same, rest'⟩ | ⟨more, same, rest'⟩
          · by_cases empty : more = []
            · subst empty
              exact ⟨[], by simpa using same.symm, by simpa using rest'.symm⟩
            · exact absurd ⟨more, empty, same⟩ inside
          · exact ⟨more, same, rest'⟩
        obtain ⟨more, rfl, rfl⟩ := split
        rw [List.getLast?_append, Option.or_assoc] at starts
        obtain ⟨others, key, equals, value, behind, tokens, isKey, isEquals, isString⟩ :=
          ih onwardClear starts rfl noFeed.2
        refine ⟨(Segment.token? ⟨mark, chars, lexeme⟩).toList ++ others, key, equals, value, behind,
          ?_, isKey, isEquals, isString⟩
        rw [tokensOf_cons, tokens, List.append_assoc]

/-- Where the three tokens start a line, the pattern answers behind the gap before
them. -/
theorem Segmented.exists_provider {mark : Mark} {line : List Char} {row : List Segment}
    (segmented : Segmented 0 mark line row) (noFeed : '\n' ∉ line) (clear : ClearRow row)
    {key equals value : Token} {behind : List Token} {text : String}
    (tokens : tokensOf row = key :: equals :: value :: behind)
    (isKey : key.lexeme.name? = some "provider") (isEquals : equals.lexeme = .punct .equals)
    (isString : value.lexeme = .string text) :
    ∃ gap rest, line = gap ++ rest ∧ (∀ c ∈ gap, IsGapChar c) ∧
      ∀ before : Option Char, before.any isWordChar = false →
        providerPattern before rest = some text := by
  obtain ⟨gap₁, chars₁, rest₁, onward₁, rfl, blank₁, -, front₁, segmented₁, tokens₁, part₁⟩ :=
    segmented.next noFeed tokens
  simp only [List.mem_append, not_or] at noFeed
  obtain ⟨gap₂, chars₂, rest₂, onward₂, rfl, blank₂, -, front₂, segmented₂, tokens₂, part₂⟩ :=
    segmented₁.next noFeed.2.2 tokens₁
  simp only [List.mem_append, not_or] at noFeed
  obtain ⟨gap₃, chars₃, rest₃, onward₃, rfl, blank₃, -, front₃, -, -, part₃⟩ :=
    segmented₂.next noFeed.2.2.2.2 tokens₂
  obtain ⟨rfl, -⟩ := front₁.name isKey
  rw [isEquals] at front₂
  obtain rfl := front₂.punct
  rw [isString] at front₃
  obtain ⟨body, content, rfl, quoted, rfl⟩ := front₃.stringLexeme
  have here : (⟨value.mark, '"' :: body ++ ['"'], some value.lexeme⟩ : Segment) ∈ row := by
    refine part₁ (List.mem_cons_of_mem _ (part₂ (List.mem_cons_of_mem _ (part₃ ?_))))
    exact List.mem_cons_self
  have noSlash : '\\' ∉ body := fun isIn =>
    clear.noSlash _ here _ (by rw [isString]) (by simp [isIn])
  obtain ⟨rfl, noQuote⟩ := quoted.eq_of_noSlash noSlash
  refine ⟨gap₁, _, rfl, blank₁, fun before starts => ?_⟩
  have shape : "provider".toList ++ (gap₂ ++ (Punct.equals.text.toList ++ (gap₃ ++
      ('"' :: content ++ ['"'] ++ rest₃)))) =
      "provider".toList ++ (gap₂ ++ '=' :: (gap₃ ++ '"' :: (content ++ '"' :: rest₃))) := by
    simp [Punct.text]
  rw [shape]
  exact providerPattern_spelled (fun c isIn => (blank₂ c isIn).isBlank)
    (fun c isIn => (blank₃ c isIn).isBlank) noQuote starts

/-! ## Assignments -/

def Assignment.provider? (a : Assignment) : Option String :=
  if a.key = "provider" ∧ a.value.kind = .string then some a.value.raw else none

theorem Grammar.Separated.forall_token {α : Type} {item : List Token → α → Prop} {P : Token → Prop}
    (each : ∀ tokens a, item tokens a → ∀ t ∈ tokens, P t)
    (comma : ∀ t : Token, t.lexeme = .punct .comma → P t) {tokens : List Token} {items : List α}
    (separated : Separated item tokens items) : ∀ t ∈ tokens, P t := by
  induction separated with
  | empty => simp
  | last one => exact each _ _ one
  | more one isComma _ ih =>
      intro t isIn
      rcases List.mem_append.1 isIn with isIn | isIn
      · exact each _ _ one t isIn
      · rcases List.mem_cons.1 isIn with rfl | isIn
        · exact comma t isComma
        · exact ih t isIn

/-- Values have no equals sign. -/
theorem Grammar.IsValue.noEquals {tokens : List Token} {v : Value} (value : IsValue tokens v) :
    ∀ t ∈ tokens, t.lexeme ≠ .punct .equals := by
  have named : ∀ {t : Token} {name : String}, t.lexeme.name? = some name →
      t.lexeme ≠ .punct .equals := by
    intro t name named same
    rw [same] at named
    cases named
  refine value.induct (motive := fun tokens _ => ∀ t ∈ tokens, t.lexeme ≠ .punct .equals)
    ?string ?number ?array ?boolean ?identifier ?call
  case string => intro t text lexeme; simp [lexeme]
  case number => intro t text lexeme; simp [lexeme]
  case array =>
    intro opening closing inner items opens separated closes
    have inside := separated.forall_token (fun _ _ known => known.2)
      (fun t (isComma : t.lexeme = .punct .comma) => by simp [isComma])
    simpa [opens, closes, or_imp, forall_and] using inside
  case boolean => intro t name isName _; simpa using named isName
  case identifier => intro t name isName _; simpa using named isName
  case call =>
    intro t opening closing inner name arguments isName _ opens separated closes
    have inside := separated.forall_token (P := fun t => t.lexeme ≠ .punct .equals)
      (fun _ _ argument => by
        cases argument with
        | plain one => exact one.2
        | named key colon one => simpa [key, colon] using one.2)
      (fun t isComma => by simp [isComma])
    simpa [opens, closes, or_imp, forall_and] using ⟨named isName, inside⟩

/-- A value that starts with a string is that string. -/
theorem Grammar.IsValue.eq_string {t : Token} {rest : List Token} {v : Value} {text : String}
    (value : IsValue (t :: rest) v) (isString : t.lexeme = .string text) :
    v = ⟨.string, text, []⟩ ∧ rest = [] := by
  generalize shape : t :: rest = tokens at value
  cases value with
  | string lexeme =>
      obtain ⟨rfl, rfl⟩ := List.cons.inj shape
      rw [isString] at lexeme
      cases lexeme
      exact ⟨rfl, rfl⟩
  | number lexeme =>
      obtain ⟨rfl, -⟩ := List.cons.inj shape
      rw [isString] at lexeme
      cases lexeme
  | array opens _ _ =>
      obtain ⟨rfl, -⟩ := List.cons.inj shape
      rw [isString] at opens
      cases opens
  | boolean named _ | identifier named _ =>
      obtain ⟨rfl, -⟩ := List.cons.inj shape
      rw [isString] at named
      cases named
  | call named _ _ _ _ =>
      obtain ⟨rfl, -⟩ := List.cons.inj shape
      rw [isString] at named
      cases named

/-- A list is split in one way at the only element of its sort. -/
theorem split_unique {α : Type} {q : α → Prop} {first₁ rest₁ first₂ rest₂ : List α} {a b : α}
    (same : first₁ ++ a :: rest₁ = first₂ ++ b :: rest₂) (noFirst : ∀ x ∈ first₁, ¬ q x)
    (noRest : ∀ x ∈ rest₁, ¬ q x) (here : q b) : first₁ = first₂ ∧ rest₁ = rest₂ := by
  induction first₁ generalizing first₂ with
  | nil =>
      cases first₂ with
      | nil => exact ⟨rfl, (List.cons.inj same).2⟩
      | cons x first₂ =>
          have isIn : b ∈ rest₁ := by
            rw [(List.cons.inj same).2]
            simp
          exact absurd here (noRest b isIn)
  | cons x first₁ ih =>
      cases first₂ with
      | nil =>
          obtain ⟨rfl, -⟩ := List.cons.inj same
          exact absurd here (noFirst x (by simp))
      | cons y first₂ =>
          obtain ⟨rfl, onward⟩ := List.cons.inj same
          obtain ⟨rfl, rest⟩ := ih onward fun z isIn => noFirst z (by simp [isIn])
          exact ⟨rfl, rest⟩

/-- A line without an equals sign has no provider. -/
theorem firstMatch_noEquals {mark : Mark} {line : List Char} {row : List Segment}
    (segmented : Segmented 0 mark line row) (noFeed : '\n' ∉ line) (clear : ClearRow row)
    (noEquals : ∀ t ∈ tokensOf row, t.lexeme ≠ .punct .equals) :
    firstMatch providerPattern line = none := by
  cases found : firstMatch providerPattern line with
  | none => rfl
  | some provider =>
      obtain ⟨front, text, rfl, answer⟩ := exists_of_firstMatchFrom found
      obtain ⟨others, key, equals, value, behind, tokens, -, isEquals, -⟩ :=
        segmented.provider_tokens noFeed clear answer
      exact absurd isEquals (noEquals equals (by rw [tokens]; simp))

/-- The tokens of an assignment on its first line, with others around them that have no equals
sign.  A value may go on over further lines. -/
structure AssignmentTokens (a : Assignment) (pre tokens post : List Token) : Prop where
  shape : ∃ token equals first rest more, tokens = token :: equals :: first :: rest ∧
    token.lexeme.name? = some a.key ∧ equals.lexeme = .punct .equals ∧
    IsValue (first :: more) a.value ∧ rest ⊆ more
  noPre : ∀ t ∈ pre, t.lexeme ≠ .punct .equals
  noPost : ∀ t ∈ post, t.lexeme ≠ .punct .equals

/-- What the search answers on the line of an assignment is its provider. -/
theorem provider?_of_firstMatch {mark : Mark} {line : List Char} {row : List Segment}
    (segmented : Segmented 0 mark line row) (noFeed : '\n' ∉ line) (clear : ClearRow row)
    {a : Assignment} {pre tokens post : List Token} (own : AssignmentTokens a pre tokens post)
    (same : tokensOf row = pre ++ tokens ++ post) {provider : String}
    (found : firstMatch providerPattern line = some provider) : a.provider? = some provider := by
  obtain ⟨⟨token, equals, first, inner, more, rfl, named, isEquals, isValue, part⟩, noPre,
    noPost⟩ := own
  obtain ⟨front, text, rfl, answer⟩ := exists_of_firstMatchFrom found
  obtain ⟨others, key, equals', string, behind, tokens, isKey, isEquals', isString⟩ :=
    segmented.provider_tokens noFeed clear answer
  have shape : (pre ++ [token]) ++ equals :: (first :: inner ++ post) =
      (others ++ [key]) ++ equals' :: (string :: behind) := by
    rw [tokens] at same
    simpa using same.symm
  have noFirst : ∀ t ∈ pre ++ [token], ¬ t.lexeme = .punct .equals := by
    intro t isIn
    rcases List.mem_append.1 isIn with isIn | isIn
    · exact noPre t isIn
    · obtain rfl := List.mem_singleton.1 isIn
      intro isSign
      rw [isSign] at named
      cases named
  have noRest : ∀ t ∈ first :: inner ++ post, ¬ t.lexeme = .punct .equals := by
    intro t isIn
    rcases List.mem_append.1 isIn with isIn | isIn
    · exact isValue.noEquals t (List.cons_subset_cons _ part isIn)
    · exact noPost t isIn
  obtain ⟨front', rest⟩ := split_unique shape noFirst noRest isEquals'
  obtain ⟨-, single⟩ := List.append_inj' front' rfl
  obtain rfl := List.singleton_inj.1 single
  rw [isKey] at named
  have isProvider : a.key = "provider" := (Option.some.inj named).symm
  obtain ⟨rfl, -⟩ := List.cons.inj rest
  have content := (isValue.eq_string isString).1
  rw [Assignment.provider?, if_pos ⟨isProvider, by rw [content]⟩, content]

/-- **The search finds the provider of the assignment on a line**, if the assignment
starts where no word character stands before it. -/
theorem firstMatch_assignment {mark mark' : Mark} {front text : List Char}
    {row onward : List Segment} (segmented : Segmented 0 mark (front ++ text) row)
    (noFeed : '\n' ∉ front ++ text) (clear : ClearRow row)
    (behind : Segmented 0 mark' text onward) (part : onward ⊆ row)
    (starts : front.getLast?.any isWordChar = false)
    {a : Assignment} {pre tokens post : List Token} (own : AssignmentTokens a pre tokens post)
    (same : tokensOf row = pre ++ tokens ++ post) (sameBehind : tokensOf onward = tokens ++ post) :
    firstMatch providerPattern (front ++ text) = a.provider? := by
  cases found : firstMatch providerPattern (front ++ text) with
  | some provider =>
      exact (provider?_of_firstMatch segmented noFeed clear own same found).symm
  | none =>
      symm
      rw [Assignment.provider?, if_neg]
      rintro ⟨isProvider, isString⟩
      obtain ⟨⟨token, equals, string, inner, more, rfl, named, isEquals, isValue, -⟩, -, -⟩ := own
      obtain ⟨content, lexeme⟩ : ∃ content, string.lexeme = .string content := by
        generalize a.value = v at isValue isString
        cases isValue <;> first | exact ⟨_, ‹_›⟩ | cases isString
      rw [List.mem_append, not_or] at noFeed
      obtain ⟨gap, rest, rfl, blank, answers⟩ := behind.exists_provider noFeed.2
        (clear.subset part) sameBehind (by rw [named, isProvider]) isEquals lexeme
      have before : ((front ++ gap).getLast?.or none).any isWordChar = false := by
        rw [Option.or_none, List.getLast?_append]
        cases last : gap.getLast? with
        | none => exact starts
        | some c => simpa using (blank c (List.mem_of_getLast? last)).not_isWordChar
      have answer : (providerPattern ((front ++ gap).getLast?.or none) rest).isSome = true := by
        rw [answers _ before]
        rfl
      have some := firstMatchFrom_isSome answer
      rw [List.append_assoc] at some
      rw [firstMatch] at found
      rw [found] at some
      cases some

end SchemaAssist
