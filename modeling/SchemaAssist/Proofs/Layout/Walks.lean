/-
# SchemaAssist.Proofs.Layout.Walks — scans as walks over the numbers of lines

Scanning lists members, types and providers by walking down the lines.  Each walk is a
`filterMap` over the numbers of the lines walked (`namesOn?_eq`, `typeNames_eq`,
`providersIn_eq`), and such a walk meets the things that stand on lines of their own one
behind the other (`filterMap_range'_eq`).
-/
import SchemaAssist.Document.Scan
import Mathlib.Data.List.Basic
import Mathlib.Data.List.GetD
import Mathlib.Tactic.Common

namespace SchemaAssist

set_option autoImplicit false

open Text Scan

/-! ## Meeting what stands on the lines -/

/-- A walk over numbers meets the items that stand there, in their order. -/
theorem filterMap_range'_eq {α β : Type} {key : α → Int} {g : α → Option β} {f : Nat → Option β}
    {items : List α} (increasing : items.Pairwise fun a b => key a < key b) {start count : Nat}
    (bounds : ∀ a ∈ items, (start : Int) ≤ key a ∧ key a < start + count)
    (rows : ∀ n : Nat, start ≤ n → n < start + count →
      f n = (items.find? fun a => key a == n).bind g) :
    (List.range' start count).filterMap f = items.filterMap g := by
  induction count generalizing start items with
  | zero =>
      cases items with
      | nil => rfl
      | cons a items =>
          have inside := bounds a (by simp)
          omega
  | succ count ih =>
      rw [List.range'_succ]
      have here := rows start (Nat.le_refl _) (by omega)
      cases items with
      | nil =>
          rw [List.filterMap_cons_none here]
          exact ih .nil (by simp) fun n above below => rows n (by omega) (by omega)
      | cons a items =>
          obtain ⟨least, onward⟩ := List.pairwise_cons.1 increasing
          have inside := bounds a (by simp)
          by_cases first : key a = start
          · have found : f start = g a := by simpa [first] using here
            have others : (List.range' (start + 1) count).filterMap f = items.filterMap g := by
              refine ih onward (fun b isIn => ?_) fun n above below => ?_
              · have behind := least b isIn
                have within := bounds b (by simp [isIn])
                omega
              · rw [rows n (by omega) (by omega), List.find?_cons_of_neg]
                simp only [beq_iff_eq]
                omega
            cases value : g a with
            | none => rw [List.filterMap_cons_none (found.trans value),
                List.filterMap_cons_none value, others]
            | some b => rw [List.filterMap_cons_some (found.trans value),
                List.filterMap_cons_some value, others]
          · have none : (a :: items).find? (fun b => key b == (start : Int)) = none := by
              rw [List.find?_eq_none]
              intro b isIn
              simp only [beq_iff_eq]
              rcases List.mem_cons.1 isIn with rfl | isIn
              · exact first
              · have behind := least b isIn
                omega
            rw [none] at here
            rw [List.filterMap_cons_none here]
            refine ih increasing (fun b isIn => ?_) fun n above below =>
              rows n (by omega) (by omega)
            have within := bounds b isIn
            rcases List.mem_cons.1 isIn with rfl | isIn
            · omega
            · have behind := least b isIn
              omega

/-- What stands on a line, found among things on lines of their own. -/
theorem find?_eq_some_of_increasing {α : Type} {key : α → Int} {items : List α}
    (increasing : items.Pairwise fun a b => key a < key b) {a : α} (isIn : a ∈ items) {n : Int}
    (here : key a = n) : items.find? (fun a => key a == n) = some a := by
  induction items with
  | nil => cases isIn
  | cons b items ih =>
      obtain ⟨least, onward⟩ := List.pairwise_cons.1 increasing
      rcases List.mem_cons.1 isIn with rfl | isIn
      · exact List.find?_cons_of_pos (by simpa using here)
      · have behind := least a isIn
        rw [List.find?_cons_of_neg (by rw [beq_iff_eq]; omega)]
        exact ih onward isIn

/-! ## Scans as walks -/

/-- A scan that goes down line by line is a walk over the numbers of the lines. -/
theorem walk_eq {β : Type} (walk : List (List Char) → Nat → List β)
    (found : List (List Char) → Nat → Option β) (stops : ∀ n, walk [] n = [])
    (goes : ∀ line rest n, walk (line :: rest) n =
      (found (line :: rest) n).toList ++ walk rest (n + 1))
    (lines : List (List Char)) (start : Nat) : walk lines start =
      (List.range' start lines.length).filterMap fun n => found (lines.drop (n - start)) n := by
  induction lines generalizing start with
  | nil => exact stops start
  | cons line rest ih =>
      have others : (List.range' (start + 1) rest.length).filterMap
          (fun n => found (rest.drop (n - (start + 1))) n) =
          (List.range' (start + 1) rest.length).filterMap
            fun n => found ((line :: rest).drop (n - start)) n := by
        apply List.filterMap_congr
        intro n isIn
        obtain ⟨further, rfl⟩ := Nat.exists_eq_add_of_le (List.mem_range'_1.1 isIn).1
        have step : start + 1 + further - start = further + 1 := by omega
        rw [step, Nat.add_sub_cancel_left, List.drop_succ_cons]
      rw [goes, ih, others, List.length_cons, List.range'_succ, List.filterMap_cons,
        Nat.sub_self, List.drop_zero]
      cases found (line :: rest) start <;> rfl

theorem headD_drop (lines : List (List Char)) (n : Nat) :
    (lines.drop n).headD [] = lines.getD n [] := by
  rw [List.headD_eq_head?_getD, List.head?_drop, List.getD_eq_getElem?_getD]

theorem typeNames_eq (lines : List (List Char)) (exclude : Option Int) :
    typeNames ⟨lines⟩ exclude = (List.range' 0 lines.length).filterMap fun n : Nat =>
      if exclude = some (n : Int) then none else typeName? (lines.getD n []) := by
  refine (walk_eq (fun rest n => (rest.zipIdx n).filterMap fun entry =>
      if exclude = some (entry.2 : Int) then none else typeName? entry.1)
    (fun rest n => if exclude = some (n : Int) then none else typeName? (rest.headD []))
    (fun _ => rfl) (fun line rest n => ?_) lines 0).trans ?_
  · simp only [List.zipIdx_cons, List.filterMap_cons, List.headD_cons]
    generalize (if exclude = some (n : Int) then none else typeName? line) = here
    cases here <;> rfl
  · simp only [Nat.sub_zero, headD_drop]

theorem providersIn_eq (lines : List (List Char)) :
    providersIn lines = (List.range' 0 lines.length).filterMap fun n =>
      if occursIn "datasource".toList (lines.getD n []) = true then providerFrom (lines.drop n)
      else none := by
  refine (walk_eq (fun rest _ => providersIn rest)
    (fun rest _ => if occursIn "datasource".toList (rest.headD []) = true then providerFrom rest
      else none) (fun _ => rfl) (fun line rest _ => ?_) lines 0).trans ?_
  · rw [providersIn, List.headD_cons]
    by_cases mentioned : occursIn "datasource".toList line = true
    · rw [if_pos mentioned, if_pos mentioned]
    · rw [if_neg mentioned, if_neg mentioned]
      rfl
  · simp only [Nat.sub_zero, headD_drop]

/-- The names on lines that all exist. -/
theorem namesOn?_eq (lines : List (List Char)) (exclude : Option Int) (count start : Nat)
    (inside : start + count ≤ lines.length) :
    namesOn? lines exclude count start =
      some ((List.range' start count).filterMap fun n : Nat =>
        if exclude = some (n : Int) then none else memberName? (lines.getD n [])) := by
  induction count generalizing start with
  | zero => rfl
  | succ count ih =>
      have onward := ih (start + 1) (by omega)
      have cast : ((start + 1 : Nat) : Int) = (start : Int) + 1 := by omega
      rw [cast] at onward
      rw [namesOn?, List.range'_succ, List.filterMap_cons]
      split
      · exact onward
      · have line : lineAt? lines (start : Int) = some (lines.getD start []) := by
          have pos : ¬ (start : Int) < 0 := by omega
          rw [List.getD_eq_getElem _ _ (by omega), lineAt?]
          simp only [pos, if_false, Int.toNat_natCast]
          exact List.getElem?_eq_getElem _
        simp only [line, onward, Option.map_some]
        cases memberName? (lines.getD start []) <;> rfl

/-- A walk can go on over lines on which nothing stands. -/
theorem filterMap_range'_beyond {β : Type} {f : Nat → Option β} {start count bound : Nat}
    (le : count ≤ bound) (nothing : ∀ n, start + count ≤ n → f n = none) :
    (List.range' start bound).filterMap f = (List.range' start count).filterMap f := by
  obtain ⟨more, rfl⟩ := Nat.exists_eq_add_of_le le
  have beyond : (List.range' (start + count) more).filterMap f = [] := by
    rw [List.filterMap_eq_nil_iff]
    intro n isIn
    exact nothing n (List.mem_range'_1.1 isIn).1
  rw [← List.range'_append_1, List.filterMap_append, beyond, List.append_nil]

/-- The names between two lines, whether the document goes on to the second one or not. -/
theorem memberNames?_eq_walk {lines : List (List Char)} {start : Nat}
    (inside : start < lines.length) (stop : Nat) (exclude : Option Int) :
    memberNames? lines start stop exclude =
      some ((List.range' (start + 1) (stop - (start + 1))).filterMap fun n : Nat =>
        if exclude = some (n : Int) then none else memberName? (lines.getD n [])) := by
  have count : (min (stop : Int) lines.length - (start + 1)).toNat =
      min stop lines.length - (start + 1) := by omega
  have cast : (start : Int) + 1 = ((start + 1 : Nat) : Int) := by omega
  rw [memberNames?, count, cast, namesOn?_eq _ _ _ _ (by omega)]
  congr 1
  by_cases short : stop ≤ lines.length
  · rw [Nat.min_eq_left short]
  · rw [Nat.min_eq_right (by omega)]
    refine (filterMap_range'_beyond (by omega) fun n beyond => ?_).symm
    rw [List.getD_eq_default _ _ (by omega)]
    exact ite_self none

/-- The types of a document, counted on beyond its end. -/
theorem typeNames_eq_walk {lines : List (List Char)} {bound : Nat} (le : lines.length ≤ bound)
    (exclude : Option Int) :
    typeNames ⟨lines⟩ exclude = (List.range' 0 bound).filterMap fun n : Nat =>
      if exclude = some (n : Int) then none else typeName? (lines.getD n []) := by
  rw [typeNames_eq]
  refine (filterMap_range'_beyond le fun n beyond => ?_).symm
  rw [List.getD_eq_default _ _ (by omega)]
  exact ite_self none

/-- The search for a provider walks down to the first line with a closing brace. -/
theorem providerFrom_drop {lines : List (List Char)} {start stop : Nat} (le : start ≤ stop)
    (closes : '\x7d' ∈ lines.getD stop [])
    (stays : ∀ n, start ≤ n → n < stop → '\x7d' ∉ lines.getD n []) :
    providerFrom (lines.drop start) =
      (List.range' start (stop + 1 - start)).findSome? fun n =>
        firstMatch providerPattern (lines.getD n []) := by
  have inside : stop < lines.length := by
    by_contra beyond
    rw [List.getD_eq_default _ _ (by omega)] at closes
    cases closes
  induction size : stop - start generalizing start with
  | zero =>
      obtain rfl : start = stop := by omega
      have one : start + 1 - start = 1 := by omega
      rw [List.drop_eq_getElem_cons inside, providerFrom, one, ← List.getD_eq_getElem _ _ inside]
      cases found : firstMatch providerPattern (lines.getD start []) with
      | some provider => simp only [List.range'_one, List.findSome?_singleton, found]
      | none => simp only [List.range'_one, List.findSome?_singleton, found,
          List.contains_eq_mem, closes, decide_true, if_true]
  | succ size ih =>
      have here := stays start (Nat.le_refl _) (by omega)
      have more : stop + 1 - start = (stop + 1 - (start + 1)) + 1 := by omega
      have inside' : start < lines.length := by omega
      rw [List.drop_eq_getElem_cons inside', providerFrom, more, List.range'_succ,
        List.findSome?_cons, ← List.getD_eq_getElem _ _ inside',
        ← ih (by omega) (fun n above below => stays n (by omega) below) (by omega)]
      cases found : firstMatch providerPattern (lines.getD start []) with
      | some provider => rfl
      | none => simp only [List.contains_eq_mem, here, decide_false, Bool.false_eq_true, if_false]

end SchemaAssist
