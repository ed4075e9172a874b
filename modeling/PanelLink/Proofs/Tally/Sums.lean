/-
**The sums over all lines of a test run.**

* `Line`: a line without a marker, or a line of results, and `Made`: a text is made of such lines;
* `foldl_addLine_of_made`: what the lines of a text add, one after the other;
* `foldl_addCounts`: adding counts one by one under a limit is adding them all under the limit;
* **`summary_of_made`**: the summary of a text tells the sums, or that there is no line of results, and
  does not depend on the order of lines.
-/

import Mathlib.Algebra.BigOperators.Group.List.Basic
import PanelLink.Proofs.Tally.ResultLine

namespace PanelLink.Tally

/-- **A line of a test run.** -/
inductive Line where
  | other (text : String) (unmarked : Unmarked text.toList) (unbroken : '\n' ∉ text.toList)
  | results (line : ResultLine)

namespace Line

/-- The line as it is written. -/
def text : Line → String
  | other text _ _ => text
  | results line => line.text

def results? : Line → Option ResultLine
  | other _ _ _ => none
  | results line => some line

/-- What the line adds to sums, if there are any yet. -/
def addTo (tally : Option Tally) : Line → Option Tally
  | other _ _ _ => tally
  | results line => some (line.addTo (tally.getD {}))

theorem unbroken_text (line : Line) : '\n' ∉ line.text.toList := by
  cases line with
  | other _ _ unbroken => exact unbroken
  | results line => exact line.unbroken_text

theorem addLine_text (tally : Option Tally) (line : Line) :
    addLine tally line.text.toList = line.addTo tally := by
  cases line with
  | other text unmarked _ => rw [Line.text, addLine, resultPart?_eq_none unmarked, addTo]
  | results line => exact line.addLine_text tally

end Line

/-- **A text is made of lines** in order, each ended by a line feed or by a carriage return and a line
feed, but for the last one, which need not be ended. -/
inductive Made : List Line → String → Prop
  | nothing : Made [] ""
  | last (line : Line) : Made [line] line.text
  | next (line : Line) {lines : List Line} {ending rest : String} (ends : ending ∈ ["\n", "\r\n"])
      (made : Made lines rest) : Made (line :: lines) (line.text ++ ending ++ rest)

/-! ### Lines of a text -/

/-- The first line of a text is cut off. -/
theorem cutAt_line {line rest : List Char} (unbroken : '\n' ∉ line) :
    cutAt '\n' (line ++ '\n' :: rest) = line :: cutAt '\n' rest := by
  rw [cutAt, List.splitOn_append_cons_self, List.splitOn_eq_singleton unbroken]
  rfl

/-- **The lines of a text** add what they add by themselves. -/
theorem foldl_addLine_of_made {lines : List Line} {text : String} (made : Made lines text)
    (tally : Option Tally) :
    (cutAt '\n' text.toList).foldl addLine tally = lines.foldl Line.addTo tally := by
  induction made generalizing tally with
  | nothing => rfl
  | last line =>
    rw [cutAt, List.splitOn_eq_singleton line.unbroken_text, List.foldl_cons, line.addLine_text]
    rfl
  | @next line lines ending rest ends made ih =>
    rw [String.toList_append, String.toList_append]
    rcases List.mem_pair.mp ends with rfl | rfl
    · have cut : line.text.toList ++ "\n".toList ++ rest.toList =
          line.text.toList ++ '\n' :: rest.toList := by
        rw [List.append_assoc]
        rfl
      rw [cut, cutAt_line line.unbroken_text, List.foldl_cons, List.foldl_cons, line.addLine_text, ih]
    · have cut : line.text.toList ++ "\r\n".toList ++ rest.toList =
          (line.text.toList ++ ['\r']) ++ '\n' :: rest.toList := by
        rw [List.append_assoc, List.append_assoc]
        rfl
      have unbroken : '\n' ∉ line.text.toList ++ ['\r'] := by
        rw [List.mem_append, not_or]
        exact ⟨line.unbroken_text, by decide⟩
      rw [cut, cutAt_line unbroken, List.foldl_cons, List.foldl_cons, addLine_return,
        line.addLine_text, ih]

/-! ### Sums -/

/-- The lines of results. -/
def results (lines : List Line) : List ResultLine :=
  lines.filterMap Line.results?

/-- The sum of a count over all lines of results. -/
def sumOf (count : ResultLine → Count) (lines : List Line) : Nat :=
  ((results lines).map fun line => (count line).number).sum

/-- The sums that 32 bits hold. -/
def total (lines : List Line) : Tally where
  passed := min (sumOf ResultLine.passed lines) (2 ^ 32 - 1)
  failed := min (sumOf ResultLine.failed lines) (2 ^ 32 - 1)
  ignored := min (sumOf ResultLine.ignored lines) (2 ^ 32 - 1)

/-- **Adding one by one under a limit** is adding all under the limit. -/
theorem foldl_addCounts (counts : List Nat) {start : Nat} (small : start ≤ 2 ^ 32 - 1) :
    counts.foldl addCounts start = min (start + counts.sum) (2 ^ 32 - 1) := by
  induction counts generalizing start with
  | nil => exact (Nat.min_eq_left small).symm
  | cons count counts ih =>
    have next : addCounts start count = min (start + count) (2 ^ 32 - 1) := rfl
    rw [List.foldl_cons, ih (next ▸ Nat.min_le_right _ _), next, List.sum_cons]
    omega

theorem foldl_addTo_results (found : List ResultLine) (tally : Tally) :
    found.foldl (fun sums line => line.addTo sums) tally =
      { passed := (found.map fun line => line.passed.number).foldl addCounts tally.passed
        failed := (found.map fun line => line.failed.number).foldl addCounts tally.failed
        ignored := (found.map fun line => line.ignored.number).foldl addCounts tally.ignored } := by
  induction found generalizing tally with
  | nil => rfl
  | cons line found ih => exact ih (line.addTo tally)

/-- Only lines of results add something, the first one to nothing. -/
theorem foldl_addTo (lines : List Line) (tally : Option Tally) :
    lines.foldl Line.addTo tally = if results lines = [] then tally else
      some ((results lines).foldl (fun sums line => line.addTo sums) (tally.getD {})) := by
  induction lines generalizing tally with
  | nil => rfl
  | cons line lines ih =>
    rw [List.foldl_cons, ih]
    cases line with
    | other => rfl
    | results line =>
      have found : results (.results line :: lines) = line :: results lines := rfl
      rw [found, if_neg (List.cons_ne_nil line _), List.foldl_cons]
      split
      · rename_i none
        rw [none]
        rfl
      · rfl

/-- **The sums of a text.** -/
theorem ofText_of_made {lines : List Line} {text : String} (made : Made lines text) :
    ofText text = if results lines = [] then none else some (total lines) := by
  have zero : 0 ≤ 2 ^ 32 - 1 := Nat.zero_le _
  rw [ofText, foldl_addLine_of_made made, foldl_addTo, foldl_addTo_results]
  simp only [Option.getD_none, foldl_addCounts _ zero, Nat.zero_add]
  rfl

theorem results_perm {lines others : List Line} (perm : others.Perm lines) :
    (results others).Perm (results lines) :=
  perm.filterMap Line.results?

theorem total_of_perm {lines others : List Line} (perm : others.Perm lines) :
    total others = total lines := by
  have same (count : ResultLine → Count) : sumOf count others = sumOf count lines :=
    ((results_perm perm).map fun line => (count line).number).sum_eq
  simp only [total, same]

/-- The words for sums are not those for none. -/
theorem summary_eq_notAvailable_iff {tally? : Option Tally} :
    summary tally? = "(summary not available)" ↔ tally? = none := by
  cases tally? with
  | none => exact iff_of_true rfl rfl
  | some tally =>
    refine iff_of_false (fun same => ?_) nofun
    have letter : 'p' ∈ (summary (some tally)).toList := by
      simp [summary, String.toList_append]
    rw [same] at letter
    exact absurd letter (by decide)

/-- **The summary of a test run** tells the sums of what its lines of results count as passed, failed
and ignored, each at most what 32 bits hold, and tells that there is none exactly if no line is one of
results. Lines in another order have the same summary. -/
theorem summary_of_made {lines : List Line} {text : String} (made : Made lines text) :
    (summary (ofText text) = "(summary not available)" ↔ results lines = []) ∧
      (results lines ≠ [] → summary (ofText text) =
        "(" ++ toString (min (sumOf ResultLine.passed lines) (2 ^ 32 - 1)) ++ " passed, " ++
          toString (min (sumOf ResultLine.failed lines) (2 ^ 32 - 1)) ++ " failed, " ++
          toString (min (sumOf ResultLine.ignored lines) (2 ^ 32 - 1)) ++ " ignored)") ∧
      ∀ others otherText, others.Perm lines → Made others otherText →
        summary (ofText otherText) = summary (ofText text) := by
  refine ⟨?_, fun some => ?_, fun others otherText perm madeToo => ?_⟩
  · rw [summary_eq_notAvailable_iff, ofText_of_made made, ite_eq_left_iff]
    exact ⟨fun none => by_contra fun some => Option.some_ne_none _ (none some),
      fun none some => absurd none some⟩
  · rw [ofText_of_made made, if_neg some]
    rfl
  · have none : results others = [] ↔ results lines = [] := by
      rw [← List.length_eq_zero_iff, ← List.length_eq_zero_iff,
        (results_perm perm).length_eq]
    rw [ofText_of_made madeToo, ofText_of_made made, total_of_perm perm]
    simp only [none]

/-- Two runs, the first of which has counted as many passed tests as there can be. -/
def twoRuns : List Line :=
  [.other "running 6 tests" (by unfold Unmarked; decide) (by decide),
    .results
      { lead := "", unmarked := unmarked_nil, unbroken := nofun, successful := true
        passed := .of 4294967295 "4294967295" (by decide), failed := .of 0 "0" (by decide)
        ignored := .of 1 "1" (by decide), measured := .of 0 "0" (by decide)
        filtered := .of 2 "2" (by decide)
        time? := some ⟨"0.12s", ⟨by decide, Text.plain_of_any (by decide)⟩, by decide⟩ },
    .results
      { lead := "\t", unmarked := by unfold Unmarked; decide, unbroken := by decide
        successful := false
        passed := .of 5 "5" (by decide), failed := .of 1 "1" (by decide)
        ignored := .of 1 "01" (by decide), measured := .of 0 "0" (by decide)
        filtered := .of 0 "0" (by decide), time? := none }]

def twoRunsText : String :=
  "running 6 tests\r\n" ++
    "test result: ok. 4294967295 passed; 0 failed; 1 ignored; 0 measured; 2 filtered out; " ++
    "finished in 0.12s\n" ++
    "\ttest result: FAILED. 5 passed; 1 failed; 01 ignored; 0 measured; 0 filtered out"

theorem summary_of_made_twoRuns :
    Made twoRuns twoRunsText ∧ results twoRuns ≠ [] ∧
      summary (ofText twoRunsText) = "(4294967295 passed, 1 failed, 2 ignored)" := by
  have feed : "\n" ∈ ["\n", "\r\n"] := by decide
  have returned : "\r\n" ∈ ["\n", "\r\n"] := by decide
  obtain ⟨text, made, same⟩ : ∃ text, Made twoRuns text ∧ text = twoRunsText :=
    ⟨_, .next _ returned (.next _ feed (.last _)), by decide +kernel⟩
  subst same
  have found : results twoRuns ≠ [] := nofun
  refine ⟨made, found, ((summary_of_made made).2.1 found).trans ?_⟩
  decide +kernel

end PanelLink.Tally
