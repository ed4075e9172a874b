/-
**What one line of a test run adds.**

* `Count`: a decimal count, and `ResultLine`: a line of results as it is written;
* `resultPart?_of_marker`: what is taken of a line with a marker, and `resultPart?_eq_none`: of one
  without;
* `ResultLine.unmarked_tail`: nothing after its marker looks like one more;
* **`ResultLine.addLine_text`**: a line of results adds its counts of passed, failed and ignored tests.
-/

import Mathlib.Data.List.Infix
import PanelLink.Proofs.Text.Decimals
import PanelLink.TestTally

namespace PanelLink.Tally

open Text (Blank Decimal Plain Word afterBlanks)

/-- The text has no marker in it. -/
def Unmarked (chars : List Char) : Prop :=
  ¬marker <:+: chars

/-- A count below `2 ^ 32` as it is written. -/
structure Count where
  number : Nat
  word : String
  decimal : Decimal word.toList number

/-- The count that a word is read as. -/
def Count.of (number : Nat) (word : String) (read : Text.readDecimal? word.toList = some number) :
    Count :=
  ⟨number, word, Text.readDecimal?_eq_some_iff.mp read⟩

/-- One word without a semicolon that tells how long the tests took. -/
structure Time where
  word : String
  whole : Word word.toList
  undivided : ';' ∉ word.toList

/-- **A line of results.** -/
structure ResultLine where
  /-- What stands before the marker. -/
  lead : String
  unmarked : Unmarked lead.toList
  unbroken : '\n' ∉ lead.toList
  successful : Bool
  passed : Count
  failed : Count
  ignored : Count
  measured : Count
  filtered : Count
  time? : Option Time

namespace ResultLine

def verdict (line : ResultLine) : String :=
  if line.successful then "ok." else "FAILED."

def ending (line : ResultLine) : String :=
  match line.time? with
  | none => ""
  | some time => "; finished in " ++ time.word

/-- What stands after the marker. -/
def tail (line : ResultLine) : String :=
  " " ++ line.verdict ++ " " ++ line.passed.word ++ " passed; " ++ line.failed.word ++ " failed; " ++
    line.ignored.word ++ " ignored; " ++ line.measured.word ++ " measured; " ++ line.filtered.word ++
    " filtered out" ++ line.ending

/-- The line as it is written. -/
def text (line : ResultLine) : String :=
  line.lead ++ "test result:" ++ line.tail

/-- What stands after the last count, word by word. -/
def timeParts (line : ResultLine) : List (List (List Char)) :=
  match line.time? with
  | none => []
  | some time => [["finished".toList, "in".toList, time.word.toList]]

/-- What stands between the semicolons after the marker, word by word. -/
def parts (line : ResultLine) : List (List (List Char)) :=
  [[line.verdict.toList, line.passed.word.toList, "passed".toList],
    [line.failed.word.toList, "failed".toList],
    [line.ignored.word.toList, "ignored".toList],
    [line.measured.word.toList, "measured".toList],
    [line.filtered.word.toList, "filtered".toList, "out".toList]] ++ line.timeParts

theorem toList_text (line : ResultLine) :
    line.text.toList = line.lead.toList ++ (marker ++ line.tail.toList) := by
  have marked : "test result:".toList = marker := rfl
  rw [text, String.toList_append, String.toList_append, marked, List.append_assoc]

theorem toList_tail (line : ResultLine) :
    line.tail.toList = [';'].intercalate (line.parts.map afterBlanks) := by
  have blank : " ".toList = [' '] := by decide
  have passed : " passed; ".toList = ' ' :: ("passed".toList ++ [';', ' ']) := by decide
  have failed : " failed; ".toList = ' ' :: ("failed".toList ++ [';', ' ']) := by decide
  have ignored : " ignored; ".toList = ' ' :: ("ignored".toList ++ [';', ' ']) := by decide
  have measured : " measured; ".toList = ' ' :: ("measured".toList ++ [';', ' ']) := by decide
  have filtered : " filtered out".toList = ' ' :: ("filtered".toList ++ ' ' :: "out".toList) := by
    decide
  have finished : "; finished in ".toList =
      ';' :: ' ' :: ("finished".toList ++ ' ' :: ("in".toList ++ [' '])) := by
    decide
  have empty : "".toList = [] := by decide
  unfold tail parts timeParts ending
  cases line.time? <;>
    simp only [String.toList_append, blank, passed, failed, ignored, measured, filtered, finished,
      empty, List.cons_append, List.nil_append, List.append_nil, List.map_cons, List.map_nil,
      List.intercalate_cons_cons, List.intercalate_singleton, afterBlanks, List.flatMap_cons,
      List.flatMap_nil, List.append_assoc]

end ResultLine

/-! ### The marker -/

theorem unmarked_nil : Unmarked [] := by
  unfold Unmarked
  decide

theorem unmarked_cons_iff {char : Char} {rest : List Char} :
    Unmarked (char :: rest) ↔ marker.isPrefixOf (char :: rest) = false ∧ Unmarked rest := by
  rw [Unmarked, List.infix_cons_iff, not_or, ← List.isPrefixOf_iff_prefix, Bool.not_eq_true]
  rfl

/-- A marker begins only where it is written, also where what comes before leaves off in one. -/
theorem isPrefixOf_marker_append {before rest : List Char} (nonempty : before ≠ [])
    (unmarked : Unmarked before) : marker.isPrefixOf (before ++ (marker ++ rest)) = false := by
  rw [Bool.eq_false_iff, Ne, List.isPrefixOf_iff_prefix]
  intro early
  have inside : ¬marker.length ≤ before.length := fun long => unmarked
    (List.prefix_of_prefix_length_le early (List.prefix_append before _) long).isInfix
  obtain ⟨left, cut⟩ := List.prefix_of_prefix_length_le (List.prefix_append before _) early (by omega)
  -- The two markers would overlap, so that one ends in what the other begins with.
  have overlap : left <+: marker ++ rest := by
    rw [← List.prefix_append_right_inj before, cut]
    exact early
  have border : left <+: marker := List.prefix_of_prefix_length_le overlap
    (List.prefix_append marker rest) (cut ▸ List.length_append ▸ Nat.le_add_left _ _)
  have none : ∀ tail ∈ marker.tails, tail <+: marker → tail = [] ∨ tail = marker := by decide
  rcases none left ((List.mem_tails left marker).mpr ⟨before, cut⟩) border with rfl | rfl
  · rw [List.append_nil] at cut
    exact inside (cut ▸ Nat.le_refl _)
  · exact nonempty (List.append_left_eq_self.mp cut)

/-- **What is taken of a line with a marker.** -/
theorem resultPart?_of_marker {before : List Char} (unmarked : Unmarked before) (rest : List Char) :
    resultPart? (before ++ (marker ++ rest)) = some (beforeMarker rest) := by
  induction before with
  | nil =>
    have first : marker ++ rest = 't' :: ("est result:".toList ++ rest) := rfl
    rw [List.nil_append, first, resultPart?, ← first,
      List.isPrefixOf_iff_prefix.mpr (List.prefix_append marker rest), List.drop_left]
    rfl
  | cons char before ih =>
    rw [List.cons_append, resultPart?, ← List.cons_append,
      isPrefixOf_marker_append (List.cons_ne_nil char before) unmarked]
    exact ih (unmarked_cons_iff.mp unmarked).2

theorem beforeMarker_of_unmarked {rest : List Char} (unmarked : Unmarked rest) :
    beforeMarker rest = rest := by
  induction rest with
  | nil => rfl
  | cons char rest ih =>
    obtain ⟨other, unmarked⟩ := unmarked_cons_iff.mp unmarked
    rw [beforeMarker, other, ih unmarked]
    rfl

/-- Nothing is taken of a line without a marker. -/
theorem resultPart?_eq_none {line : List Char} (unmarked : Unmarked line) :
    resultPart? line = none := by
  induction line with
  | nil => rfl
  | cons char rest ih =>
    obtain ⟨other, unmarked⟩ := unmarked_cons_iff.mp unmarked
    rw [resultPart?, other]
    exact ih unmarked

/-- A marker begins with one letter only. -/
theorem unmarked_append {before rest : List Char} (free : 't' ∉ before) (unmarked : Unmarked rest) :
    Unmarked (before ++ rest) := by
  induction before with
  | nil => exact unmarked
  | cons char before ih =>
    have first : marker = 't' :: "est result:".toList := rfl
    refine unmarked_cons_iff.mpr ⟨?_, ih (List.not_mem_of_not_mem_cons free)⟩
    rw [first, List.isPrefixOf_cons_cons, beq_false_of_ne (List.ne_of_not_mem_cons free)]
    rfl

/-- There is a blank in a marker. -/
theorem unmarked_of_plain {chars : List Char} (plain : Plain chars) : Unmarked chars := by
  intro inside
  have blank : ' ' ∈ chars := inside.subset (by decide)
  exact absurd (plain ' ' blank) (by decide)

/-! ### A carriage return at the end of a line -/

theorem isPrefixOf_marker_return (line : List Char) :
    marker.isPrefixOf (line ++ ['\r']) = marker.isPrefixOf line := by
  rw [Bool.eq_iff_iff, List.isPrefixOf_iff_prefix, List.isPrefixOf_iff_prefix, List.prefix_concat_iff]
  refine or_iff_right fun same => ?_
  have last := congrArg List.getLast? same
  rw [List.getLast?_concat] at last
  exact absurd last (by decide)

theorem beforeMarker_return (line : List Char) :
    beforeMarker (line ++ ['\r']) = beforeMarker line ∨
      beforeMarker (line ++ ['\r']) = beforeMarker line ++ ['\r'] := by
  induction line with
  | nil => exact .inr rfl
  | cons char rest ih =>
    rw [List.cons_append, beforeMarker, beforeMarker, ← List.cons_append, isPrefixOf_marker_return]
    split
    · exact .inl rfl
    · rcases ih with same | same <;> rw [same]
      · exact .inl rfl
      · exact .inr rfl

theorem resultPart?_return (line : List Char) :
    resultPart? (line ++ ['\r']) = resultPart? line ∨
      ∃ part, resultPart? line = some part ∧
        resultPart? (line ++ ['\r']) = some (part ++ ['\r']) := by
  induction line with
  | nil => exact .inl rfl
  | cons char rest ih =>
    rw [List.cons_append, resultPart?, resultPart?, ← List.cons_append, isPrefixOf_marker_return]
    split
    · rename_i begins
      have long := (List.isPrefixOf_iff_prefix.mp begins).length_le
      rw [List.drop_append_of_le_length long]
      rcases beforeMarker_return ((char :: rest).drop marker.length) with same | same <;> rw [same]
      · exact .inl rfl
      · exact .inr ⟨_, rfl, rfl⟩
    · exact ih

theorem cutAt_return (chars : List Char) :
    ∃ front last, cutAt ';' chars = front ++ [last] ∧
      cutAt ';' (chars ++ ['\r']) = front ++ [last ++ ['\r']] := by
  unfold cutAt
  induction chars with
  | nil => exact ⟨[], [], rfl, rfl⟩
  | cons char rest ih =>
    obtain ⟨front, last, cut, cutReturn⟩ := ih
    rw [List.cons_append, List.splitOn_cons_eq_if_modifyHead, List.splitOn_cons_eq_if_modifyHead, cut,
      cutReturn]
    split
    · exact ⟨[] :: front, last, rfl, rfl⟩
    · cases front with
      | nil => exact ⟨[], char :: last, rfl, rfl⟩
      | cons first front => exact ⟨(char :: first) :: front, last, rfl, rfl⟩

theorem addPart_return (tally : Tally) (part : List Char) :
    addPart tally (part ++ ['\r']) = addPart tally part := by
  rw [addPart, Text.tokens_append_blank part (Text.blank_nil.cons (by decide)), addPart]

/-- **A carriage return at the end of a line** makes no difference. -/
theorem addLine_return (tally : Option Tally) (line : List Char) :
    addLine tally (line ++ ['\r']) = addLine tally line := by
  rcases resultPart?_return line with same | ⟨part, found, foundReturn⟩
  · rw [addLine, same, addLine]
  · obtain ⟨front, last, cut, cutReturn⟩ := cutAt_return part
    rw [addLine, foundReturn, addLine, found]
    dsimp only
    rw [cut, cutReturn, List.foldl_concat, List.foldl_concat, addPart_return]

/-! ### Counts -/

theorem reverse_append_pair (before : List (List Char)) (word kind : List Char) :
    (before ++ [word, kind]).reverse = kind :: word :: before.reverse := by
  rw [List.reverse_append]
  rfl

/-- A part that ends in a count and a kind adds the count, if the kind is one that is added up. -/
theorem addPart_of_count (tally : Tally) {part : List Char} (before : List (List Char)) (count : Count)
    (kind : List Char) (split : Text.tokens part = before ++ [count.word.toList, kind]) :
    addPart tally part =
      if kind = "passed".toList then
        { tally with passed := addCounts tally.passed count.number }
      else if kind = "failed".toList then
        { tally with failed := addCounts tally.failed count.number }
      else if kind = "ignored".toList then
        { tally with ignored := addCounts tally.ignored count.number }
      else tally := by
  rw [addPart, split, reverse_append_pair]
  dsimp only
  rw [Text.readDecimal?_eq_some_iff.mpr count.decimal]

theorem addPart_of_no_count (tally : Tally) {part : List Char} (before : List (List Char))
    (word kind : List Char) (split : Text.tokens part = before ++ [word, kind])
    (other : Text.readDecimal? word = none) : addPart tally part = tally := by
  rw [addPart, split, reverse_append_pair]
  dsimp only
  rw [other]

/-- A word in which no semicolon stands. -/
structure Undivided (word : List Char) : Prop where
  whole : Word word
  undivided : ';' ∉ word

theorem Count.not_mem (count : Count) {char : Char} (other : char ∉ Text.decimalChars) :
    char ∉ count.word.toList :=
  fun member => other (count.decimal.mem char member)

theorem Count.isUndivided (count : Count) : Undivided count.word.toList :=
  ⟨count.decimal.word, count.not_mem (by decide)⟩

/-- The words that lines of results are made of, apart from counts and times. -/
def fixedWords : List String :=
  ["ok.", "FAILED.", "passed", "failed", "ignored", "measured", "filtered", "out", "finished", "in"]

theorem undivided_of_fixed {word : String} (fixed : word ∈ fixedWords) : Undivided word.toList := by
  have each : ∀ known ∈ fixedWords, known.toList ≠ [] ∧ known.toList.any Text.isBlank = false ∧
      ';' ∉ known.toList := by
    decide
  obtain ⟨nonempty, none, undivided⟩ := each word fixed
  exact ⟨⟨nonempty, Text.plain_of_any none⟩, undivided⟩

namespace ResultLine

theorem verdict_mem (line : ResultLine) : line.verdict ∈ fixedWords := by
  unfold verdict
  split <;> decide

theorem not_mem_verdict (line : ResultLine) {char : Char} (good : char ∉ "ok.".toList)
    (bad : char ∉ "FAILED.".toList) : char ∉ line.verdict.toList := by
  unfold verdict
  split
  · exact good
  · exact bad

theorem undivided_parts (line : ResultLine) :
    ∀ words ∈ line.parts, ∀ word ∈ words, Undivided word := by
  have fixed {word : String} (listed : word ∈ fixedWords) := undivided_of_fixed listed
  have counted (count : Count) := count.isUndivided
  have timed : ∀ words ∈ line.timeParts, ∀ word ∈ words, Undivided word := by
    unfold timeParts
    cases line.time? with
    | none => nofun
    | some time =>
      simp only [List.forall_mem_singleton, List.forall_mem_cons]
      exact ⟨fixed (by decide), fixed (by decide), ⟨time.whole, time.undivided⟩⟩
  refine List.forall_mem_append.mpr ⟨?_, timed⟩
  simp only [List.forall_mem_cons, List.not_mem_nil, false_implies, implies_true, and_true]
  exact ⟨⟨fixed line.verdict_mem, counted _, fixed (by decide)⟩, ⟨counted _, fixed (by decide)⟩,
    ⟨counted _, fixed (by decide)⟩, ⟨counted _, fixed (by decide)⟩,
    ⟨counted _, fixed (by decide), fixed (by decide)⟩⟩

/-- What stands after the marker is cut into these parts. -/
theorem cutAt_tail (line : ResultLine) :
    cutAt ';' line.tail.toList = line.parts.map afterBlanks := by
  rw [toList_tail]
  refine List.splitOn_intercalate ';' ?_ (by simp [parts])
  rw [List.forall_mem_map]
  intro words listed inside
  obtain ⟨word, listedWord, inside⟩ := List.mem_flatMap.mp inside
  rcases List.mem_cons.mp inside with impossible | inside
  · exact absurd impossible (by decide)
  · exact (line.undivided_parts words listed word listedWord).undivided inside

theorem tokens_part (line : ResultLine) {words : List (List Char)} (listed : words ∈ line.parts) :
    Text.tokens (afterBlanks words) = words :=
  Text.tokens_afterBlanks fun word member => (line.undivided_parts words listed word member).whole

/-- What the line adds to sums. -/
def addTo (line : ResultLine) (tally : Tally) : Tally where
  passed := addCounts tally.passed line.passed.number
  failed := addCounts tally.failed line.failed.number
  ignored := addCounts tally.ignored line.ignored.number

/-- Times are no counts. -/
theorem foldl_addPart_timeParts (line : ResultLine) (tally : Tally) :
    (line.timeParts.map afterBlanks).foldl addPart tally = tally := by
  unfold timeParts
  cases known : line.time? with
  | none => rfl
  | some time =>
    have listed : ["finished".toList, "in".toList, time.word.toList] ∈ line.timeParts := by
      rw [timeParts, known]
      exact List.mem_cons_self
    exact addPart_of_no_count tally ["finished".toList] "in".toList time.word.toList
      (line.tokens_part (List.mem_append_right _ listed)) (by decide)

/-- **The parts of the line** add its counts. -/
theorem foldl_addPart_parts (line : ResultLine) (tally : Tally) :
    (line.parts.map afterBlanks).foldl addPart tally = line.addTo tally := by
  have passed (tally : Tally) :
      addPart tally
          (afterBlanks [line.verdict.toList, line.passed.word.toList, "passed".toList]) =
        { tally with passed := addCounts tally.passed line.passed.number } := by
    refine (addPart_of_count tally [line.verdict.toList] line.passed "passed".toList
      (line.tokens_part ?_)).trans ?_
    · simp [parts]
    · rw [if_pos rfl]
  have failed (tally : Tally) :
      addPart tally (afterBlanks [line.failed.word.toList, "failed".toList]) =
        { tally with failed := addCounts tally.failed line.failed.number } := by
    refine (addPart_of_count tally [] line.failed "failed".toList (line.tokens_part ?_)).trans ?_
    · simp [parts]
    · rw [if_neg (by decide), if_pos rfl]
  have ignored (tally : Tally) :
      addPart tally (afterBlanks [line.ignored.word.toList, "ignored".toList]) =
        { tally with ignored := addCounts tally.ignored line.ignored.number } := by
    refine (addPart_of_count tally [] line.ignored "ignored".toList (line.tokens_part ?_)).trans ?_
    · simp [parts]
    · rw [if_neg (by decide), if_neg (by decide), if_pos rfl]
  have measured (tally : Tally) :
      addPart tally (afterBlanks [line.measured.word.toList, "measured".toList]) = tally := by
    refine (addPart_of_count tally [] line.measured "measured".toList (line.tokens_part ?_)).trans ?_
    · simp [parts]
    · rw [if_neg (by decide), if_neg (by decide), if_neg (by decide)]
  have filtered (tally : Tally) :
      addPart tally (afterBlanks [line.filtered.word.toList, "filtered".toList, "out".toList]) =
        tally :=
    addPart_of_no_count tally [line.filtered.word.toList] "filtered".toList "out".toList
      (line.tokens_part (by simp [parts])) (by decide)
  rw [parts, List.map_append, List.foldl_append, line.foldl_addPart_timeParts]
  simp only [List.map_cons, List.map_nil, List.foldl_cons, List.foldl_nil]
  rw [passed, failed, ignored, measured, filtered]
  rfl

theorem unmarked_ending (line : ResultLine) :
    Unmarked ("tered out".toList ++ line.ending.toList) := by
  unfold ending
  cases line.time? with
  | none =>
    unfold Unmarked
    decide
  | some time =>
    have cut : "tered out".toList ++ ("; finished in " ++ time.word).toList =
        't' :: ("ered ou".toList ++ 't' :: ("; finished in ".toList ++ time.word.toList)) := by
      rw [String.toList_append]
      rfl
    have last : Unmarked ("; finished in ".toList ++ time.word.toList) :=
      unmarked_append (by decide) (unmarked_of_plain time.whole.plain)
    rw [cut]
    refine unmarked_cons_iff.mpr ⟨rfl, unmarked_append (by decide) ?_⟩
    exact unmarked_cons_iff.mpr ⟨rfl, last⟩

/-- What stands after the marker has no further one. -/
theorem unmarked_tail (line : ResultLine) : Unmarked line.tail.toList := by
  have split : line.tail.toList =
      (" " ++ line.verdict ++ " " ++ line.passed.word ++ " passed; " ++ line.failed.word ++
        " failed; " ++ line.ignored.word ++ " ignored; " ++ line.measured.word ++ " measured; " ++
        line.filtered.word ++ " fil").toList ++ ("tered out".toList ++ line.ending.toList) := by
    unfold tail
    simp only [String.toList_append, List.append_assoc]
    rfl
  have counted (count : Count) : 't' ∉ count.word.toList := count.not_mem (by decide)
  have judged : 't' ∉ line.verdict.toList := line.not_mem_verdict (by decide) (by decide)
  rw [split]
  refine unmarked_append ?_ line.unmarked_ending
  simp only [String.toList_append, List.mem_append, not_or, counted, judged]
  decide

/-- The line goes on to its end. -/
theorem unbroken_text (line : ResultLine) : '\n' ∉ line.text.toList := by
  have counted (count : Count) : '\n' ∉ count.word.toList := count.not_mem (by decide)
  have judged : '\n' ∉ line.verdict.toList := line.not_mem_verdict (by decide) (by decide)
  have ended : '\n' ∉ line.ending.toList := by
    unfold ending
    cases line.time? with
    | none => decide
    | some time =>
      have timed : '\n' ∉ time.word.toList := fun inside =>
        absurd (time.whole.plain '\n' inside) (by decide)
      simp only [String.toList_append, List.mem_append, not_or, timed]
      decide
  unfold text tail
  simp only [String.toList_append, List.mem_append, not_or, line.unbroken, counted, judged, ended]
  decide

/-- **A line of results adds its counts** of passed, failed and ignored tests. -/
theorem addLine_text (line : ResultLine) (tally : Option Tally) :
    addLine tally line.text.toList = some (line.addTo (tally.getD {})) := by
  rw [addLine, toList_text, resultPart?_of_marker line.unmarked,
    beforeMarker_of_unmarked line.unmarked_tail]
  dsimp only
  rw [cutAt_tail, foldl_addPart_parts]

end ResultLine

end PanelLink.Tally
