/-
**What a line of text means.**

* `Numeral` and `SignedNumeral`: a word that is a hexadecimal number, with or without a marker, and one
  with a plus sign before its digits;
* `Lists`: the line lists these numbers;
* `parseToken_eq_ok_iff`: which words are taken, and `numbersOfTokens_cases`: what comes of all words;
* **`parseLine_cases`**: what comes of a line.
-/

import PanelLink.Console
import PanelLink.Proofs.Text.Spacing
import PanelLink.Proofs.Text.Spelling

namespace PanelLink.Console

open Text (Spaced Spells numeralLimit)

/-! ### Words -/

/-- What may stand before the digits of a number. -/
def marks : List (List Char) :=
  ["".toList, "0x".toList, "0X".toList]

/-- **The word is a hexadecimal numeral** of a number that 32 bits hold. -/
structure Numeral (word : List Char) (number : Nat) : Prop where
  small : number < 2 ^ 32
  spelled : ∃ mark ∈ marks, ∃ digits, word = mark ++ digits ∧ Spells 16 digits number

/-- The word is such a numeral but for a plus sign before its digits. -/
structure SignedNumeral (word : List Char) (number : Nat) : Prop where
  small : number < 2 ^ 32
  spelled : ∃ mark ∈ marks, ∃ digits, word = mark ++ '+' :: digits ∧ Spells 16 digits number

/-- The word is taken for a number. -/
def Taken (word : List Char) (number : Nat) : Prop :=
  Numeral word number ∨ SignedNumeral word number

/-- **The line lists these numbers**, apart by white space. -/
def Lists (line : String) (numbers : List Nat) : Prop :=
  ∃ words, Spaced words line.toList ∧ List.Forall₂ Numeral words numbers

theorem unmarked_of_second_ne {first second : Char} {rest : List Char} (lower : second ≠ 'x')
    (upper : second ≠ 'X') : unmarked (first :: second :: rest) = first :: second :: rest := by
  unfold unmarked
  split <;> simp_all

theorem unmarked_of_spells {digits : List Char} {number : Nat} (spells : Spells 16 digits number) :
    unmarked digits = digits := by
  obtain ⟨-, values, shown, -⟩ := spells
  cases shown with
  | nil => rfl
  | cons _ others =>
    cases others with
    | nil => simp [unmarked]
    | cons isDigit _ =>
      exact unmarked_of_second_ne (isDigit.ne (Nat.le_refl 16) (by decide))
        (isDigit.ne (Nat.le_refl 16) (by decide))

theorem unmarked_plus (digits : List Char) : unmarked ('+' :: digits) = '+' :: digits := by
  simp [unmarked]

/-- A mark is taken off, and nothing else of a text that has none itself. -/
theorem unmarked_append {mark text : List Char} (isMark : mark ∈ marks) (bare : unmarked text = text) :
    unmarked (mark ++ text) = text := by
  simp only [marks, List.mem_cons, List.not_mem_nil, or_false] at isMark
  rcases isMark with rfl | rfl | rfl
  · exact bare
  · rfl
  · rfl

theorem exists_mark (word : List Char) : ∃ mark ∈ marks, word = mark ++ unmarked word := by
  unfold unmarked
  split
  · exact ⟨"0x".toList, by decide, rfl⟩
  · exact ⟨"0X".toList, by decide, rfl⟩
  · exact ⟨"".toList, by decide, rfl⟩

/-- **The words that are taken** are those that are read as numbers. -/
theorem parseToken_eq_ok_iff {word : List Char} {number : Nat} :
    parseToken word = .ok number ↔ Taken word number := by
  have read : parseToken word = .ok number ↔ Text.readNumeral? 16 (unmarked word) = some number := by
    unfold parseToken Text.readHexadecimal?
    cases Text.readNumeral? 16 (unmarked word) <;> simp
  rw [read, Text.readNumeral?_eq_some_iff (Nat.le_refl 16) (by decide)]
  constructor
  · rintro ⟨small, digits, spells, same⟩
    obtain ⟨mark, isMark, split⟩ := exists_mark word
    rcases same with same | same
    · exact .inl ⟨small, mark, isMark, digits, same ▸ split, spells⟩
    · exact .inr ⟨small, mark, isMark, digits, same ▸ split, spells⟩
  · rintro (⟨small, mark, isMark, digits, rfl, spells⟩ | ⟨small, mark, isMark, digits, rfl, spells⟩)
    · rw [unmarked_append isMark (unmarked_of_spells spells)]
      exact ⟨small, digits, spells, .inl rfl⟩
    · rw [unmarked_append isMark (unmarked_plus digits)]
      exact ⟨small, digits, spells, .inr rfl⟩

/-- A word is taken for one number only. -/
theorem Taken.unique {word : List Char} {number other : Nat} (taken : Taken word number)
    (takenToo : Taken word other) : number = other :=
  Except.ok.inj ((parseToken_eq_ok_iff.mpr taken).symm.trans (parseToken_eq_ok_iff.mpr takenToo))

/-- A word that is not taken is refused as no number. -/
theorem parseToken_eq_error {word : List Char} (refused : ∀ number, ¬Taken word number) :
    parseToken word = .error (.invalidArgument .notHexadecimal) := by
  cases parsed : parseToken word with
  | ok number => exact absurd (parseToken_eq_ok_iff.mp parsed) (refused number)
  | error error =>
    unfold parseToken at parsed
    split at parsed <;> cases parsed
    rfl

/-! ### All words of a line -/

theorem exists_of_forall₂ {words : List (List Char)} {numbers : List Nat}
    {entry : List Char → Nat → Prop} (all : List.Forall₂ entry words numbers) :
    ∀ word ∈ words, ∃ number, entry word number := by
  induction all with
  | nil => exact nofun
  | cons first _ ih => exact List.forall_mem_cons.mpr ⟨⟨_, first⟩, ih⟩

/-- **What comes of words**, with room for so many numbers. -/
theorem numbersOfTokens_cases (room : Nat) (words : List (List Char)) :
    (∃ numbers, List.Forall₂ Taken words numbers ∧ words.length ≤ room ∧
      numbersOfTokens room words = .ok numbers) ∨
    ((∀ word ∈ words.take (room + 1), ∃ number, Taken word number) ∧ room < words.length ∧
      numbersOfTokens room words = .error .resourceExhausted) ∨
    ((∃ word ∈ words.take (room + 1), ∀ number, ¬Taken word number) ∧
      numbersOfTokens room words = .error (.invalidArgument .notHexadecimal)) := by
  induction words generalizing room with
  | nil => exact .inl ⟨[], .nil, Nat.zero_le _, by rw [numbersOfTokens]⟩
  | cons word words ih =>
    by_cases taken : ∃ number, Taken word number
    · obtain ⟨number, taken⟩ := taken
      have parsed := parseToken_eq_ok_iff.mpr taken
      cases room with
      | zero =>
        refine .inr (.inl ⟨List.forall_mem_singleton.mpr ⟨number, taken⟩, Nat.zero_lt_succ _, ?_⟩)
        rw [numbersOfTokens, parsed]
        rfl
      | succ room =>
        have step : numbersOfTokens (room + 1) (word :: words) =
            (numbersOfTokens room words).map (number :: ·) := by
          rw [numbersOfTokens, parsed]
          show (numbersOfTokens room words >>= _) = _
          cases numbersOfTokens room words <;> rfl
        rw [step]
        rcases ih room with
          ⟨numbers, all, few, rest⟩ | ⟨all, many, rest⟩ | ⟨⟨other, member, refused⟩, rest⟩
        · exact .inl ⟨number :: numbers, .cons taken all, Nat.succ_le_succ few, by rw [rest]; rfl⟩
        · exact .inr (.inl ⟨List.forall_mem_cons.mpr ⟨⟨number, taken⟩, all⟩, Nat.succ_lt_succ many,
            by rw [rest]; rfl⟩)
        · exact .inr (.inr ⟨⟨other, List.mem_cons_of_mem word member, refused⟩, by rw [rest]; rfl⟩)
    · refine .inr (.inr ⟨⟨word, List.mem_cons_self, not_exists.mp taken⟩, ?_⟩)
      rw [numbersOfTokens, parseToken_eq_error (not_exists.mp taken)]
      rfl

/-- **What comes of a line**: its numbers if it has some and not too many, one error if there are too
many, and another one if there is none or one that is not taken comes before. -/
theorem parseLine_cases (line : String) :
    (∃ register numbers, List.Forall₂ Taken (Text.tokens line.toList) (register :: numbers) ∧
      numbers.length < maxNumbersPerLine ∧ parseLine line = .ok (register, numbers)) ∨
    ((∀ word ∈ (Text.tokens line.toList).take (maxNumbersPerLine + 1), ∃ number, Taken word number) ∧
      maxNumbersPerLine < (Text.tokens line.toList).length ∧
        parseLine line = .error .resourceExhausted) ∨
    ((Text.tokens line.toList = [] ∨
        ∃ word ∈ (Text.tokens line.toList).take (maxNumbersPerLine + 1), ∀ number, ¬Taken word number) ∧
      ∃ misuse, parseLine line = .error (.invalidArgument misuse)) := by
  have refuses {error : AccessError}
      (read : numbersOfTokens maxNumbersPerLine (Text.tokens line.toList) = .error error) :
      parseLine line = .error error := by
    unfold parseLine
    rw [read]
    rfl
  rcases numbersOfTokens_cases maxNumbersPerLine (Text.tokens line.toList) with
    ⟨numbers, all, few, read⟩ | ⟨all, many, read⟩ | ⟨refused, read⟩
  · have shorter := all.length_eq
    cases numbers with
    | nil =>
      refine .inr (.inr ⟨.inl (List.length_eq_zero_iff.mp shorter), .emptyCommand, ?_⟩)
      unfold parseLine
      rw [read]
      rfl
    | cons register numbers =>
      rw [shorter] at few
      refine .inl ⟨register, numbers, all, few, ?_⟩
      unfold parseLine
      rw [read]
      rfl
  · exact .inr (.inl ⟨all, many, refuses read⟩)
  · exact .inr (.inr ⟨.inr refused, _, refuses read⟩)

/-- **A line of words that are taken** and not too many is parsed as their numbers. -/
theorem parseLine_of_taken {line : String} {register : Nat} {numbers : List Nat}
    (taken : List.Forall₂ Taken (Text.tokens line.toList) (register :: numbers))
    (few : numbers.length < maxNumbersPerLine) : parseLine line = .ok (register, numbers) := by
  rcases parseLine_cases line with
    ⟨first, others, takenToo, -, parsed⟩ | ⟨-, many, -⟩ | ⟨refused, -⟩
  · have unique : Relator.RightUnique Taken := fun _ _ _ taken takenToo => taken.unique takenToo
    cases unique.forall₂ takenToo taken
    exact parsed
  · rw [taken.length_eq] at many
    exact absurd few (Nat.not_lt.mpr (Nat.le_of_lt_succ many))
  · rcases refused with none | ⟨word, member, refused⟩
    · rw [none] at taken
      cases taken
    · obtain ⟨number, entry⟩ := exists_of_forall₂ taken word (List.mem_of_mem_take member)
      exact absurd entry (refused number)

/-- A line that begins with too many words that are taken is refused as too long. -/
theorem parseLine_of_many {line : String}
    (taken : ∀ word ∈ (Text.tokens line.toList).take (maxNumbersPerLine + 1),
      ∃ number, Taken word number)
    (many : maxNumbersPerLine < (Text.tokens line.toList).length) :
    parseLine line = .error .resourceExhausted := by
  rcases parseLine_cases line with
    ⟨register, numbers, all, few, -⟩ | ⟨-, -, parsed⟩ | ⟨none | ⟨word, member, refused⟩, -⟩
  · rw [all.length_eq] at many
    exact absurd few (Nat.not_lt.mpr (Nat.le_of_lt_succ many))
  · exact parsed
  · rw [none] at many
    exact absurd many (Nat.not_lt_zero _)
  · obtain ⟨number, entry⟩ := taken word member
    exact absurd entry (refused number)

end PanelLink.Console
