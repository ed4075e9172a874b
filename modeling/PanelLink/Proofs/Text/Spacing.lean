/-
**Words apart by white space.**

* `Spaced`: a text is made of these words, with blanks around them and at least one between two;
* `Plain`: a text has no blanks, and `afterBlanks`: words with one blank before each;
* `spaced_tokens`: every text is made of its tokens;
* **`tokens_eq_iff`**: and of no other words.
-/

import Mathlib.Data.List.Basic
import PanelLink.Text.Blank

namespace PanelLink.Text

/-- The text has no other characters than blanks. -/
def Blank (chars : List Char) : Prop :=
  ∀ char ∈ chars, isBlank char = true

/-- None of the characters is a blank. -/
def Plain (chars : List Char) : Prop :=
  ∀ char ∈ chars, isBlank char = false

/-- Something that is written without blanks. -/
structure Word (chars : List Char) : Prop where
  nonempty : chars ≠ []
  plain : ∀ char ∈ chars, isBlank char = false

/-- **A text is made of words** in order, with blanks before, after and between them. -/
inductive Spaced : List (List Char) → List Char → Prop
  | none {gap : List Char} (blank : Blank gap) : Spaced [] gap
  | last {gap word : List Char} (blank : Blank gap) (whole : Word word) : Spaced [word] (gap ++ word)
  | next {gap word rest : List Char} {char : Char} {words : List (List Char)} (blank : Blank gap)
      (whole : Word word) (ends : isBlank char = true) (spaced : Spaced words (char :: rest)) :
    Spaced (word :: words) (gap ++ (word ++ char :: rest))

/-- Plain is what is found to have no blanks. -/
theorem plain_of_any {chars : List Char} (none : chars.any isBlank = false) : Plain chars :=
  fun char member => Bool.eq_false_iff.mpr (List.any_eq_false.mp none char member)

theorem blank_nil : Blank [] :=
  nofun

theorem Blank.cons {char : Char} {gap : List Char} (white : isBlank char = true) (blank : Blank gap) :
    Blank (char :: gap) :=
  List.forall_mem_cons.mpr ⟨white, blank⟩

/-- One more blank before the words. -/
theorem Spaced.cons {char : Char} {words : List (List Char)} {chars : List Char}
    (white : isBlank char = true) (spaced : Spaced words chars) : Spaced words (char :: chars) := by
  cases spaced with
  | none blank => exact .none (blank.cons white)
  | last blank whole => exact .last (blank.cons white) whole
  | next blank whole ends rest => exact .next (blank.cons white) whole ends rest

/-- Blanks after the words are no words. -/
theorem Spaced.append_blank {words : List (List Char)} {chars gap : List Char}
    (spaced : Spaced words chars) (blank : Blank gap) : Spaced words (chars ++ gap) := by
  induction spaced with
  | none before => exact .none (List.forall_mem_append.mpr ⟨before, blank⟩)
  | last before whole =>
    cases gap with
    | nil =>
      rw [List.append_nil]
      exact .last before whole
    | cons char gap =>
      rw [List.append_assoc]
      exact .next before whole (blank char List.mem_cons_self) (.none blank)
  | next before whole ends _ ih =>
    rw [List.append_assoc, List.append_assoc]
    exact .next before whole ends ih

/-- Words with one blank before each. -/
def afterBlanks (words : List (List Char)) : List Char :=
  words.flatMap (' ' :: ·)

theorem spaced_afterBlanks {words : List (List Char)} (whole : ∀ word ∈ words, Word word) :
    Spaced words (afterBlanks words) := by
  have blank : Blank [' '] := blank_nil.cons (by decide)
  induction words with
  | nil => exact .none blank_nil
  | cons word others ih =>
    obtain ⟨first, rest⟩ := List.forall_mem_cons.mp whole
    have spaced := ih rest
    show Spaced _ ([' '] ++ (word ++ afterBlanks others))
    cases others with
    | nil =>
      rw [afterBlanks, List.flatMap_nil, List.append_nil]
      exact .last blank first
    | cons => exact .next blank first (by decide) spaced

theorem word_reverse {pending : List Char} (nonempty : pending ≠ [])
    (plain : ∀ char ∈ pending, isBlank char = false) : Word pending.reverse where
  nonempty := List.reverse_ne_nil_iff.mpr nonempty
  plain char member := plain char (List.mem_reverse.mp member)

/-- The runs found in a text, the first one continued, make up the text. -/
theorem spaced_tokensFrom {pending chars : List Char}
    (plain : ∀ char ∈ pending, isBlank char = false) :
    Spaced (tokensFrom pending chars) (pending.reverse ++ chars) := by
  induction chars generalizing pending with
  | nil =>
    rw [tokensFrom, List.append_nil]
    cases pending with
    | nil => exact .none blank_nil
    | cons char pending => exact .last blank_nil (word_reverse nofun plain)
  | cons char rest ih =>
    have after : Spaced (tokensFrom [] rest) rest := ih nofun
    rw [tokensFrom]
    by_cases white : isBlank char = true
    · rw [if_pos white]
      cases pending with
      | nil => exact after.cons white
      | cons first pending =>
        exact .next blank_nil (word_reverse nofun plain) white (after.cons white)
    · have continued : pending.reverse ++ char :: rest = (char :: pending).reverse ++ rest := by
        rw [List.reverse_cons, List.append_assoc, List.singleton_append]
      rw [if_neg white, continued]
      exact ih (List.forall_mem_cons.mpr ⟨Bool.eq_false_iff.mpr white, plain⟩)

/-- **Every text is made of its tokens.** -/
theorem spaced_tokens (chars : List Char) : Spaced (tokens chars) chars :=
  spaced_tokensFrom nofun

theorem tokens_append_of_blank {gap : List Char} (blank : Blank gap) (chars : List Char) :
    tokens (gap ++ chars) = tokens chars := by
  induction gap with
  | nil => rfl
  | cons char gap ih =>
    obtain ⟨white, blank⟩ := List.forall_mem_cons.mp blank
    rw [← ih blank, List.cons_append, tokens, tokensFrom, if_pos white]
    rfl

/-- Characters that are not blank belong to the run that has begun. -/
theorem tokensFrom_append {word : List Char} (plain : ∀ char ∈ word, isBlank char = false)
    (pending chars : List Char) :
    tokensFrom pending (word ++ chars) = tokensFrom (word.reverse ++ pending) chars := by
  induction word generalizing pending with
  | nil => rfl
  | cons char word ih =>
    obtain ⟨first, others⟩ := List.forall_mem_cons.mp plain
    rw [List.cons_append, tokensFrom, if_neg (Bool.eq_false_iff.mp first), ih others,
      List.reverse_cons, List.append_assoc, List.singleton_append]

theorem tokensFrom_reverse_of_ne_nil {word : List Char} (nonempty : word ≠ []) :
    tokensFrom word.reverse [] = [word] := by
  have some : word.reverse.isEmpty = false :=
    List.isEmpty_eq_false_iff.mpr (List.reverse_ne_nil_iff.mpr nonempty)
  rw [tokensFrom, some, List.reverse_reverse]
  rfl

/-- A text has the tokens that it is made of. -/
theorem Spaced.tokens_eq {words : List (List Char)} {chars : List Char} (spaced : Spaced words chars) :
    tokens chars = words := by
  induction spaced with
  | none blank =>
    have all := tokens_append_of_blank blank []
    rw [List.append_nil] at all
    exact all
  | last blank whole =>
    have alone := tokensFrom_append whole.plain [] []
    rw [List.append_nil, List.append_nil] at alone
    rw [tokens_append_of_blank blank, tokens, alone, tokensFrom_reverse_of_ne_nil whole.nonempty]
  | @next gap word rest char words blank whole ends _ ih =>
    have some : word.reverse.isEmpty = false :=
      List.isEmpty_eq_false_iff.mpr (List.reverse_ne_nil_iff.mpr whole.nonempty)
    rw [tokens, tokensFrom, if_pos ends] at ih
    rw [tokens_append_of_blank blank, tokens, tokensFrom_append whole.plain, List.append_nil,
      tokensFrom, if_pos ends, some, List.reverse_reverse]
    exact congrArg (word :: ·) ih

theorem tokens_append_blank (chars : List Char) {gap : List Char} (blank : Blank gap) :
    tokens (chars ++ gap) = tokens chars :=
  ((spaced_tokens chars).append_blank blank).tokens_eq

theorem tokens_afterBlanks {words : List (List Char)} (whole : ∀ word ∈ words, Word word) :
    tokens (afterBlanks words) = words :=
  (spaced_afterBlanks whole).tokens_eq

end PanelLink.Text
