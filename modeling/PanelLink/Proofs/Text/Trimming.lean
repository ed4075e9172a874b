/-
**Text with blanks around it.**

* `Padded`: a text is this core with blanks before and after it;
* `padded_trim`: every text is what trimming leaves of it with blanks around;
* **`trim_eq_iff`**: trimming leaves a core without blanks exactly of the texts that are padded so.
-/

import Mathlib.Data.List.TakeWhile
import PanelLink.Proofs.Text.Spacing

namespace PanelLink.Text

/-- **The text is a core** with blanks before and after it. -/
def Padded (core text : List Char) : Prop :=
  ∃ before after, Blank before ∧ Blank after ∧ text = before ++ core ++ after

theorem blank_takeWhile (chars : List Char) : Blank (chars.takeWhile isBlank) :=
  fun _ member => List.mem_takeWhile_imp member

theorem Blank.reverse {gap : List Char} (blank : Blank gap) : Blank gap.reverse :=
  fun char member => blank char (List.mem_reverse.mp member)

theorem trimStart_append {gap : List Char} (blank : Blank gap) (chars : List Char) :
    trimStart (gap ++ chars) = trimStart chars :=
  List.dropWhile_append_of_pos blank

theorem trimStart_of_blank {gap : List Char} (blank : Blank gap) : trimStart gap = [] := by
  rw [trimStart, List.dropWhile_eq_nil_iff]
  exact blank

/-- Text that begins with a plain core is left as it is. -/
theorem trimStart_of_plain {core : List Char} (plain : Plain core) (nonempty : core ≠ [])
    (chars : List Char) : trimStart (core ++ chars) = core ++ chars := by
  cases core with
  | nil => exact absurd rfl nonempty
  | cons first others =>
    have first_plain := plain first List.mem_cons_self
    rw [trimStart, List.cons_append, List.dropWhile_cons_of_neg (by rw [first_plain]; decide)]

/-- **Every text is padded** to what trimming leaves of it. -/
theorem padded_trim (text : List Char) : Padded (trim text) text := by
  let rest := trimStart text
  refine ⟨text.takeWhile isBlank, (rest.reverse.takeWhile isBlank).reverse, blank_takeWhile text,
    (blank_takeWhile rest.reverse).reverse, ?_⟩
  have ends : trim text ++ (rest.reverse.takeWhile isBlank).reverse = rest := by
    show (trimStart rest.reverse).reverse ++ _ = rest
    rw [← List.reverse_append, trimStart, List.takeWhile_append_dropWhile, List.reverse_reverse]
  rw [List.append_assoc, ends]
  exact List.takeWhile_append_dropWhile.symm

theorem trim_of_padded {core text : List Char} (plain : Plain core) (padded : Padded core text) :
    trim text = core := by
  obtain ⟨before, after, blankBefore, blankAfter, rfl⟩ := padded
  unfold trim
  rw [List.append_assoc, trimStart_append blankBefore]
  by_cases empty : core = []
  · rw [empty, List.nil_append, trimStart_of_blank blankAfter]
    rfl
  · have plainToo : Plain core.reverse := fun char member => plain char (List.mem_reverse.mp member)
    have whole := trimStart_of_plain plainToo (List.reverse_ne_nil_iff.mpr empty) []
    rw [List.append_nil] at whole
    rw [trimStart_of_plain plain empty, List.reverse_append, trimStart_append blankAfter.reverse,
      whole, List.reverse_reverse]

/-- **What trimming leaves**, if it has no blanks inside. -/
theorem trim_eq_iff {core text : List Char} (plain : Plain core) :
    trim text = core ↔ Padded core text :=
  ⟨fun same => same ▸ padded_trim text, trim_of_padded plain⟩

end PanelLink.Text
