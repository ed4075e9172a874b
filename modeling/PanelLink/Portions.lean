/-
**A list cut into portions.**

`portions size items` takes `size` items for each portion and leaves what remains to the last one.

* `flatten_portions`: the portions joined are the list;
* `length_le_of_mem_portions`: no portion is longer than asked for;
* `ne_nil_of_mem_portions`: no portion is empty.
-/

namespace PanelLink

variable {α : Type}

/-- The list cut into portions of `size` items, at least one, the last portion taking what
remains. -/
def portions (size : Nat) (items : List α) : List (List α) :=
  if items = [] then []
  else items.take (max size 1) :: portions size (items.drop (max size 1))
termination_by items.length
decreasing_by
  rename_i nonempty
  have := List.length_pos_iff.mpr nonempty
  simp only [List.length_drop]
  omega

@[simp] theorem portions_nil (size : Nat) : portions size ([] : List α) = [] := by
  rw [portions, if_pos rfl]

theorem portions_of_ne_nil (size : Nat) {items : List α} (nonempty : items ≠ []) :
    portions size items =
      items.take (max size 1) :: portions size (items.drop (max size 1)) := by
  rw [portions, if_neg nonempty]

/-- Nothing is lost, repeated or moved by cutting. -/
theorem flatten_portions (size : Nat) (items : List α) : (portions size items).flatten = items := by
  fun_induction portions size items with
  | case1 => rfl
  | case2 items nonempty ih => rw [List.flatten_cons, ih, List.take_append_drop]

/-- A portion holds at most as many items as asked for. -/
theorem length_le_of_mem_portions {size : Nat} (positive : 0 < size) {items portion : List α}
    (member : portion ∈ portions size items) : portion.length ≤ size := by
  fun_induction portions size items with
  | case1 => exact absurd member List.not_mem_nil
  | case2 items nonempty ih =>
    rcases List.mem_cons.mp member with rfl | later
    · rw [List.length_take]
      omega
    · exact ih later

theorem ne_nil_of_mem_portions {size : Nat} {items portion : List α}
    (member : portion ∈ portions size items) : portion ≠ [] := by
  fun_induction portions size items with
  | case1 => exact absurd member List.not_mem_nil
  | case2 items nonempty ih =>
    rcases List.mem_cons.mp member with rfl | later
    · have := List.length_pos_iff.mpr nonempty
      apply List.ne_nil_of_length_pos
      rw [List.length_take]
      omega
    · exact ih later

end PanelLink
