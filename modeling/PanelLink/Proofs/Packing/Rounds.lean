/-
**Repacking into a buffer of any length.**

The groups of the source and those of the buffer are gone through together, one of each in a round,
until a side has no whole group left. Whatever is left on either side, even most of a group, is neither
read nor written.

* `Repacking.Rounds`: this loop, with the number of its rounds and the buffer that it leaves;
* `Repacking.Regular.rounds`: what a repacking leaves in a buffer is what the loop leaves;
* `Rounds.count_eq`: there are as many rounds as the side with fewer groups allows;
* `Rounds.drop_after`: what follows the last group that is written stays as it was;
* `Rounds.take_after`: with more room, the same groups are written first.
-/

import PanelLink.Proofs.Packing.Groups

namespace PanelLink.Repacking

/-- Groups are not empty, and a full one turns into a full one. -/
structure Regular (repacking : Repacking) : Prop where
  source_pos : 0 < repacking.sourceGroup
  target_pos : 0 < repacking.targetGroup
  full : ∀ group : List Nat, group.length = repacking.sourceGroup →
    (repacking.convert group).length = repacking.targetGroup

/-- **The loop over the groups of both sides.** A round converts the next group of the source over the
next group of the buffer. -/
inductive Rounds (repacking : Repacking) : List Nat → List Nat → Nat → List Nat → Prop
  | stop {source buffer : List Nat}
      (short : source.length < repacking.sourceGroup ∨ buffer.length < repacking.targetGroup) :
      Rounds repacking source buffer 0 buffer
  | round {source buffer after : List Nat} {count : Nat}
      (more : repacking.sourceGroup ≤ source.length) (room : repacking.targetGroup ≤ buffer.length)
      (rest : Rounds repacking (source.drop repacking.sourceGroup)
        (buffer.drop repacking.targetGroup) count after) :
      Rounds repacking source buffer (count + 1)
        (repacking.convert (source.take repacking.sourceGroup) ++ after)

variable {repacking : Repacking} {source buffer after : List Nat} {count : Nat}

/-! ### One round -/

theorem groups_of_short {source room : Nat}
    (short : source < repacking.sourceGroup ∨ room < repacking.targetGroup) :
    repacking.groups source room = 0 := by
  rcases short with few | narrow
  · rw [groups, Nat.div_eq_of_lt few, Nat.zero_min]
  · rw [groups, Nat.div_eq_of_lt narrow, Nat.min_zero]

/-- Where a side has no whole group nothing is written. -/
theorem into_of_short
    (short : source.length < repacking.sourceGroup ∨ buffer.length < repacking.targetGroup) :
    repacking.into source buffer = buffer := by
  simp [into, produced, consumed, groups_of_short short]

theorem take_succ_mul (size : Nat) (items : List Nat) :
    items.take ((count + 1) * size) = items.take size ++ (items.drop size).take (count * size) := by
  rw [Nat.succ_mul, Nat.add_comm, List.take_add]

theorem drop_succ_mul (size : Nat) (items : List Nat) :
    items.drop ((count + 1) * size) = (items.drop size).drop (count * size) := by
  rw [Nat.succ_mul, Nat.add_comm, List.drop_drop]

namespace Regular

variable (regular : repacking.Regular)

include regular

theorem groups_of_room {source room : Nat} (more : repacking.sourceGroup ≤ source)
    (enough : repacking.targetGroup ≤ room) :
    repacking.groups source room =
      repacking.groups (source - repacking.sourceGroup) (room - repacking.targetGroup) + 1 := by
  rw [groups, Nat.div_eq_sub_div regular.source_pos more, Nat.div_eq_sub_div regular.target_pos enough,
    Nat.add_min_add_right]
  rfl

theorem all_of_full (full : source.length = repacking.sourceGroup) :
    repacking.all source = repacking.convert source := by
  have single := portions_flatten regular.source_pos (List.forall_mem_singleton.mpr full)
  rw [List.flatten_singleton] at single
  rw [all, single, List.flatMap_singleton]

/-- The first group is converted on its own. -/
theorem all_take (more : repacking.sourceGroup ≤ source.length) :
    repacking.all (source.take ((count + 1) * repacking.sourceGroup)) =
      repacking.convert (source.take repacking.sourceGroup) ++
        repacking.all ((source.drop repacking.sourceGroup).take (count * repacking.sourceGroup)) := by
  have full := List.length_take_of_le more
  rw [take_succ_mul, repacking.all_append regular.source_pos (by rw [full, Nat.mod_self]),
    regular.all_of_full full]

/-- **A round** of a repacking: the first group is written, and the rest goes after it. -/
theorem into_of_room (more : repacking.sourceGroup ≤ source.length)
    (room : repacking.targetGroup ≤ buffer.length) :
    repacking.into source buffer = repacking.convert (source.take repacking.sourceGroup) ++
      repacking.into (source.drop repacking.sourceGroup) (buffer.drop repacking.targetGroup) := by
  have first := regular.full _ (List.length_take_of_le more)
  have written : repacking.produced source buffer.length =
      repacking.convert (source.take repacking.sourceGroup) ++
        repacking.produced (source.drop repacking.sourceGroup)
          (buffer.drop repacking.targetGroup).length := by
    rw [produced, consumed, regular.groups_of_room more room, regular.all_take more, produced,
      consumed, List.length_drop, List.length_drop]
  simp only [into, written, List.length_append, first, List.append_assoc, List.drop_drop]

/-- As much is written as the groups take. -/
theorem length_produced (source : List Nat) (room : Nat) :
    (repacking.produced source room).length =
      repacking.groups source.length room * repacking.targetGroup := by
  have within : repacking.groups source.length room * repacking.sourceGroup ≤ source.length :=
    (Nat.le_div_iff_mul_le regular.source_pos).mp (Nat.min_le_left _ _)
  have taken := List.length_take_of_le within
  rw [produced, consumed, repacking.length_all (by rw [taken, Nat.mul_mod_left]) regular.source_pos
    regular.full, taken, Nat.mul_div_cancel _ regular.source_pos]

/-- **A repacking is its loop**: so many groups, and the buffer that the rounds leave. -/
theorem rounds (source buffer : List Nat) :
    repacking.Rounds source buffer (repacking.groups source.length buffer.length)
      (repacking.into source buffer) := by
  -- Every round shortens the source, since no group is empty.
  induction length : source.length using Nat.strongRecOn generalizing source buffer with
  | ind total ih =>
    subst length
    by_cases going : repacking.sourceGroup ≤ source.length ∧ repacking.targetGroup ≤ buffer.length
    · obtain ⟨more, room⟩ := going
      have fewer : (source.drop repacking.sourceGroup).length < source.length := by
        have := regular.source_pos
        rw [List.length_drop]
        omega
      have rest := ih _ fewer _ (buffer.drop repacking.targetGroup) rfl
      rw [List.length_drop, List.length_drop] at rest
      rw [regular.groups_of_room more room, regular.into_of_room more room]
      exact .round more room rest
    · have short : source.length < repacking.sourceGroup ∨ buffer.length < repacking.targetGroup := by
        omega
      rw [groups_of_short short, into_of_short short]
      exact .stop short

end Regular

/-! ### All rounds -/

namespace Rounds

variable (regular : repacking.Regular) (rounds : repacking.Rounds source buffer count after)

include rounds

/-- No round writes past the end of the buffer. -/
theorem mul_le_length : count * repacking.targetGroup ≤ buffer.length := by
  induction rounds with
  | stop => simp
  | round more room rest ih =>
    rw [List.length_drop] at ih
    rw [Nat.succ_mul]
    omega

include regular

/-- **Both sides stop together**, where the one with fewer whole groups ends. -/
theorem count_eq : count =
    min (source.length / repacking.sourceGroup) (buffer.length / repacking.targetGroup) := by
  induction rounds with
  | stop short => exact (groups_of_short short).symm
  | round more room rest ih =>
    rw [ih, List.length_drop, List.length_drop]
    exact (regular.groups_of_room more room).symm

/-- **What follows the groups that are written stays.** -/
theorem drop_after :
    after.drop (count * repacking.targetGroup) = buffer.drop (count * repacking.targetGroup) := by
  induction rounds with
  | stop => rfl
  | round more room rest ih =>
    rw [drop_succ_mul, List.drop_left' (regular.full _ (List.length_take_of_le more)), ih,
      drop_succ_mul]

/-- The buffer is what is written and then what it held. -/
theorem after_eq : after =
    after.take (count * repacking.targetGroup) ++ buffer.drop (count * repacking.targetGroup) := by
  rw [← drop_after regular rounds, List.take_append_drop]

theorem length_after : after.length = buffer.length := by
  induction rounds with
  | stop => rfl
  | round more room rest ih =>
    rw [List.length_append, ih, regular.full _ (List.length_take_of_le more), List.length_drop]
    omega

theorem length_written :
    (after.take (count * repacking.targetGroup)).length = count * repacking.targetGroup :=
  List.length_take_of_le (length_after regular rounds ▸ mul_le_length rounds)

/-- **More room changes nothing before**: the groups that fit are written in the same way. -/
theorem take_after {ample filled : List Nat} {all : Nat}
    (ran : repacking.Rounds source ample all filled) (fewer : count ≤ all) :
    filled.take (count * repacking.targetGroup) = after.take (count * repacking.targetGroup) := by
  induction rounds generalizing ample filled all with
  | stop => simp
  | round more room rest ih =>
    have first := regular.full _ (List.length_take_of_le more)
    cases ran with
    | stop => exact absurd fewer (Nat.not_succ_le_zero _)
    | round _ _ later =>
      rw [take_succ_mul, take_succ_mul, List.take_left' first, List.take_left' first,
        List.drop_left' first, List.drop_left' first, ih later (Nat.le_of_succ_le_succ fewer)]

end Rounds

end PanelLink.Repacking
