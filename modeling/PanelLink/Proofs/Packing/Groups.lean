/-
**Cutting at a boundary of groups changes nothing.**

A list whose length is a number of whole groups falls into exactly those groups, and a repacking of
two parts, the first of which ends with a group, is the two parts repacked.

* `portions_map`: cutting does not look at the items;
* `portions_append`, `portions_flatten`: how the cut of a list follows from the cut of its parts;
* `length_mod_of_mem_portions`: portions of whole groups hold whole groups;
* `length_portions`: whole groups are as many portions as there are groups;
* `dvd_length_iff`: parts hold whole groups exactly if no cut between two of them is inside a group;
* `Repacking.all_append`: repacking follows the parts;
* `Repacking.flatMap_all_portions`: cutting into portions of whole groups first makes no difference;
* `Repacking.flatMap_all`: what is kept of every group is kept of all;
* `Repacking.length_all` and `Repacking.into_of_room`: how much whole groups turn into, and that it is all
  written where there is room for it.
-/

import Mathlib.Data.List.Basic
import PanelLink.Packing.Repacking

namespace PanelLink

variable {α : Type}

/-- A part that ends at a boundary is cut on its own. -/
theorem portions_append {size : Nat} (positive : 0 < size) {front : List α}
    (whole : front.length % size = 0) (back : List α) :
    portions size (front ++ back) = portions size front ++ portions size back := by
  fun_induction portions size front with
  | case1 => rfl
  | case2 front nonempty ih =>
    have size_max : max size 1 = size := Nat.max_eq_left positive
    have long : size ≤ front.length := by
      have := List.length_pos_iff.mpr nonempty
      exact Nat.le_of_dvd this (Nat.dvd_of_mod_eq_zero whole)
    have rest : (front.drop size).length % size = 0 := by
      rwa [List.length_drop, ← Nat.mod_eq_sub_mod long]
    rw [size_max] at ih ⊢
    rw [portions_of_ne_nil size (List.append_ne_nil_of_left_ne_nil nonempty back), size_max,
      List.take_append_of_le_length long, List.drop_append_of_le_length long, ih rest,
      List.cons_append]

/-- Groups of one size, joined, are cut into the same groups again. -/
theorem portions_flatten {size : Nat} (positive : 0 < size) {groups : List (List α)}
    (full : ∀ group ∈ groups, group.length = size) : portions size groups.flatten = groups := by
  induction groups with
  | nil => exact portions_nil size
  | cons group groups ih =>
    have exact_size : group.length = size := full group List.mem_cons_self
    have nonempty : group ≠ [] := List.ne_nil_of_length_pos (exact_size ▸ positive)
    have single : portions size group = [group] := by
      rw [portions_of_ne_nil size nonempty, Nat.max_eq_left positive, ← exact_size,
        List.take_length, List.drop_length, portions_nil]
    rw [List.flatten_cons, portions_append positive (by rw [exact_size, Nat.mod_self]), single,
      ih fun other member => full other (List.mem_cons_of_mem group member)]
    rfl

/-- Whole groups are all full. -/
theorem length_of_mem_portions {size : Nat} (positive : 0 < size) {items portion : List α}
    (whole : items.length % size = 0) (member : portion ∈ portions size items) :
    portion.length = size := by
  fun_induction portions size items with
  | case1 => exact absurd member List.not_mem_nil
  | case2 items nonempty ih =>
    have long : size ≤ items.length :=
      Nat.le_of_dvd (List.length_pos_iff.mpr nonempty) (Nat.dvd_of_mod_eq_zero whole)
    rw [Nat.max_eq_left positive] at ih member
    rcases List.mem_cons.mp member with rfl | later
    · rw [List.length_take, Nat.min_eq_left long]
    · refine ih ?_ later
      rwa [List.length_drop, ← Nat.mod_eq_sub_mod long]

/-- Portions of whole groups of a list of whole groups, the last one too, hold whole groups. -/
theorem length_mod_of_mem_portions {size group : Nat} (positive : 0 < size)
    (groups : size % group = 0) {items portion : List α} (whole : items.length % group = 0)
    (member : portion ∈ portions size items) : portion.length % group = 0 := by
  fun_induction portions size items with
  | case1 => exact absurd member List.not_mem_nil
  | case2 items nonempty ih =>
    rw [Nat.max_eq_left positive] at ih member
    rcases List.mem_cons.mp member with rfl | later
    · rw [List.length_take]
      rcases Nat.le_total size items.length with long | short
      · rwa [Nat.min_eq_left long]
      · rwa [Nat.min_eq_right short]
    · refine ih ?_ later
      rw [List.length_drop]
      exact Nat.mod_eq_zero_of_dvd (Nat.dvd_sub (Nat.dvd_of_mod_eq_zero whole)
        (Nat.dvd_of_mod_eq_zero groups))

theorem mem_of_mem_portions {size : Nat} {items portion : List α} {item : α}
    (member : portion ∈ portions size items) (inPortion : item ∈ portion) : item ∈ items := by
  rw [← flatten_portions size items]
  exact List.mem_flatten_of_mem member inPortion

/-- Whole groups are as many portions as there are groups. -/
theorem length_portions {size : Nat} (positive : 0 < size) {items : List α}
    (whole : items.length % size = 0) : (portions size items).length = items.length / size := by
  have joined := congrArg List.length (flatten_portions size items)
  have full : ∀ portion ∈ portions size items, portion.length = size := fun portion member =>
    length_of_mem_portions positive whole member
  rw [List.length_flatten, List.map_congr_left full, List.map_const', List.sum_replicate_nat]
    at joined
  rw [← joined, Nat.mul_div_cancel _ positive]

/-- No portion is longer than the list. -/
theorem length_le_min_of_mem_portions {size : Nat} (positive : 0 < size) {items portion : List α}
    (member : portion ∈ portions size items) : portion.length ≤ min size items.length := by
  have within : portion.length ≤ ((portions size items).flatten).length :=
    (List.sublist_flatten_of_mem member).length_le
  rw [flatten_portions] at within
  exact Nat.le_min.mpr ⟨length_le_of_mem_portions positive member, within⟩

/-- The first portion is as long as it may be. -/
theorem exists_mem_portions_length {size : Nat} (positive : 0 < size) {items : List α}
    (nonempty : items ≠ []) :
    ∃ portion ∈ portions size items, portion.length = min size items.length := by
  rw [portions_of_ne_nil size nonempty, Nat.max_eq_left positive]
  exact ⟨items.take size, List.mem_cons_self, List.length_take⟩

/-- The first portions of a list hold its first items. -/
theorem flatten_take_portions (size count : Nat) (items : List α) :
    ((portions size items).take count).flatten = items.take (max size 1 * count) := by
  induction count generalizing items with
  | zero => rfl
  | succ count ih =>
    by_cases empty : items = []
    · rw [empty, portions_nil, List.take_nil, List.take_nil]
      rfl
    · rw [portions_of_ne_nil size empty, List.take_succ_cons, List.flatten_cons, ih, ← List.take_add,
        Nat.mul_succ, Nat.add_comm (max size 1)]

/-- Parts hold whole groups exactly if all first parts together do. -/
theorem dvd_length_iff {group : Nat} {parts : List (List α)} :
    (∀ part ∈ parts, group ∣ part.length) ↔
      ∀ count, group ∣ ((parts.take count).flatten).length := by
  induction parts with
  | nil => simp
  | cons part parts ih =>
    refine ⟨fun whole count => ?_, fun whole => ?_⟩
    · cases count with
      | zero => exact Nat.dvd_zero group
      | succ count =>
        rw [List.take_succ_cons, List.flatten_cons, List.length_append]
        exact Nat.dvd_add (whole part List.mem_cons_self)
          (ih.mp (fun other member => whole other (List.mem_cons_of_mem part member)) count)
    · have first : group ∣ part.length := by
        have one := whole 1
        rwa [List.take_succ_cons, List.take_zero, List.flatten_singleton] at one
      have others : ∀ count, group ∣ ((parts.take count).flatten).length := fun count => by
        have more := whole (count + 1)
        rw [List.take_succ_cons, List.flatten_cons, List.length_append] at more
        exact (Nat.dvd_add_right first).mp more
      intro other member
      rcases List.mem_cons.mp member with rfl | later
      · exact first
      · exact ih.mpr others other later

/-- What is done item by item does not depend on a cut. -/
theorem flatMap_flatMap_portions {β : Type} (size : Nat) (items : List α) (f : α → List β) :
    ((portions size items).flatMap fun portion => portion.flatMap f) = items.flatMap f := by
  have whole : (portions size items).flatMap id = items := by
    rw [List.flatMap_id, flatten_portions]
  rw [← whole, List.flatMap_assoc, whole]
  rfl

namespace Repacking

variable (repacking : Repacking)

@[simp] theorem all_nil : repacking.all [] = [] := by
  simp [all]

/-- A part that ends with a group is repacked on its own. -/
theorem all_append (positive : 0 < repacking.sourceGroup) {front : List Nat}
    (whole : front.length % repacking.sourceGroup = 0) (back : List Nat) :
    repacking.all (front ++ back) = repacking.all front ++ repacking.all back := by
  rw [all, portions_append positive whole, List.flatMap_append]
  rfl

/-- Parts that all end with a group are repacked on their own. -/
theorem all_flatten (positive : 0 < repacking.sourceGroup) {parts : List (List Nat)}
    (whole : ∀ part ∈ parts, part.length % repacking.sourceGroup = 0) :
    repacking.all parts.flatten = parts.flatMap repacking.all := by
  induction parts with
  | nil => exact repacking.all_nil
  | cons part parts ih =>
    rw [List.flatten_cons, repacking.all_append positive (whole part List.mem_cons_self),
      ih fun other member => whole other (List.mem_cons_of_mem part member), List.flatMap_cons]

/-- The first groups of a source and the rest are repacked on their own. -/
theorem all_take_append_all_drop (positive : 0 < repacking.sourceGroup) (groups : Nat)
    (source : List Nat) :
    repacking.all (source.take (groups * repacking.sourceGroup)) ++
        repacking.all (source.drop (groups * repacking.sourceGroup)) = repacking.all source := by
  rcases Nat.le_total (groups * repacking.sourceGroup) source.length with long | short
  · rw [← repacking.all_append positive, List.take_append_drop]
    rw [List.length_take, Nat.min_eq_left long, Nat.mul_mod_left]
  · rw [List.take_of_length_le short, List.drop_of_length_le short, all_nil, List.append_nil]

/-- **Portions of whole groups.** Repacking portion by portion gives what repacking the whole gives. -/
theorem flatMap_all_portions (positive : 0 < repacking.sourceGroup) {groups : Nat}
    (some_group : 0 < groups) (source : List Nat) :
    (portions (groups * repacking.sourceGroup) source).flatMap repacking.all =
      repacking.all source := by
  have size_max : max (groups * repacking.sourceGroup) 1 = groups * repacking.sourceGroup :=
    Nat.max_eq_left (Nat.mul_pos some_group positive)
  fun_induction portions (groups * repacking.sourceGroup) source with
  | case1 => simp
  | case2 source nonempty ih =>
    rw [List.flatMap_cons, ih, size_max, all_take_append_all_drop repacking positive]

/-- What every conversion of a group keeps, item by item, the whole repacking keeps. -/
theorem flatMap_all {β : Type} {before after : Nat → List β} {source : List Nat}
    (kept : ∀ group ∈ portions repacking.sourceGroup source,
      (repacking.convert group).flatMap after = group.flatMap before) :
    (repacking.all source).flatMap after = source.flatMap before := by
  rw [all, List.flatMap_assoc, List.flatMap_congr kept, flatMap_flatMap_portions]

section Whole

variable {source : List Nat} (whole : source.length % repacking.sourceGroup = 0)

include whole

/-- Whole groups turn into as many groups. -/
theorem length_all (positive : 0 < repacking.sourceGroup)
    (full : ∀ group : List Nat, group.length = repacking.sourceGroup →
      (repacking.convert group).length = repacking.targetGroup) :
    (repacking.all source).length =
      source.length / repacking.sourceGroup * repacking.targetGroup := by
  have converted : ∀ group ∈ portions repacking.sourceGroup source,
      (repacking.convert group).length = repacking.targetGroup := fun group member =>
    full group (length_of_mem_portions positive whole member)
  rw [all, List.length_flatMap, List.map_congr_left converted, List.map_const',
    List.sum_replicate_nat, length_portions positive whole]

/-- Whole groups are all converted where there is room for as many. -/
theorem produced_eq_all {room : Nat}
    (enough : source.length / repacking.sourceGroup ≤ room / repacking.targetGroup) :
    repacking.produced source room = repacking.all source := by
  have all : repacking.consumed source.length room = source.length := by
    rw [consumed, groups, Nat.min_eq_left enough]
    exact Nat.div_mul_cancel (Nat.dvd_of_mod_eq_zero whole)
  rw [produced, all, List.take_length]

/-- **What is written where there is room**: all groups, and then what the destination held there. -/
theorem into_of_room {destination : List Nat}
    (enough : source.length / repacking.sourceGroup ≤ destination.length / repacking.targetGroup) :
    repacking.into source destination =
      repacking.all source ++ destination.drop (repacking.all source).length := by
  rw [into, repacking.produced_eq_all whole enough]

end Whole

end Repacking

end PanelLink
