/-
**A registry is a map from slots to windows, and nothing else.**

Slots are reused, the row of slots keeps holes, and a link that cannot be bound gives its window back.
Nothing of this can be told from outside: what a registry answers, now and later, depends on its
look-ups only.

* `BusCall` and `Registry.perform`: everything that is asked of a registry, and the answers;
* `Registry.live`: the slots with a device;
* `nextSlot?_eq_find?`: the next slot to be taken is the lowest that is not live;
* `Registry.Alike`: registries with the same look-ups, and **`Alike.perform`**: one call to both of them
  is answered alike and leaves them alike;
* `alike_of_failed`: a call that fails leaves a registry that is like the one before;
* **`registrations_as_map`**: what every history of calls comes to.
-/

import Mathlib.Data.Set.Card
import PanelLink.Proofs.Addressed.PhaseWords

namespace PanelLink.Addressed

/-! ### Windows that are asked for -/

namespace Window

theorem create_eq_error {address size addressWidth : Nat} {error : BusError}
    (malformed : create address size addressWidth = .error error) :
    error = .invalidDevice address size := by
  unfold create at malformed
  dsimp only at malformed
  split at malformed
  · exact (Except.error.inj malformed).symm
  · split at malformed
    · exact (Except.error.inj malformed).symm
    · split at malformed
      · exact (Except.error.inj malformed).symm
      · cases malformed

/-- Windows overlap exactly if they share an address. -/
theorem overlaps_iff {window other : Window} :
    window.overlaps other = true ↔ ∃ address, (window.address ≤ address ∧ address ≤ window.last) ∧
      other.address ≤ address ∧ address ≤ other.last := by
  have first : window.address ≤ window.last := Nat.left_le_or
  have second : other.address ≤ other.last := Nat.left_le_or
  simp only [overlaps, Bool.and_eq_true, decide_eq_true_eq]
  constructor
  · rintro ⟨below, above⟩
    exact ⟨max window.address other.address, by omega⟩
  · rintro ⟨address, inside, insideToo⟩
    omega

end Window

/-! ### Calls and answers -/

/-- Something that is asked of the registry of a bus, with the 32-bit numbers that callers pass. -/
inductive BusCall where
  | enlist (address size : UInt32)
  | release (slot : Nat)
  /-- Registers a window and links to it. -/
  | claim (address size : UInt32) (reset : Connection)
  /-- Links to a device that is registered. -/
  | bind (slot : Nat) (reset : Connection)
  | lookUp (slot : Nat)
  deriving DecidableEq, Repr

inductive BusAnswer where
  | enlisted (outcome : Except BusError Nat)
  | released (outcome : Except BusError Window)
  | linked (outcome : Except AccessError Link)
  | found (window : Option Window)
  deriving DecidableEq

/-- Whether a call failed. Finding no device is no failure. -/
def BusAnswer.Failed : BusAnswer → Prop
  | enlisted outcome => ∃ error, outcome = .error error
  | released outcome => ∃ error, outcome = .error error
  | linked outcome => ∃ error, outcome = .error error
  | found _ => False

namespace Registry

section Calls

variable {m : Type → Type} (master : Master m)

/-- One call: the registry after it, and the answer. -/
def perform (registry : Registry) : BusCall → Registry × BusAnswer
  | .enlist address size =>
    match registry.enlist address.toNat size.toNat master.addressWidth with
    | .ok (next, slot) => (next, .enlisted (.ok slot))
    | .error error => (registry, .enlisted (.error error))
  | .release slot =>
    match registry.release slot with
    | .ok (next, window) => (next, .released (.ok window))
    | .error error => (registry, .released (.error error))
  | .claim address size reset =>
    let (next, outcome) := Link.claim registry master address.toNat size.toNat reset
    (next, .linked outcome)
  | .bind slot reset => (registry, .linked (Link.bind registry master slot reset))
  | .lookUp slot => (registry, .found (registry.window? slot))

theorem perform_enlist_ok {registry next : Registry} {address size : UInt32} {slot : Nat}
    (enlisted : registry.enlist address.toNat size.toNat master.addressWidth = .ok (next, slot)) :
    registry.perform master (.enlist address size) = (next, .enlisted (.ok slot)) := by
  simp only [perform, enlisted]

theorem perform_enlist_error {registry : Registry} {address size : UInt32} {error : BusError}
    (refused : registry.enlist address.toNat size.toNat master.addressWidth = .error error) :
    registry.perform master (.enlist address size) = (registry, .enlisted (.error error)) := by
  simp only [perform, refused]

theorem perform_release_ok {registry next : Registry} {slot : Nat} {window : Window}
    (frees : registry.release slot = .ok (next, window)) :
    registry.perform master (.release slot) = (next, .released (.ok window)) := by
  simp only [perform, frees]

theorem perform_release_error {registry : Registry} {slot : Nat} {error : BusError}
    (refused : registry.release slot = .error error) :
    registry.perform master (.release slot) = (registry, .released (.error error)) := by
  simp only [perform, refused]

/-- The registry of a bus after a history of calls. -/
def following (history : List BusCall) : Registry :=
  history.foldl (fun registry call => (registry.perform master call).1) {}

/-- The answers to calls in a row. -/
def answers (registry : Registry) : List BusCall → List BusAnswer
  | [] => []
  | call :: later =>
    (registry.perform master call).2 :: answers (registry.perform master call).1 later

end Calls

/-! ### Slots -/

/-- **The slots with a device.** -/
def live (registry : Registry) : Set Nat :=
  {slot | ∃ window, registry.window? slot = some window}

/-- A window shares an address with that of a live device. -/
def Meets (registry : Registry) (window : Window) : Prop :=
  ∃ slot present, registry.window? slot = some present ∧
    ∃ address, (present.address ≤ address ∧ address ≤ present.last) ∧
      window.address ≤ address ∧ address ≤ window.last

variable {registry other : Registry} {slot : Nat} {window : Window}

theorem mem_live_iff : slot ∈ registry.live ↔ (registry.window? slot).isSome = true :=
  Option.isSome_iff_exists.symm

theorem not_mem_live_iff : slot ∉ registry.live ↔ registry.window? slot = none := by
  rw [mem_live_iff, Bool.not_eq_true, Option.isSome_eq_false_iff, Option.isNone_iff_eq_none]

theorem mem_windows_iff :
    window ∈ registry.windows ↔ ∃ slot, registry.window? slot = some window := by
  refine ⟨fun member => ?_, fun ⟨slot, held⟩ => mem_windows_of_window? held⟩
  obtain ⟨_, inRow, rfl⟩ := List.mem_filterMap.mp member
  obtain ⟨slot, held⟩ := List.mem_iff_getElem?.mp inRow
  exact ⟨slot, window?_eq_some_iff.mpr held⟩

theorem any_overlaps_iff :
    (registry.windows.any fun present => present.overlaps window) = true ↔
      registry.Meets window := by
  rw [List.any_eq_true]
  constructor
  · rintro ⟨present, member, overlap⟩
    obtain ⟨slot, held⟩ := mem_windows_iff.mp member
    exact ⟨slot, present, held, Window.overlaps_iff.mp overlap⟩
  · rintro ⟨slot, present, held, shared⟩
    exact ⟨present, mem_windows_iff.mpr ⟨slot, held⟩, Window.overlaps_iff.mpr shared⟩

/-- The row of slots is no longer than the bus has room for. -/
def Bounded (registry : Registry) : Prop :=
  registry.slots.length ≤ maxDevices

theorem window?_of_length_le (past : registry.slots.length ≤ slot) :
    registry.window? slot = none := by
  rw [window?, List.getElem?_eq_none past]
  rfl

theorem isNone_window?_of_lt (inRow : slot < registry.slots.length) :
    (registry.window? slot).isNone = registry.slots[slot].isNone := by
  rw [window?, List.getElem?_eq_getElem inRow]
  rfl

/-- **The next slot to be taken** is the lowest that is not live. -/
theorem nextSlot?_eq_find? (bounded : registry.Bounded) :
    registry.nextSlot? =
      (List.range maxDevices).find? fun slot => (registry.window? slot).isNone := by
  unfold nextSlot?
  cases free : registry.slots.findIdx? Option.isNone with
  | some slot =>
    obtain ⟨inRow, isFree, lower⟩ := List.findIdx?_eq_some_iff_getElem.mp free
    refine (List.find?_range_eq_some.mpr ⟨?_, ?_, fun place below => ?_⟩).symm
    · rw [isNone_window?_of_lt inRow]
      exact isFree
    · exact List.mem_range.mpr (Nat.lt_of_lt_of_le inRow bounded)
    · rw [isNone_window?_of_lt (Nat.lt_trans below inRow)]
      rw [Bool.not_eq_true', ← Bool.not_eq_true]
      exact lower place below
  | none =>
    have taken (place : Nat) (inRow : place < registry.slots.length) :
        (registry.window? place).isNone = false := by
      rw [isNone_window?_of_lt inRow]
      exact List.findIdx?_eq_none_iff.mp free _ (List.getElem_mem inRow)
    -- Without a hole the next slot is the one past the row, as long as there is one.
    dsimp only
    split
    · rename_i room
      refine (List.find?_range_eq_some.mpr ⟨?_, List.mem_range.mpr room, fun place below => ?_⟩).symm
      · rw [window?_of_length_le (Nat.le_refl _)]
        rfl
      · rw [taken place below]
        rfl
    · rename_i full
      refine (List.find?_eq_none.mpr fun place member => ?_).symm
      rw [taken place (Nat.lt_of_lt_of_le (List.mem_range.mp member) (Nat.not_lt.mp full))]
      exact Bool.false_ne_true

theorem nextSlot?_eq_some (bounded : registry.Bounded) (next : registry.nextSlot? = some slot) :
    slot < maxDevices ∧ registry.window? slot = none := by
  rw [nextSlot?_eq_find? bounded] at next
  obtain ⟨free, member, -⟩ := List.find?_range_eq_some.mp next
  exact ⟨List.mem_range.mp member, Option.isNone_iff_eq_none.mp free⟩

theorem Bounded.live_subset (bounded : registry.Bounded) :
    registry.live ⊆ Finset.range maxDevices := by
  rintro slot ⟨window, held⟩
  rw [Finset.coe_range, Set.mem_Iio]
  by_contra past
  rw [window?_of_length_le (Nat.le_trans bounded (not_lt.mp past))] at held
  cases held

/-- **There is no next slot** exactly if so many devices are live as the bus has room for. -/
theorem nextSlot?_eq_none_iff (bounded : registry.Bounded) :
    registry.nextSlot? = none ↔ registry.live.ncard = maxDevices := by
  have room : (Finset.range maxDevices : Set Nat).ncard = maxDevices := by
    rw [Set.ncard_coe_finset, Finset.card_range]
  have covered : registry.nextSlot? = none ↔ ↑(Finset.range maxDevices) ⊆ registry.live := by
    rw [nextSlot?_eq_find? bounded, List.find?_eq_none]
    refine forall₂_congr fun place _ => ?_
    rw [mem_live_iff, Bool.not_eq_true, Option.isNone_eq_false_iff]
  rw [covered]
  constructor
  · intro all
    rw [Set.Subset.antisymm bounded.live_subset all, room]
  · intro count
    refine (Set.eq_of_subset_of_ncard_le bounded.live_subset ?_ (Finset.finite_toSet _)).ge
    rw [room, count]

theorem window?_place_next (next : registry.nextSlot? = some slot) (window : Window) :
    (registry.place slot window).window? = Function.update registry.window? slot (some window) := by
  funext place
  rw [window?_place (nextSlot?_le_length next), Function.update_apply]

theorem bounded_place (bounded : registry.Bounded) (room : slot < maxDevices) (window : Window) :
    (registry.place slot window).Bounded := by
  unfold Bounded place at *
  dsimp only
  split
  · rw [List.length_set]
    exact bounded
  · rw [List.length_append, List.length_singleton]
    omega

/-! ### What one call does -/

section Enlisting

variable {address size addressWidth : Nat}

/-- A window that is malformed is refused. -/
theorem enlist_of_malformed {error : BusError}
    (malformed : Window.create address size addressWidth = .error error) :
    registry.enlist address size addressWidth = .error error := by
  rw [enlist, malformed]
  rfl

variable (created : Window.create address size addressWidth = .ok window)

include created

/-- A window that overlaps a live one is refused. -/
theorem enlist_of_meets (meets : registry.Meets window) :
    registry.enlist address size addressWidth = .error (.addressConflict address) := by
  rw [enlist, created]
  show (if registry.windows.any (fun present => present.overlaps window) = true then _ else _) = _
  rw [if_pos (any_overlaps_iff.mpr meets)]
  rfl

/-- Any other window takes the next slot, if there is one. -/
theorem enlist_of_apart (apart : ¬registry.Meets window) :
    registry.enlist address size addressWidth =
      match registry.nextSlot? with
      | some slot => .ok (registry.place slot window, slot)
      | none => .error .registryFull := by
  rw [enlist, created]
  show (if registry.windows.any (fun present => present.overlaps window) = true then _ else _) = _
  rw [if_neg (any_overlaps_iff.not.mpr apart)]
  rfl

end Enlisting

theorem release_eq (registry : Registry) (slot : Nat) :
    registry.release slot =
      match registry.window? slot with
      | some window => .ok (⟨registry.slots.set slot none⟩, window)
      | none => .error .noSuchDevice :=
  rfl

theorem window?_free (held : registry.window? slot = some window) :
    (Registry.mk (registry.slots.set slot none)).window? =
      Function.update registry.window? slot none := by
  have released : registry.release slot = .ok (⟨registry.slots.set slot none⟩, window) := by
    rw [release_eq, held]
  funext place
  rw [window?_of_release released, Function.update_apply]

theorem Bounded.free (bounded : registry.Bounded) (slot : Nat) :
    (Registry.mk (registry.slots.set slot none)).Bounded := by
  unfold Bounded
  rw [List.length_set]
  exact bounded

/-! ### Registries that look the same -/

/-- **Two registries with the same look-ups**, neither with more slots than there is room for. -/
structure Alike (registry other : Registry) : Prop where
  lookUps : registry.window? = other.window?
  bounded : registry.Bounded
  boundedToo : other.Bounded

namespace Alike

theorem refl (bounded : registry.Bounded) : registry.Alike registry :=
  ⟨rfl, bounded, bounded⟩

variable (alike : registry.Alike other)

include alike

theorem nextSlot?_eq : registry.nextSlot? = other.nextSlot? := by
  rw [nextSlot?_eq_find? alike.bounded, nextSlot?_eq_find? alike.boundedToo, alike.lookUps]

theorem meets_iff (window : Window) : registry.Meets window ↔ other.Meets window := by
  unfold Meets
  rw [alike.lookUps]

/-- The same window in the next slot of both. -/
theorem place (next : registry.nextSlot? = some slot) (window : Window) :
    (registry.place slot window).Alike (other.place slot window) := by
  have nextToo : other.nextSlot? = some slot := alike.nextSlot?_eq.symm.trans next
  have room := (nextSlot?_eq_some alike.bounded next).1
  refine ⟨?_, bounded_place alike.bounded room window, bounded_place alike.boundedToo room window⟩
  rw [window?_place_next next, window?_place_next nextToo, alike.lookUps]

/-- Both refuse a window for the same reason, or both give it the same slot. -/
theorem enlist (address size addressWidth : Nat) :
    (∃ error, registry.enlist address size addressWidth = .error error ∧
      other.enlist address size addressWidth = .error error) ∨
    ∃ next nextToo slot, registry.enlist address size addressWidth = .ok (next, slot) ∧
      other.enlist address size addressWidth = .ok (nextToo, slot) ∧ next.Alike nextToo := by
  cases created : Window.create address size addressWidth with
  | error error =>
    exact Or.inl ⟨error, enlist_of_malformed created, enlist_of_malformed created⟩
  | ok window =>
    by_cases meets : registry.Meets window
    · exact Or.inl ⟨_, enlist_of_meets created meets,
        enlist_of_meets created ((alike.meets_iff window).mp meets)⟩
    · rw [enlist_of_apart created meets,
        enlist_of_apart created (fun meetsToo => meets ((alike.meets_iff window).mpr meetsToo)),
        ← alike.nextSlot?_eq]
      cases next : registry.nextSlot? with
      | none => exact Or.inl ⟨_, rfl, rfl⟩
      | some slot => exact Or.inr ⟨_, _, slot, rfl, rfl, alike.place next window⟩

/-- Both free a slot, or it is live in neither. -/
theorem release (slot : Nat) :
    (registry.release slot = .error .noSuchDevice ∧ other.release slot = .error .noSuchDevice) ∨
    ∃ next nextToo window, registry.release slot = .ok (next, window) ∧
      other.release slot = .ok (nextToo, window) ∧ next.Alike nextToo := by
  rw [release_eq, release_eq, ← alike.lookUps]
  cases held : registry.window? slot with
  | none => exact Or.inl ⟨rfl, rfl⟩
  | some window =>
    have heldToo : other.window? slot = some window := alike.lookUps ▸ held
    refine Or.inr ⟨_, _, window, rfl, rfl, ?_, alike.bounded.free slot, alike.boundedToo.free slot⟩
    rw [window?_free held, window?_free heldToo, alike.lookUps]

section Calls

variable {m : Type → Type} (master : Master m)

theorem bind_eq (slot : Nat) (reset : Connection) :
    Link.bind registry master slot reset = Link.bind other master slot reset := by
  unfold Link.bind
  rw [alike.lookUps]

/-- Both give a link the same slot, or both refuse it for the same reason. -/
theorem claim (address size : Nat) (reset : Connection) :
    (Link.claim registry master address size reset).2 =
        (Link.claim other master address size reset).2 ∧
      (Link.claim registry master address size reset).1.Alike
        (Link.claim other master address size reset).1 := by
  unfold Link.claim
  rcases alike.enlist address size master.addressWidth with
    ⟨error, refused, refusedToo⟩ | ⟨next, nextToo, slot, enlisted, enlistedToo, alikeNext⟩
  · rw [refused, refusedToo]
    exact ⟨rfl, alike⟩
  · rw [enlisted, enlistedToo]
    dsimp only
    rw [← alikeNext.bind_eq master slot reset]
    cases Link.bind next master slot reset with
    | ok link => exact ⟨rfl, alikeNext⟩
    | error error =>
      rcases alikeNext.release slot with
        ⟨stays, staysToo⟩ | ⟨freed, freedToo, window, frees, freesToo, alikeFreed⟩
      · rw [stays, staysToo]
        exact ⟨rfl, alikeNext⟩
      · rw [frees, freesToo]
        exact ⟨rfl, alikeFreed⟩

/-- **One call** is answered alike by registries with the same look-ups, and leaves them so. -/
theorem perform (call : BusCall) :
    (registry.perform master call).2 = (other.perform master call).2 ∧
      (registry.perform master call).1.Alike (other.perform master call).1 := by
  cases call with
  | enlist address size =>
    rcases alike.enlist address.toNat size.toNat master.addressWidth with
      ⟨error, refused, refusedToo⟩ | ⟨next, nextToo, slot, enlisted, enlistedToo, alikeNext⟩
    · rw [perform_enlist_error master refused, perform_enlist_error master refusedToo]
      exact ⟨rfl, alike⟩
    · rw [perform_enlist_ok master enlisted, perform_enlist_ok master enlistedToo]
      exact ⟨rfl, alikeNext⟩
  | release slot =>
    rcases alike.release slot with
      ⟨stays, staysToo⟩ | ⟨next, nextToo, window, frees, freesToo, alikeNext⟩
    · rw [perform_release_error master stays, perform_release_error master staysToo]
      exact ⟨rfl, alike⟩
    · rw [perform_release_ok master frees, perform_release_ok master freesToo]
      exact ⟨rfl, alikeNext⟩
  | claim address size reset =>
    obtain ⟨same, alikeNext⟩ := alike.claim master address.toNat size.toNat reset
    exact ⟨congrArg BusAnswer.linked same, alikeNext⟩
  | bind slot reset => exact ⟨congrArg BusAnswer.linked (alike.bind_eq master slot reset), alike⟩
  | lookUp slot => exact ⟨congrArg BusAnswer.found (congrFun alike.lookUps slot), alike⟩

/-- **All later calls** are answered alike. -/
theorem answers_eq (calls : List BusCall) :
    registry.answers master calls = other.answers master calls := by
  induction calls generalizing registry other with
  | nil => rfl
  | cons call later ih =>
    obtain ⟨same, alikeNext⟩ := alike.perform master call
    rw [answers, answers, same, ih alikeNext]

end Calls

end Alike

/-! ### Histories -/

section Histories

variable {m : Type → Type} (master : Master m)

theorem Bounded.perform (bounded : registry.Bounded) (call : BusCall) :
    (registry.perform master call).1.Bounded :=
  ((Alike.refl bounded).perform master call).2.bounded

theorem bounded_following (history : List BusCall) : (following master history).Bounded := by
  have kept (calls : List BusCall) (registry : Registry) (bounded : registry.Bounded) :
      (calls.foldl (fun registry call => (registry.perform master call).1) registry).Bounded := by
    induction calls generalizing registry with
    | nil => exact bounded
    | cons call calls ih => exact ih _ (bounded.perform master call)
  exact kept history {} (Nat.zero_le _)

/-- **A link that cannot be bound** gives its window back: it had been in a slot that was free. -/
theorem alike_of_claim_error (bounded : registry.Bounded) {address size : Nat} {reset : Connection}
    {error : AccessError} (failed : (Link.claim registry master address size reset).2 = .error error) :
    (Link.claim registry master address size reset).1.Alike registry := by
  unfold Link.claim at failed ⊢
  cases enlisted : registry.enlist address size master.addressWidth with
  | error refusal => exact Alike.refl bounded
  | ok taken =>
    obtain ⟨next, slot⟩ := taken
    rw [enlisted] at failed
    dsimp only at failed ⊢
    cases bound : Link.bind next master slot reset with
    | ok link =>
      rw [bound] at failed
      cases failed
    | error refusal =>
      obtain ⟨window, created, apart, -, -⟩ := enlist_eq_ok enlisted
      have clear : ¬registry.Meets window := fun ⟨place, present, held, shared⟩ => by
        have overlap := Window.overlaps_iff.mpr shared
        rw [apart present (mem_windows_of_window? held)] at overlap
        cases overlap
      rw [enlist_of_apart created clear] at enlisted
      cases free : registry.nextSlot? with
      | none =>
        rw [free] at enlisted
        cases enlisted
      | some lowest =>
        rw [free] at enlisted
        cases enlisted
        obtain ⟨room, unheld⟩ := nextSlot?_eq_some bounded free
        have held : (registry.place slot window).window? slot = some window := by
          rw [window?_place_next free, Function.update_self]
        have placed := bounded_place bounded room window
        rw [release_eq, held]
        refine ⟨?_, placed.free slot, bounded⟩
        rw [window?_free held, window?_place_next free, Function.update_idem, ← unheld,
          Function.update_eq_self]

/-- **A call that fails** leaves a registry that looks as it did before. -/
theorem alike_of_failed (bounded : registry.Bounded) {call : BusCall}
    (failed : (registry.perform master call).2.Failed) :
    (registry.perform master call).1.Alike registry := by
  cases call with
  | enlist address size =>
    cases outcome : registry.enlist address.toNat size.toNat master.addressWidth with
    | error error =>
      rw [perform_enlist_error master outcome]
      exact Alike.refl bounded
    | ok taken =>
      rw [perform_enlist_ok master outcome] at failed
      obtain ⟨error, impossible⟩ := failed
      cases impossible
  | release slot =>
    cases outcome : registry.release slot with
    | error error =>
      rw [perform_release_error master outcome]
      exact Alike.refl bounded
    | ok freed =>
      rw [perform_release_ok master outcome] at failed
      obtain ⟨error, impossible⟩ := failed
      cases impossible
  | claim address size reset =>
    obtain ⟨error, failed⟩ := failed
    exact alike_of_claim_error master bounded failed
  | bind slot reset => exact Alike.refl bounded
  | lookUp slot => exact Alike.refl bounded

/-- A bus that cannot be written: no link can be bound, and the slot that it had taken goes to the next
device. -/
example :
    answers (Recorder.master ⟨8, 8, true, false⟩) {}
        [.claim 16 2 .absent, .lookUp 0, .enlist 16 4, .lookUp 0] =
      [.linked (.error (.invalidArgument .busNotWritable)), .found none, .enlisted (.ok 0),
        .found (some ⟨16, 3⟩)] := by
  decide +kernel

/-- **What registering a window comes to**, with the registry read as a map from slots to windows. -/
structure Enlists (registry : Registry) (addressWidth address size : Nat) (next : Registry)
    (outcome : Except BusError Nat) : Prop where
  /-- A window that is refused for itself is refused as such. -/
  malformed : (∀ window, Window.create address size addressWidth ≠ .ok window) →
    outcome = .error (.invalidDevice address size)
  /-- Any other is in conflict exactly if it overlaps a live one. -/
  conflict : ∀ window, Window.create address size addressWidth = .ok window →
    (outcome = .error (.addressConflict address) ↔ registry.Meets window)
  /-- If it is not, the registry is full exactly if so many devices are live. -/
  full : ∀ window, Window.create address size addressWidth = .ok window → ¬registry.Meets window →
    (outcome = .error .registryFull ↔ registry.live.ncard = maxDevices)
  /-- In every other case the window is registered in a slot that was free, and no other changes. -/
  taken : ∀ window, Window.create address size addressWidth = .ok window → ¬registry.Meets window →
    registry.live.ncard ≠ maxDevices → ∃ slot, outcome = .ok slot ∧ slot ∉ registry.live ∧
      next.window? = Function.update registry.window? slot (some ⟨address, Window.maskOf size⟩)

/-- **Registering** a window. -/
theorem enlists_perform (bounded : registry.Bounded) (address size : UInt32) :
    ∃ next outcome, registry.perform master (.enlist address size) = (next, .enlisted outcome) ∧
      registry.Enlists master.addressWidth address.toNat size.toNat next outcome := by
  cases created : Window.create address.toNat size.toNat master.addressWidth with
  | error error =>
    refine ⟨_, _, perform_enlist_error master (enlist_of_malformed created), ?_⟩
    have none (window : Window) :
        Window.create address.toNat size.toNat master.addressWidth ≠ .ok window := by
      rw [created]
      exact nofun
    exact {
      malformed := fun _ => congrArg Except.error (Window.create_eq_error created)
      conflict := fun window given => absurd given (none window)
      full := fun window given => absurd given (none window)
      taken := fun window given => absurd given (none window) }
  | ok window =>
    have unique {other : Window}
        (given : Window.create address.toNat size.toNat master.addressWidth = .ok other) :
        other = window :=
      Except.ok.inj (given.symm.trans created)
    by_cases meets : registry.Meets window
    · refine ⟨_, _, perform_enlist_error master (enlist_of_meets created meets), ?_⟩
      exact {
        malformed := fun none => absurd created (none window)
        conflict := fun other given => iff_of_true rfl (unique given ▸ meets)
        full := fun other given apart => absurd (unique given ▸ meets) apart
        taken := fun other given apart => absurd (unique given ▸ meets) apart }
    · have apart := enlist_of_apart created meets
      cases free : registry.nextSlot? with
      | none =>
        rw [free] at apart
        have count := (nextSlot?_eq_none_iff bounded).mp free
        refine ⟨_, _, perform_enlist_error master apart, ?_⟩
        exact {
          malformed := fun none => absurd created (none window)
          conflict := fun other given => iff_of_false nofun (unique given ▸ meets)
          full := fun other given _ => iff_of_true rfl count
          taken := fun other given _ room => absurd count room }
      | some slot =>
        rw [free] at apart
        have room : registry.live.ncard ≠ maxDevices := fun count => by
          rw [(nextSlot?_eq_none_iff bounded).mpr count] at free
          cases free
        refine ⟨_, _, perform_enlist_ok master apart, ?_⟩
        exact {
          malformed := fun none => absurd created (none window)
          conflict := fun other given => iff_of_false nofun (unique given ▸ meets)
          full := fun other given _ => iff_of_false nofun room
          taken := fun other given _ _ => ⟨slot, rfl,
            not_mem_live_iff.mpr (nextSlot?_eq_some bounded free).2,
            Window.eq_of_create created ▸ window?_place_next free window⟩ }

/-- **Unregistering** a slot: it is freed if it is live, and no other changes. -/
theorem perform_release (registry : Registry) (slot : Nat) :
    (∀ window, registry.window? slot = some window → ∃ next,
      registry.perform master (.release slot) = (next, .released (.ok window)) ∧
        next.window? = Function.update registry.window? slot none) ∧
    (slot ∉ registry.live →
      registry.perform master (.release slot) = (registry, .released (.error .noSuchDevice))) := by
  refine ⟨fun window held => ?_, fun free => ?_⟩
  · have frees := registry.release_eq slot
    rw [held] at frees
    exact ⟨_, perform_release_ok master frees, window?_free held⟩
  · have refused := registry.release_eq slot
    rw [not_mem_live_iff.mp free] at refused
    exact perform_release_error master refused

/-- A link that is bound to a window of its own has registered it, like any other device. -/
theorem perform_claim_ok {registry : Registry} {address size : UInt32} {reset : Connection}
    {link : Link} (claimed : (registry.perform master (.claim address size reset)).2 =
      .linked (.ok link)) :
    registry.perform master (.enlist address size) =
      ((registry.perform master (.claim address size reset)).1, .enlisted (.ok link.slot)) := by
  change BusAnswer.linked (Link.claim registry master address.toNat size.toNat reset).2 = _ at claimed
  show _ = ((Link.claim registry master address.toNat size.toNat reset).1, _)
  unfold Link.claim at claimed ⊢
  cases enlisted : registry.enlist address.toNat size.toNat master.addressWidth with
  | error error =>
    rw [enlisted] at claimed
    cases claimed
  | ok taken =>
    obtain ⟨next, slot⟩ := taken
    rw [perform_enlist_ok master enlisted]
    rw [enlisted] at claimed
    dsimp only at claimed ⊢
    cases bound : Link.bind next master slot reset with
    | ok made =>
      rw [bound] at claimed
      obtain ⟨rfl, -⟩ := Link.bind_eq_ok bound
      cases claimed
      rfl
    | error error =>
      rw [bound] at claimed
      dsimp only at claimed
      split at claimed <;> cases claimed

/-- **A registry is a map from slots to windows**, whatever was asked of it before. Registering, freeing
and linking do to the map what they should, and a call that fails leaves a registry that no later call
can tell from the one before. -/
theorem registrations_as_map (history : List BusCall) :
    let registry := following master history
    (∀ address size : UInt32, ∃ next outcome,
      registry.perform master (.enlist address size) = (next, .enlisted outcome) ∧
        registry.Enlists master.addressWidth address.toNat size.toNat next outcome) ∧
    (∀ slot,
      (∀ window, registry.window? slot = some window → ∃ next,
        registry.perform master (.release slot) = (next, .released (.ok window)) ∧
          next.window? = Function.update registry.window? slot none) ∧
      (slot ∉ registry.live →
        registry.perform master (.release slot) = (registry, .released (.error .noSuchDevice)))) ∧
    (∀ address size reset link,
      (registry.perform master (.claim address size reset)).2 = .linked (.ok link) →
        registry.perform master (.enlist address size) =
          ((registry.perform master (.claim address size reset)).1, .enlisted (.ok link.slot))) ∧
    ∀ call, (registry.perform master call).2.Failed →
      (registry.perform master call).1.window? = registry.window? ∧
      ∀ later, (registry.perform master call).1.answers master later =
        registry.answers master later := by
  intro registry
  have bounded : registry.Bounded := bounded_following master history
  refine ⟨enlists_perform master bounded, perform_release master registry,
    fun address size reset link => perform_claim_ok master, fun call failed => ?_⟩
  have alike := alike_of_failed master bounded failed
  exact ⟨alike.lookUps, alike.answers_eq master⟩

end Histories

end Registry

end PanelLink.Addressed
