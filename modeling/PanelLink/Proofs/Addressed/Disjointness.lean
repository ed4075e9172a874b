/-
**No two devices of an addressed bus answer to one address.**

A history of a bus is a list of calls that register and unregister windows. The registry compares
windows as intervals of numbers, a session joins an offset to the first address of its window with a
bitwise or, and the wires carry the low bits of the result only. These three views agree:

* `Registry.Sound`: live windows begin at an address that the bus can express, and no two overlap;
* `Registry.sound_afterAll`: every history keeps this;
* `Window.latched_mod_lt`: of two windows one after the other, every address of the first stays
  below every address of the second on the wires;
* `Registry.latched_mod_ne`: two live devices never latch one address.
-/

import Mathlib.Data.Nat.Bitwise
import PanelLink.Addressed.Master
import PanelLink.Addressed.Recorder

namespace PanelLink.Addressed

/-! ### Addresses of one window -/

namespace Window

/-- The window lies in the 32-bit space and begins at an address that the bus can express. -/
structure Expressible (addressWidth : Nat) (window : Window) : Prop where
  /-- The first address fits the address lines. -/
  address_lt : window.address < 2 ^ addressWidth
  /-- The mask is a 32-bit number. -/
  mask_lt : window.mask < 2 ^ 32

/-- A 32-bit number below the limit of a bus fits its address lines. -/
theorem lt_two_pow_of_lt_addressLimit {address addressWidth : Nat} (small : address < 2 ^ 32)
    (within : address < addressLimit addressWidth) : address < 2 ^ addressWidth := by
  unfold addressLimit at within
  split at within
  · rwa [Nat.one_shiftLeft] at within
  · exact small.trans_le (Nat.pow_le_pow_right (by decide) (by omega))

theorem maskOf_lt {size : Nat} (small : size < 2 ^ 32) : maskOf size < 2 ^ 32 := by
  unfold maskOf fullMask
  split <;> omega

/-- **What a window needs**, and what it then is. -/
theorem create_eq_ok {address size addressWidth : Nat} {window : Window}
    (created : create address size addressWidth = .ok window) :
    (size ≠ 1 ∧ (size ≠ 0 → isPowerOfTwo size = true)) ∧
      (maskOf size ≠ fullMask → address &&& maskOf size = 0) ∧
        address < addressLimit addressWidth ∧ window = ⟨address, maskOf size⟩ := by
  unfold create at created
  dsimp only at created
  split at created
  · cases created
  · rename_i sized
    split at created
    · cases created
    · rename_i aligned
      split at created
      · cases created
      · rename_i within
        refine ⟨by simpa using sized, fun part => ?_, not_le.mp within, (Except.ok.inj created).symm⟩
        by_contra crooked
        exact aligned ⟨part, crooked⟩

theorem eq_of_create {address size addressWidth : Nat} {window : Window}
    (created : create address size addressWidth = .ok window) :
    window = ⟨address, maskOf size⟩ :=
  (create_eq_ok created).2.2.2

/-- A window that is not refused begins where it was asked to and is expressible. -/
theorem expressible_of_create {address size addressWidth : Nat} {window : Window}
    (smallAddress : address < 2 ^ 32) (smallSize : size < 2 ^ 32)
    (created : create address size addressWidth = .ok window) :
    window.Expressible addressWidth := by
  obtain ⟨-, -, within, rfl⟩ := create_eq_ok created
  exact ⟨lt_two_pow_of_lt_addressLimit smallAddress within, maskOf_lt smallSize⟩

/-- An accepted offset has no bit outside the mask. -/
theorem or_mask_of_holdsOffset {window : Window} {offset : Nat} (maskSmall : window.mask < 2 ^ 32)
    (small : offset < 2 ^ 32) (accepted : window.holdsOffset offset = true) :
    offset ||| window.mask = window.mask := by
  have disjoint : offset &&& (2 ^ 32 - (window.mask + 1)) = 0 := by
    have outside : fullMask - window.mask = 2 ^ 32 - (window.mask + 1) := by
      unfold fullMask
      omega
    rw [← outside]
    simpa [holdsOffset] using accepted
  apply Nat.eq_of_testBit_eq
  intro bit
  have clear : (offset &&& (2 ^ 32 - (window.mask + 1))).testBit bit = false := by
    rw [disjoint, Nat.zero_testBit]
  rw [Nat.testBit_and, Nat.testBit_two_pow_sub_succ maskSmall] at clear
  rw [Nat.testBit_or]
  by_cases low : bit < 32
  · cases inOffset : offset.testBit bit <;> simp_all
  · have beyond : offset.testBit bit = false :=
      Nat.testBit_lt_two_pow (small.trans_le (Nat.pow_le_pow_right (by decide) (by omega)))
    rw [beyond, Bool.false_or]

/-- No accepted offset leads past the last address of the window. -/
theorem latched_le_last {window : Window} {offset : Nat} (maskSmall : window.mask < 2 ^ 32)
    (small : offset < 2 ^ 32) (accepted : window.holdsOffset offset = true) :
    window.latched offset ≤ window.last := by
  have absorbed : window.latched offset ||| window.last = window.last := by
    unfold latched last
    rw [Nat.or_assoc, Nat.or_left_comm offset, or_mask_of_holdsOffset maskSmall small accepted,
      ← Nat.or_assoc, Nat.or_self]
  rw [← absorbed]
  exact Nat.left_le_or

/-- The first address of a window survives on the wires, whatever the offset adds to it. -/
theorem address_le_latched_mod {window : Window} {addressWidth : Nat} (offset : Nat)
    (fits : window.address < 2 ^ addressWidth) :
    window.address ≤ window.latched offset % 2 ^ addressWidth := by
  unfold latched
  rw [Nat.or_mod_two_pow, Nat.mod_eq_of_lt fits]
  exact Nat.left_le_or

/-- **One window after the other.** On the wires, every address of the earlier window stays below
every address of the later one. The offset of the later window may be any number, for it can only
raise the address within the lines that carry it. -/
theorem latched_mod_lt {window later : Window} {addressWidth offset : Nat} (laterOffset : Nat)
    (maskSmall : window.mask < 2 ^ 32) (fits : later.address < 2 ^ addressWidth)
    (before : window.last < later.address) (small : offset < 2 ^ 32)
    (accepted : window.holdsOffset offset = true) :
    window.latched offset % 2 ^ addressWidth < later.latched laterOffset % 2 ^ addressWidth :=
  calc window.latched offset % 2 ^ addressWidth
      ≤ window.latched offset := Nat.mod_le _ _
    _ ≤ window.last := latched_le_last maskSmall small accepted
    _ < later.address := before
    _ ≤ later.latched laterOffset % 2 ^ addressWidth := address_le_latched_mod laterOffset fits

/-- Windows that do not overlap lie one after the other. -/
theorem lt_or_lt_of_not_overlaps {window other : Window}
    (apart : window.overlaps other = false) :
    window.last < other.address ∨ other.last < window.address := by
  simp only [overlaps, Bool.and_eq_false_iff, decide_eq_false_iff_not, not_le] at apart
  exact apart.symm

end Window

/-! ### What a call does to the slots -/

namespace Registry

theorem window?_eq_some_iff {registry : Registry} {slot : Nat} {window : Window} :
    registry.window? slot = some window ↔ registry.slots[slot]? = some (some window) := by
  simp [window?, Option.join_eq_some_iff]

theorem mem_windows_of_window? {registry : Registry} {slot : Nat} {window : Window}
    (live : registry.window? slot = some window) : window ∈ registry.windows :=
  List.mem_filterMap.mpr
    ⟨some window, List.mem_of_getElem? (window?_eq_some_iff.mp live), rfl⟩

/-- The next slot to be taken lies in the row of slots or just past it. -/
theorem nextSlot?_le_length {registry : Registry} {slot : Nat}
    (next : registry.nextSlot? = some slot) : slot ≤ registry.slots.length := by
  unfold nextSlot? at next
  split at next
  · rename_i free found
    cases next
    exact (List.findIdx?_eq_some_iff_findIdx_eq.mp found).1.le
  · split at next
    · cases next
      exact le_rfl
    · cases next

/-- A window is placed in its slot and nowhere else. -/
theorem window?_place {registry : Registry} {slot : Nat} (inRow : slot ≤ registry.slots.length)
    (window : Window) (other : Nat) :
    (registry.place slot window).window? other =
      if other = slot then some window else registry.window? other := by
  simp only [window?, place]
  by_cases inside : slot < registry.slots.length
  · rw [if_pos inside, List.getElem?_set]
    by_cases same : slot = other
    · subst same
      simp [inside]
    · rw [if_neg same, if_neg (Ne.symm same)]
  · have last : slot = registry.slots.length := by omega
    rw [if_neg inside, List.getElem?_append]
    by_cases same : other = slot
    · subst same
      simp [last]
    · rw [if_neg same]
      by_cases earlier : other < registry.slots.length
      · rw [if_pos earlier]
      · have past : 1 ≤ other - registry.slots.length := by omega
        rw [if_neg earlier, List.getElem?_eq_none (by simpa using past),
          List.getElem?_eq_none (by omega)]

/-- **What registering does.** A window is registered only if it is well formed and overlaps no live
one; it takes the next slot and leaves every other slot alone. -/
theorem enlist_eq_ok {registry next : Registry} {address size addressWidth slot : Nat}
    (enlisted : registry.enlist address size addressWidth = .ok (next, slot)) :
    ∃ window, Window.create address size addressWidth = .ok window ∧
      (∀ present ∈ registry.windows, present.overlaps window = false) ∧
      slot ≤ registry.slots.length ∧ next = registry.place slot window := by
  unfold enlist at enlisted
  cases created : Window.create address size addressWidth with
  | error error =>
    rw [created] at enlisted
    cases enlisted
  | ok window =>
    rw [created] at enlisted
    change (if registry.windows.any fun present => present.overlaps window then _ else _) = _
      at enlisted
    split at enlisted
    · cases enlisted
    · rename_i clear
      cases free : registry.nextSlot? with
      | none =>
        rw [free] at enlisted
        cases enlisted
      | some taken =>
        rw [free] at enlisted
        cases enlisted
        refine ⟨window, rfl, ?_, nextSlot?_le_length free, rfl⟩
        simpa using clear

/-- **What unregistering does.** A live slot is freed and every other slot left alone. -/
theorem window?_of_release {registry next : Registry} {slot : Nat} {window : Window}
    (released : registry.release slot = .ok (next, window)) (other : Nat) :
    next.window? other = if other = slot then none else registry.window? other := by
  unfold release at released
  cases live : registry.window? slot with
  | none =>
    rw [live] at released
    cases released
  | some held =>
    rw [live] at released
    cases released
    simp only [window?, List.getElem?_set]
    by_cases same : other = slot
    · subst same
      by_cases inside : other < registry.slots.length <;> simp [inside]
    · rw [if_neg (Ne.symm same), if_neg same]

end Registry

/-! ### Histories -/

/-- A call on the registry of a bus, with the 32-bit numbers that callers pass. -/
inductive RegistryCall where
  | enlist (address size : UInt32)
  | release (slot : Nat)
  deriving DecidableEq, Repr

namespace Registry

/-- The registry after a call; a call that fails leaves it as it was. -/
def after (addressWidth : Nat) (registry : Registry) : RegistryCall → Registry
  | .enlist address size =>
    match registry.enlist address.toNat size.toNat addressWidth with
    | .ok (next, _) => next
    | .error _ => registry
  | .release slot =>
    match registry.release slot with
    | .ok (next, _) => next
    | .error _ => registry

/-- The registry of a bus after a history of calls. -/
def afterAll (addressWidth : Nat) (calls : List RegistryCall) : Registry :=
  calls.foldl (after addressWidth) {}

/-- What every history of calls keeps. -/
structure Sound (addressWidth : Nat) (registry : Registry) : Prop where
  expressible : ∀ {slot window}, registry.window? slot = some window →
    window.Expressible addressWidth
  apart : ∀ {slot other window neighbour}, slot ≠ other → registry.window? slot = some window →
    registry.window? other = some neighbour → window.overlaps neighbour = false

theorem sound_empty (addressWidth : Nat) : Sound addressWidth {} where
  expressible live := by simp [window?] at live
  apart _ live := by simp [window?] at live

/-- Placing an expressible window that overlaps no live one keeps a registry sound. -/
theorem Sound.place {addressWidth slot : Nat} {registry : Registry} {window : Window}
    (sound : registry.Sound addressWidth) (inRow : slot ≤ registry.slots.length)
    (fits : window.Expressible addressWidth)
    (clear : ∀ present ∈ registry.windows, present.overlaps window = false) :
    (registry.place slot window).Sound addressWidth where
  expressible {place held} live := by
    rw [window?_place inRow] at live
    split at live
    · cases live
      exact fits
    · exact sound.expressible live
  apart {place other held neighbour} distinct live liveToo := by
    rw [window?_place inRow] at live liveToo
    split at live
    · rename_i same
      cases live
      rw [if_neg (fun equal => distinct (same.trans equal.symm))] at liveToo
      rw [Window.overlaps_comm]
      exact clear neighbour (mem_windows_of_window? liveToo)
    · split at liveToo
      · cases liveToo
        exact clear held (mem_windows_of_window? live)
      · exact sound.apart distinct live liveToo

/-- Freeing a slot keeps a registry sound. -/
theorem Sound.release {addressWidth slot : Nat} {registry next : Registry} {window : Window}
    (sound : registry.Sound addressWidth) (released : registry.release slot = .ok (next, window)) :
    next.Sound addressWidth := by
  have kept {place : Nat} {held : Window} (live : next.window? place = some held) :
      registry.window? place = some held := by
    rw [window?_of_release released] at live
    split at live
    · cases live
    · exact live
  exact ⟨fun live => sound.expressible (kept live),
    fun distinct live liveToo => sound.apart distinct (kept live) (kept liveToo)⟩

/-- **One call keeps a registry sound**, whether it succeeds or fails. -/
theorem Sound.after {addressWidth : Nat} {registry : Registry}
    (sound : registry.Sound addressWidth) (call : RegistryCall) :
    (registry.after addressWidth call).Sound addressWidth := by
  cases call with
  | enlist address size =>
    simp only [Registry.after]
    split
    · rename_i next slot enlisted
      obtain ⟨window, created, clear, inRow, rfl⟩ := enlist_eq_ok enlisted
      exact sound.place inRow
        (Window.expressible_of_create address.toNat_lt size.toNat_lt created) clear
    · exact sound
  | release slot =>
    simp only [Registry.after]
    split
    · rename_i next window released
      exact sound.release released
    · exact sound

/-- Calls one after the other keep a registry sound. -/
theorem Sound.calls {addressWidth : Nat} {registry : Registry}
    (sound : registry.Sound addressWidth) (calls : List RegistryCall) :
    (calls.foldl (Registry.after addressWidth) registry).Sound addressWidth := by
  induction calls generalizing registry with
  | nil => exact sound
  | cons call calls ih => exact ih (sound.after call)

/-- **Every history keeps the registry sound.** -/
theorem sound_afterAll (addressWidth : Nat) (calls : List RegistryCall) :
    (afterAll addressWidth calls).Sound addressWidth :=
  (sound_empty addressWidth).calls calls

theorem window?_of_openSession {m : Type → Type} {registry : Registry} {master : Master m}
    {slot : Nat} {session : Session m} (opened : registry.openSession master slot = .ok session) :
    registry.window? slot = some session.window := by
  unfold openSession at opened
  split at opened
  · rename_i window live
    cases opened
    exact live
  · cases opened

/-- **Two live devices never latch one address.** After any history of calls on a bus, sessions with
devices in different slots put different numbers on the address lines, whichever of the offsets that
they accept they are asked for. -/
theorem latched_mod_ne {m : Type → Type} (master : Master m) (calls : List RegistryCall)
    {slot other : Nat} (distinct : slot ≠ other) {session neighbour : Session m}
    (opened : (afterAll master.addressWidth calls).openSession master slot = .ok session)
    (openedToo : (afterAll master.addressWidth calls).openSession master other = .ok neighbour)
    (offset otherOffset : UInt32) (accepted : session.window.holdsOffset offset.toNat = true)
    (acceptedToo : neighbour.window.holdsOffset otherOffset.toNat = true) :
    session.window.latched offset.toNat % 2 ^ master.addressWidth ≠
      neighbour.window.latched otherOffset.toNat % 2 ^ master.addressWidth := by
  have sound := sound_afterAll master.addressWidth calls
  have live := window?_of_openSession opened
  have liveToo := window?_of_openSession openedToo
  have first := sound.expressible live
  have second := sound.expressible liveToo
  rcases Window.lt_or_lt_of_not_overlaps (sound.apart distinct live liveToo) with before | before
  · exact (Window.latched_mod_lt _ first.mask_lt second.address_lt before offset.toNat_lt
      accepted).ne
  · exact (Window.latched_mod_lt _ second.mask_lt first.address_lt before otherOffset.toNat_lt
      acceptedToo).ne'

/-- A window of size 0 at address 5 of an 8-bit bus, in a slot that was used before, stays clear of
the window of size 4 below it even at an offset past the address lines. -/
theorem latched_mod_ne_whole_space :
    (5 ||| 0xFFFFFF02) % 2 ^ 8 ≠ (0 ||| 3) % 2 ^ 8 :=
  latched_mod_ne (Recorder.master ⟨8, 8, true, true⟩)
    [.enlist 0 0, .release 0, .enlist 5 0, .enlist 0 4] (show 0 ≠ 1 by decide)
    rfl rfl 0xFFFFFF02 3 (by decide) (by decide)

end Registry

end PanelLink.Addressed
