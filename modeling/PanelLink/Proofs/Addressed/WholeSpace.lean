/-
**What a window of size 0 claims.**

Windows are naturally aligned, and size 0 stands for the whole address space. The test of alignment
leaves the whole space out, while overlaps are decided between the first and the last address and an
offset is joined to the first address. These agree on a window of size 0 at address 0 and at no other.

* `Window.aligned_of_create`: every window of another size is aligned;
* `Registry.exists_call_of_live`: a live window was asked for by a call that did not fail;
* `Registry.AsDescribed`: what the windows of a bus mean, at each moment of a history;
* **`as_described_iff`**: they mean this exactly if no call got the whole space at another address.
-/

import PanelLink.Proofs.Addressed.Registrations

namespace PanelLink.Addressed

namespace Window

/-! ### Masks -/

/-- No other size has the mask of the whole space. -/
theorem maskOf_eq_maskOf_zero_iff {size : Nat} (small : size < 2 ^ 32) :
    maskOf size = maskOf 0 ↔ size = 0 := by
  constructor
  · intro same
    by_contra part
    rw [maskOf, if_neg part] at same
    change size - 1 = 4294967295 at same
    omega
  · rintro rfl
    rfl

/-- The mask of the whole space has every bit that an address may have. -/
theorem and_maskOf_zero {address : Nat} (small : address < 2 ^ 32) :
    address &&& maskOf 0 = address := by
  show address &&& (2 ^ 32 - 1) = address
  rw [Nat.and_two_pow_sub_one_eq_mod, Nat.mod_eq_of_lt small]

variable {address size addressWidth : Nat} {window : Window}

/-- **A window of any size but 0 is aligned.** -/
theorem aligned_of_create (small : size < 2 ^ 32) (part : size ≠ 0)
    (created : create address size addressWidth = .ok window) :
    window.address &&& window.mask = 0 := by
  obtain ⟨-, aligned, -, rfl⟩ := create_eq_ok created
  exact aligned ((maskOf_eq_maskOf_zero_iff small).not.mpr part)

/-- **The phases of an aligned window** latch different addresses. -/
theorem phases_ne_of_aligned (odd : window.mask % 2 = 1)
    (aligned : window.address &&& window.mask = 0) :
    window.latched (phaseOffset .command) ≠ window.latched (phaseOffset .data) := by
  have even : window.address.testBit 0 = false := by
    have none : (window.address &&& window.mask).testBit 0 = false := by
      rw [aligned, Nat.zero_testBit]
    simpa [Nat.testBit_and, odd] using none
  intro same
  have last := congrArg (Nat.testBit · 0) same
  simp [latched, phaseOffset, even] at last

/-- The whole space from address 0 on overlaps every window. -/
theorem overlaps_of_whole {other : Window} (whole : window = ⟨0, maskOf 0⟩)
    (small : other.address < 2 ^ 32) : window.overlaps other = true := by
  have last : window.last = 2 ^ 32 - 1 := by
    rw [whole]
    rfl
  simp only [overlaps, Bool.and_eq_true, decide_eq_true_eq, last]
  rw [whole]
  exact ⟨Nat.zero_le _, by omega⟩

end Window

/-! ### Where live windows come from -/

/-- A call asks for a window of a size at an address. -/
inductive BusCall.AsksFor : BusCall → UInt32 → UInt32 → Prop
  | enlist (address size : UInt32) : AsksFor (.enlist address size) address size
  | claim (address size : UInt32) (reset : Connection) :
    AsksFor (.claim address size reset) address size

namespace Registry

variable {m : Type → Type} (master : Master m)

theorem following_concat (before : List BusCall) (call : BusCall) :
    following master (before ++ [call]) = ((following master before).perform master call).1 :=
  List.foldl_concat _ _ _ _

section Asking

variable {registry : Registry} {address size : UInt32}

theorem enlist_of_perform {next : Registry} {slot : Nat}
    (performed : registry.perform master (.enlist address size) = (next, .enlisted (.ok slot))) :
    registry.enlist address.toNat size.toNat master.addressWidth = .ok (next, slot) := by
  cases enlisted : registry.enlist address.toNat size.toNat master.addressWidth with
  | error error =>
    rw [perform_enlist_error master enlisted] at performed
    cases performed
  | ok taken =>
    rw [perform_enlist_ok master enlisted] at performed
    cases performed
    rfl

/-- A call that asks for a window and does not fail has registered it. -/
theorem enlist_of_granted {call : BusCall} (asks : call.AsksFor address size)
    (granted : ¬(registry.perform master call).2.Failed) :
    ∃ slot, registry.enlist address.toNat size.toNat master.addressWidth =
      .ok ((registry.perform master call).1, slot) := by
  cases asks with
  | enlist =>
    cases enlisted : registry.enlist address.toNat size.toNat master.addressWidth with
    | error error =>
      rw [perform_enlist_error master enlisted] at granted
      exact absurd ⟨error, rfl⟩ granted
    | ok taken =>
      rw [perform_enlist_ok master enlisted]
      exact ⟨taken.2, rfl⟩
  | claim _ _ reset =>
    cases outcome : (Link.claim registry master address.toNat size.toNat reset).2 with
    | error error => exact absurd ⟨error, outcome⟩ granted
    | ok link =>
      exact ⟨link.slot, enlist_of_perform master
        (perform_claim_ok master (congrArg BusAnswer.linked outcome))⟩

/-- What a call that got a window leaves: the window is live. -/
theorem live_of_granted {call : BusCall} (asks : call.AsksFor address size)
    (granted : ¬(registry.perform master call).2.Failed) :
    ∃ slot window, Window.create address.toNat size.toNat master.addressWidth = .ok window ∧
      ¬registry.Meets window ∧ (registry.perform master call).1.window? slot = some window := by
  obtain ⟨slot, enlisted⟩ := enlist_of_granted master asks granted
  obtain ⟨window, created, apart, inRow, next⟩ := enlist_eq_ok enlisted
  refine ⟨slot, window, created, fun ⟨place, present, held, shared⟩ => ?_, ?_⟩
  · have overlap := Window.overlaps_iff.mpr shared
    rw [apart present (mem_windows_of_window? held)] at overlap
    cases overlap
  · rw [next, window?_place inRow, if_pos rfl]

/-- **One call.** A window that is live after it was live before, or the call asked for it. -/
theorem window?_perform (bounded : registry.Bounded) {call : BusCall} {slot : Nat}
    {window : Window} (held : (registry.perform master call).1.window? slot = some window) :
    registry.window? slot = some window ∨ ∃ address size, call.AsksFor address size ∧
      ¬(registry.perform master call).2.Failed ∧
        Window.create address.toNat size.toNat master.addressWidth = .ok window := by
  by_cases failed : (registry.perform master call).2.Failed
  · rw [(alike_of_failed master bounded failed).lookUps] at held
    exact .inl held
  · have asked {address size : UInt32} (asks : call.AsksFor address size) :
        registry.window? slot = some window ∨
          Window.create address.toNat size.toNat master.addressWidth = .ok window := by
      obtain ⟨taken, enlisted⟩ := enlist_of_granted master asks failed
      obtain ⟨placed, created, -, inRow, next⟩ := enlist_eq_ok enlisted
      rw [next, window?_place inRow] at held
      split at held
      · cases held
        exact .inr created
      · exact .inl held
    cases call with
    | enlist address size =>
      exact (asked (.enlist address size)).imp_right fun created =>
        ⟨address, size, .enlist address size, failed, created⟩
    | claim address size reset =>
      exact (asked (.claim address size reset)).imp_right fun created =>
        ⟨address, size, .claim address size reset, failed, created⟩
    | release freed =>
      cases released : registry.release freed with
      | error error =>
        rw [perform_release_error master released] at held
        exact .inl held
      | ok rest =>
        rw [perform_release_ok master released, window?_of_release released] at held
        split at held
        · cases held
        · exact .inl held
    | bind _ _ => exact .inl held
    | lookUp _ => exact .inl held

end Asking

/-- **Every history.** A live window was asked for by a call that did not fail. -/
theorem exists_call_of_live {history : List BusCall} {slot : Nat} {window : Window}
    (held : (following master history).window? slot = some window) :
    ∃ before call address size, before ++ [call] <+: history ∧ call.AsksFor address size ∧
      ¬((following master before).perform master call).2.Failed ∧
        Window.create address.toNat size.toNat master.addressWidth = .ok window := by
  induction history using List.reverseRecOn with
  | nil => simp [following, window?] at held
  | append_singleton earlier call ih =>
    rw [following_concat] at held
    rcases window?_perform master (bounded_following master earlier) held with
      there | ⟨address, size, asks, granted, created⟩
    · obtain ⟨before, call', address, size, inHistory, rest⟩ := ih there
      exact ⟨before, call', address, size, inHistory.trans (List.prefix_append _ _), rest⟩
    · exact ⟨earlier, call, address, size, List.prefix_rfl, asks, granted, created⟩

/-- What every live window has, wherever it begins. -/
theorem shape_of_live {history : List BusCall} {slot : Nat} {window : Window}
    (held : (following master history).window? slot = some window) :
    window.address < 2 ^ 32 ∧ window.mask % 2 = 1 ∧
      ∀ selector, window.holdsOffset (phaseOffset selector) = true := by
  obtain ⟨-, -, address, size, -, -, -, created⟩ := exists_call_of_live master held
  refine ⟨?_, Window.mask_odd_of_create created, Window.holdsOffset_of_create created⟩
  rw [Window.eq_of_create created]
  exact address.toNat_lt

/-! ### The meaning of windows -/

/-- **The windows of a bus mean what they should**, at each moment of a history. -/
structure AsDescribed (history : List BusCall) : Prop where
  /-- Every live window is naturally aligned. -/
  aligned : ∀ {before}, before <+: history → ∀ {slot window},
    (following master before).window? slot = some window → window.address &&& window.mask = 0
  /-- The two phases of an access are within it, at different addresses. -/
  phases : ∀ {before}, before <+: history → ∀ {slot window},
    (following master before).window? slot = some window →
      (∀ selector, window.holdsOffset (phaseOffset selector) = true) ∧
        window.latched (phaseOffset .command) ≠ window.latched (phaseOffset .data)
  /-- While a window of size 0 is live, all others that are well formed are in conflict. -/
  exclusive : ∀ {before}, before <+: history → ∀ {slot window},
    (following master before).window? slot = some window → window.mask = Window.maskOf 0 →
      ∀ {address size : UInt32} {other},
        Window.create address.toNat size.toNat master.addressWidth = .ok other →
          (following master before).enlist address.toNat size.toNat master.addressWidth =
            .error (.addressConflict address.toNat)
  /-- While any device is live, a window of size 0 is refused. -/
  refused : ∀ {before call address}, before ++ [call] <+: history → call.AsksFor address 0 →
    (following master before).live.Nonempty →
      ((following master before).perform master call).2.Failed

variable {master} {history : List BusCall}

/-- What is needed of a history: the whole space was got at address 0 only. -/
def WholeAtZero (master : Master m) (history : List BusCall) : Prop :=
  ∀ {before call address}, before ++ [call] <+: history → BusCall.AsksFor call address 0 →
    ¬((following master before).perform master call).2.Failed → address = 0

/-- A live window is the whole space from address 0 on, or it is a smaller one that is aligned. -/
theorem WholeAtZero.window_eq (suited : WholeAtZero master history) {before : List BusCall}
    (moment : before <+: history) {slot : Nat} {window : Window}
    (held : (following master before).window? slot = some window) :
    window = ⟨0, Window.maskOf 0⟩ ∨
      window.mask ≠ Window.maskOf 0 ∧ window.address &&& window.mask = 0 := by
  obtain ⟨earlier, call, address, size, inBefore, asks, granted, created⟩ :=
    exists_call_of_live master held
  have place := Window.eq_of_create created
  by_cases whole : size = 0
  · subst whole
    have first := suited (inBefore.trans moment) asks granted
    subst first
    exact .inl place
  · have part : size.toNat ≠ 0 := fun none => whole (UInt32.toNat_inj.mp none)
    refine .inr ⟨?_, Window.aligned_of_create size.toNat_lt part created⟩
    rw [place]
    exact (Window.maskOf_eq_maskOf_zero_iff size.toNat_lt).not.mpr part

theorem WholeAtZero.aligned (suited : WholeAtZero master history) {before : List BusCall}
    (moment : before <+: history) {slot : Nat} {window : Window}
    (held : (following master before).window? slot = some window) :
    window.address &&& window.mask = 0 := by
  rcases suited.window_eq moment held with rfl | ⟨-, aligned⟩
  · exact Nat.zero_and _
  · exact aligned

/-- **The windows mean what they should exactly if the whole space was got at address 0 only.** -/
theorem as_described_iff (master : Master m) (history : List BusCall) :
    AsDescribed master history ↔ WholeAtZero master history := by
  constructor
  · intro described before call address inHistory asks granted
    obtain ⟨slot, window, created, -, held⟩ := live_of_granted master asks granted
    rw [← following_concat] at held
    have aligned := described.aligned inHistory held
    rw [Window.eq_of_create created] at aligned
    change address.toNat &&& Window.maskOf 0 = 0 at aligned
    rw [Window.and_maskOf_zero address.toNat_lt] at aligned
    exact UInt32.toNat_inj.mp aligned
  · intro suited
    refine ⟨suited.aligned, fun moment slot window held => ?_,
      fun moment slot window held whole address size other created => ?_,
      fun {before call address} inHistory asks ⟨slot, present, held⟩ => ?_⟩
    · obtain ⟨-, odd, room⟩ := shape_of_live master held
      exact ⟨room, Window.phases_ne_of_aligned odd (suited.aligned moment held)⟩
    · have everything := (suited.window_eq moment held).resolve_right fun part => part.1 whole
      have overlap : window.overlaps other = true := by
        refine Window.overlaps_of_whole everything ?_
        rw [Window.eq_of_create created]
        exact address.toNat_lt
      exact enlist_of_meets created ⟨slot, window, held, Window.overlaps_iff.mp overlap⟩
    · by_contra granted
      obtain ⟨-, window, created, apart, -⟩ := live_of_granted master asks granted
      have first := suited inHistory asks granted
      subst first
      have overlap : window.overlaps present = true :=
        Window.overlaps_of_whole (Window.eq_of_create created) (shape_of_live master held).1
      rw [Window.overlaps_comm] at overlap
      exact apart ⟨slot, present, held, Window.overlaps_iff.mp overlap⟩

/-- On a bus with eight address lines, the whole space is got at address 0x81 beside a live device. Both
phases of its accesses latch one address, and a third device is registered below it. -/
theorem whole_space_beside_device :
    let master := Recorder.master ⟨8, 8, true, true⟩
    let history := [BusCall.enlist 0x10 2, .enlist 0x81 0, .enlist 0x20 2]
    answers master {} history = [.enlisted (.ok 0), .enlisted (.ok 1), .enlisted (.ok 2)] ∧
      (following master history).window? 1 = some ⟨0x81, Window.maskOf 0⟩ ∧
      0x81 &&& Window.maskOf 0 ≠ 0 ∧
      Window.latched ⟨0x81, Window.maskOf 0⟩ (phaseOffset .command) =
        Window.latched ⟨0x81, Window.maskOf 0⟩ (phaseOffset .data) ∧
      ¬AsDescribed master history := by
  intro master history
  have held : (following master history).window? 1 = some ⟨0x81, Window.maskOf 0⟩ := by
    decide +kernel
  refine ⟨by decide +kernel, held, by decide +kernel, by decide +kernel, fun described => ?_⟩
  exact absurd (described.aligned List.prefix_rfl held) (by decide +kernel)

end Registry

end PanelLink.Addressed
