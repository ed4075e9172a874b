/-
**A recording master that does what it is asked.**

Where no call is planned to fail, a phase of an access is the list of its calls: the address of its
window latched before each run of words.

* `Window.holdsOffset_of_create`: a window has room for both phases;
* `Bench.Called`: between two benches the master was called in this way;
* `Makes`: an action that succeeds with these calls, whatever the bench, with `Makes.andThen` and
  `Makes.forM`;
* `makes_write`, `reads_session`: words written and read in a session.
-/

import PanelLink.Addressed.Link
import PanelLink.Addressed.Recorder
import PanelLink.Proofs.Addressed.Disjointness
import PanelLink.Proofs.Bench.Trace

namespace PanelLink

/-! ### Windows of registered devices -/

namespace Addressed

/-- A power of two other than 1 is even. -/
theorem even_of_isPowerOfTwo {size : Nat} (power : Window.isPowerOfTwo size = true) (wide : size ≠ 1) :
    size % 2 = 0 := by
  simp only [Window.isPowerOfTwo, Bool.and_eq_true, bne_iff_ne, beq_iff_eq] at power
  obtain ⟨some, alone⟩ := power
  -- If the size were odd, the size and its predecessor would have the same half, which is not 0.
  by_contra odd
  have halves := congrArg (· / 2) alone
  simp only [Nat.and_div_two] at halves
  have same : (size - 1) / 2 = size / 2 := by omega
  rw [same, Nat.and_self] at halves
  omega

/-- Every window has an odd mask: it holds two addresses or more. -/
theorem Window.mask_odd_of_create {address size addressWidth : Nat} {window : Window}
    (created : Window.create address size addressWidth = .ok window) : window.mask % 2 = 1 := by
  obtain ⟨⟨several, power⟩, -, -, rfl⟩ := create_eq_ok created
  show maskOf size % 2 = 1
  by_cases whole : size = 0
  · rw [whole]
    rfl
  · have even := even_of_isPowerOfTwo (power whole) several
    rw [maskOf, if_neg whole]
    omega

/-- **A window has room for both phases.** -/
theorem Window.holdsOffset_of_create {address size addressWidth : Nat} {window : Window}
    (created : Window.create address size addressWidth = .ok window) (selector : Selector) :
    window.holdsOffset (phaseOffset selector) = true := by
  have odd := mask_odd_of_create created
  have clear : (fullMask - window.mask) % 2 = 0 := by
    unfold fullMask
    omega
  cases selector with
  | command => simp [holdsOffset, phaseOffset]
  | data =>
    simp only [holdsOffset, phaseOffset, beq_iff_eq]
    rw [Nat.one_and_eq_mod_two, clear]

namespace Registry

/-- Every live window was made for the bus. -/
def Proper (addressWidth : Nat) (registry : Registry) : Prop :=
  ∀ slot window, registry.window? slot = some window →
    ∃ address size, Window.create address size addressWidth = .ok window

/-- One call keeps all live windows proper. -/
theorem Proper.after {addressWidth : Nat} {registry : Registry} (proper : registry.Proper addressWidth)
    (call : RegistryCall) : (registry.after addressWidth call).Proper addressWidth := by
  intro other held live
  cases call with
  | enlist address size =>
    simp only [Registry.after] at live
    split at live
    · rename_i next slot enlisted
      obtain ⟨window, created, -, inRow, rfl⟩ := enlist_eq_ok enlisted
      rw [window?_place inRow] at live
      split at live
      · cases live
        exact ⟨_, _, created⟩
      · exact proper other held live
    · exact proper other held live
  | release slot =>
    simp only [Registry.after] at live
    split at live
    · rename_i next window released
      rw [window?_of_release released] at live
      split at live
      · cases live
      · exact proper other held live
    · exact proper other held live

/-- **Every window that is live after a history of calls has room for both phases.** -/
theorem holdsOffset_of_afterAll {addressWidth : Nat} {calls : List RegistryCall} {slot : Nat}
    {window : Window} (live : (afterAll addressWidth calls).window? slot = some window)
    (selector : Selector) : window.holdsOffset (phaseOffset selector) = true := by
  have run {registry : Registry} (proper : registry.Proper addressWidth) :
      (calls.foldl (Registry.after addressWidth) registry).Proper addressWidth := by
    clear live
    induction calls generalizing registry with
    | nil => exact proper
    | cons call calls ih => exact ih (proper.after call)
  have fresh : ({} : Registry).Proper addressWidth := fun _ _ live => by simp [window?] at live
  obtain ⟨address, size, created⟩ := run fresh slot window live
  exact Window.holdsOffset_of_create created selector

end Registry

end Addressed

/-! ### Calls of the master -/

/-- No call of the recording master is planned to fail. -/
def Bench.Obliging (bench : Bench) : Prop :=
  ∀ attempt call, bench.masterFails attempt call = false

/-- How many words a call takes from the queue. -/
def MasterCall.taken : MasterCall → Nat
  | .read _ count => count
  | _ => 0

/-- **The master was called in exactly this way** between two benches. -/
structure Bench.Called (bench after : Bench) (calls : List MasterCall) : Prop where
  made : after.masterCalls = bench.masterCalls ++ calls
  plan : after.masterFails = bench.masterFails
  incoming : after.masterIncoming = bench.masterIncoming.drop (calls.map MasterCall.taken).sum

namespace Bench.Called

theorem refl (bench : Bench) : bench.Called bench [] :=
  ⟨(List.append_nil _).symm, rfl, rfl⟩

theorem trans {bench middle after : Bench} {calls later : List MasterCall}
    (called : bench.Called middle calls) (calledOn : middle.Called after later) :
    bench.Called after (calls ++ later) where
  made := by rw [calledOn.made, called.made, List.append_assoc]
  plan := calledOn.plan.trans called.plan
  incoming := by
    rw [calledOn.incoming, called.incoming, List.drop_drop, List.map_append, List.sum_append]

theorem obliging {bench after : Bench} {calls : List MasterCall} (called : bench.Called after calls)
    (obliging : bench.Obliging) : after.Obliging := by
  intro attempt call
  rw [called.plan]
  exact obliging attempt call

end Bench.Called

/-- **The action succeeds with these calls of the master** on every bench where no call fails. -/
def Makes {ε : Type} (action : ExceptT ε BenchM PUnit) (calls : List MasterCall) : Prop :=
  ∀ bench, bench.Obliging → ∃ after, action.run.run bench = (.ok (), after) ∧
    bench.Called after calls

namespace Makes

variable {ε : Type}

theorem nothing : Makes (pure () : ExceptT ε BenchM PUnit) [] :=
  fun bench _ => ⟨bench, rfl, .refl bench⟩

theorem andThen {first next : ExceptT ε BenchM PUnit} {calls later : List MasterCall}
    (makes : Makes first calls) (makesNext : Makes next later) :
    Makes (first >>= fun _ => next) (calls ++ later) := by
  intro bench obliging
  obtain ⟨middle, ran, called⟩ := makes bench obliging
  obtain ⟨after, ranNext, calledNext⟩ := makesNext middle (called.obliging obliging)
  exact ⟨after, (run_bind_ok ran).trans ranNext, called.trans calledNext⟩

/-- An action for each item makes the calls of each item in turn. -/
theorem forM {ι : Type} {items : List ι} {action : ι → ExceptT ε BenchM PUnit}
    {calls : ι → List MasterCall} (makes : ∀ item ∈ items, Makes (action item) (calls item)) :
    Makes (items.forM action) (items.flatMap calls) := by
  induction items with
  | nil => exact nothing
  | cons item items ih =>
    exact (makes item List.mem_cons_self).andThen
      (ih fun other member => makes other (List.mem_cons_of_mem item member))

theorem adapt {ε' : Type} {action : ExceptT ε BenchM PUnit} {calls : List MasterCall}
    (restate : ε → ε') (makes : Makes action calls) : Makes (action.adapt restate) calls := by
  intro bench obliging
  obtain ⟨after, ran, called⟩ := makes bench obliging
  refine ⟨after, ?_, called⟩
  rw [ExceptT.run_adapt, StateT.run_map, ran]
  rfl

end Makes

namespace Addressed

variable {recorder : Recorder}

/-- A call that fits the bus is carried out and recorded. -/
theorem Recorder.run_call {call : MasterCall} (fits : recorder.fits call = true) {bench : Bench}
    (obliging : bench.Obliging) :
    (recorder.call call).run.run bench =
      (.ok (),
        { bench with masterAttempts := bench.masterAttempts + 1 }.record (.master call false)) := by
  have works : (!recorder.fits call || bench.masterFails bench.masterAttempts call) = false := by
    rw [fits, obliging]
    rfl
  show ((if (!recorder.fits call || bench.masterFails bench.masterAttempts call) = true then
    .error .refused else .ok (), _) : Except MasterFailure Unit × Bench) = _
  rw [works]
  rfl

/-- A recorded call that takes no words from the queue. -/
theorem Recorder.makes_call {call : MasterCall} (fits : recorder.fits call = true)
    (takesNone : call.taken = 0) : Makes (recorder.call call) [call] := by
  intro bench obliging
  refine ⟨_, Recorder.run_call fits obliging, ?_, rfl, ?_⟩
  · simp [Bench.masterCalls, Bench.record]
  · simp [takesNone, Bench.record]

/-- A recorded read takes its words from the front of the queue. -/
theorem Recorder.reads {element : Element} (fits : element = busElement recorder.dataWidth)
    (count : Nat) {bench : Bench} (obliging : bench.Obliging) :
    ∃ after, (recorder.read element count).run bench =
        (.complete (takeIncoming element count bench.masterIncoming), after) ∧
      bench.Called after [.read element count] := by
  have fitting : recorder.fits (.read element count) = true := by simp [Recorder.fits, fits]
  have called := Recorder.run_call fitting obliging
  unfold Recorder.read
  rw [StateT.run_bind, called]
  refine ⟨_, rfl, ?_, rfl, ?_⟩
  · simp [Bench.masterCalls, Bench.record]
  · simp [MasterCall.taken, Bench.record]

section Session

variable {window : Window} {offset : Nat}

theorem makes_latchOffset (held : window.holdsOffset offset = true) :
    Makes (Session.latchOffset ⟨recorder.master, window⟩ offset) [.latch (window.latched offset)] := by
  unfold Session.latchOffset
  rw [held]
  exact (Recorder.makes_call rfl rfl).adapt _

/-- **Words written in a session** go to the address of their offset. -/
theorem makes_write (writable : recorder.writable = true) (held : window.holdsOffset offset = true)
    {words : Words} (fits : words.element = busElement recorder.dataWidth) :
    Makes (Session.write ⟨recorder.master, window⟩ offset words)
      [.latch (window.latched offset), .write words] := by
  unfold Session.write
  rw [show recorder.master.writable = true from writable]
  exact (makes_latchOffset held).andThen
    ((Recorder.makes_call (by simp [Recorder.fits, fits]) rfl).adapt _)

/-- A session ends with address 0. -/
theorem makes_close : Makes (Session.close ⟨recorder.master, window⟩) [.latch 0] :=
  (Recorder.makes_call rfl rfl).adapt _

/-- **Words read in a session** are taken from the front of the queue. -/
theorem reads_session (readable : recorder.readable = true) (held : window.holdsOffset offset = true)
    {element : Element} (fits : element = busElement recorder.dataWidth) (count : Nat) {bench : Bench}
    (obliging : bench.Obliging) :
    ∃ after, (Session.read ⟨recorder.master, window⟩ offset element count).run bench =
        (.complete (takeIncoming element count bench.masterIncoming), after) ∧
      bench.Called after [.latch (window.latched offset), .read element count] := by
  obtain ⟨latched, ran, called⟩ := makes_latchOffset held bench obliging
  obtain ⟨after, ranOn, calledOn⟩ := Recorder.reads fits count (called.obliging obliging)
  have queue : latched.masterIncoming = bench.masterIncoming := called.incoming
  refine ⟨after, ?_, called.trans calledOn⟩
  unfold Session.read
  rw [show recorder.master.readable = true from readable]
  show ((Session.latchOffset ⟨recorder.master, window⟩ offset).run >>= _).run bench = _
  rw [StateT.run_bind, ran]
  show (recorder.read element count >>= _).run latched = _
  rw [StateT.run_bind, ranOn, queue]
  rfl

end Session

end Addressed

end PanelLink
