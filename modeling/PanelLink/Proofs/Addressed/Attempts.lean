/-
**The calls of a master that an access attempts.**

Any call of a master may fail, and each of them may leave the master in any state. A journal notes
every call that is attempted, with its answer.

* `Execution`: what it means that actions run one after the other from a state;
* `Master.journaled`: a master that notes its calls and otherwise does what it did;
* `Execution.run_calls`: calls in order are attempted up to the first failure, by induction on the
  calls;
* `Registry.latched_of_mem_agenda`: an agenda stays within the window;
* **`attempts_agenda`**: every access attempts a prefix of its agenda and then latches address 0.
-/

import PanelLink.Proofs.Addressed.Agenda

namespace PanelLink.Addressed

open Parallel (Access)

/-! ### Executions -/

/-- **A way to run actions from a state**, one after the other. -/
structure Execution (m : Type → Type) [Monad m] (σ : Type) where
  run {α : Type} : m α → σ → α × σ
  run_pure {α : Type} (value : α) (state : σ) : run (pure value) state = (value, state)
  run_bind {α β : Type} (first : m α) (next : α → m β) (state : σ) :
    run (first >>= next) state = run (next (run first state).1) (run first state).2

namespace Execution

/-- Actions without a state of their own. -/
def plain : Execution Id Unit where
  run action state := (action, state)
  run_pure _ _ := rfl
  run_bind _ _ _ := rfl

section Monads

variable {m : Type → Type} [Monad m] {σ : Type} (execution : Execution m σ)

/-- Actions with one more state. -/
def withState {τ : Type} : Execution (StateT τ m) (τ × σ) where
  run action states :=
    let ran := execution.run (action.run states.1) states.2
    (ran.1.1, (ran.1.2, ran.2))
  run_pure value states := by
    simp only [StateT.run_pure, execution.run_pure]
  run_bind first next states := by
    simp only [StateT.run_bind, execution.run_bind]

theorem run_map [LawfulMonad m] {α β : Type} (use : α → β) (action : m α) (state : σ) :
    execution.run (use <$> action) state =
      (use (execution.run action state).1, (execution.run action state).2) := by
  rw [map_eq_pure_bind, execution.run_bind, execution.run_pure]

end Monads

end Execution

/-! ### Journals -/

/-- A call that was attempted, and its answer. -/
structure Attempt where
  call : MasterCall
  answer : Except MasterFailure Unit

/-- An attempt that succeeded. -/
def Attempt.succeeded (call : MasterCall) : Attempt :=
  ⟨call, .ok ()⟩

/-- The attempts so far, the earliest first. -/
abbrev Journal :=
  List Attempt

section Journals

variable {m : Type → Type} [Monad m]

/-- An action that is noted as an attempt at a call. -/
def noted {α : Type} (call : MasterCall) (answer : α → Except MasterFailure Unit) (action : m α) :
    StateT Journal m α := do
  let result ← action
  modify (· ++ [⟨call, answer result⟩])
  return result

/-- **A master that notes its calls** and otherwise does what it did. -/
def Master.journaled (master : Master m) : Master (StateT Journal m) where
  addressWidth := master.addressWidth
  dataWidth := master.dataWidth
  readable := master.readable
  writable := master.writable
  latchAddress address :=
    ExceptT.mk (noted (.latch address) id (master.latchAddress address).run)
  write words := ExceptT.mk (noted (.write words) id (master.write words).run)
  read element count := noted (.read element count) Reading.outcome (master.read element count)

variable [LawfulMonad m]

theorem run_noted {α : Type} (call : MasterCall) (answer : α → Except MasterFailure Unit)
    (action : m α) (journal : Journal) :
    (noted call answer action).run journal =
      (fun result => (result, journal ++ [⟨call, answer result⟩])) <$> action := by
  simp [noted]

/-- **A journaled call** does what the call does and is noted. -/
theorem Master.run_attempt_journaled (master : Master m) (call : MasterCall) (journal : Journal) :
    (master.journaled.attempt call).run journal =
      (fun answer => (answer, journal ++ [⟨call, answer⟩])) <$> master.attempt call := by
  cases call with
  | latch address => exact run_noted _ _ _ _
  | write words => exact run_noted _ _ _ _
  | read element count =>
    show (noted _ _ (master.read element count) >>= fun reading => pure reading.outcome).run
      journal = _
    rw [StateT.run_bind, run_noted]
    simp [Master.attempt]

theorem Master.run_make_journaled (master : Master m) (call : MasterCall) (journal : Journal) :
    (master.journaled.make call).run.run journal =
      (fun answer => (answer.mapError fun _ => .linkFailed call.fault,
        journal ++ [⟨call, answer⟩])) <$> master.attempt call := by
  unfold make
  rw [ExceptT.run_adapt, StateT.run_map]
  show _ <$> (master.journaled.attempt call).run journal = _
  rw [run_attempt_journaled, Functor.map_map]

end Journals

/-! ### Calls in order -/

section Runs

variable {m : Type → Type} [Monad m] [LawfulMonad m] {σ : Type} (execution : Execution m σ)
  (master : Master m)

/-- How calls in order go, and what is noted of them: all of them succeed, or one of them fails after
all the others before it. -/
def Follows (calls : List MasterCall) (attempts : Journal) (outcome : Except AccessError Unit) :
    Prop :=
  (attempts = calls.map .succeeded ∧ outcome = .ok ()) ∨
    ∃ before call later failure, calls = before ++ call :: later ∧
      attempts = before.map .succeeded ++ [⟨call, .error failure⟩] ∧
      outcome = .error (.linkFailed call.fault)

theorem Follows.cons {calls : List MasterCall} {attempts : Journal}
    {outcome : Except AccessError Unit} (follows : Follows calls attempts outcome)
    (call : MasterCall) : Follows (call :: calls) (.succeeded call :: attempts) outcome := by
  rcases follows with ⟨rfl, rfl⟩ | ⟨before, failing, later, failure, rfl, rfl, rfl⟩
  · exact Or.inl ⟨rfl, rfl⟩
  · exact Or.inr ⟨call :: before, failing, later, failure, rfl, rfl, rfl⟩

/-- **Calls in order** are attempted up to the first one that fails. -/
theorem Execution.run_calls (calls : List MasterCall) (journal : Journal) (state : σ) :
    ∃ attempts outcome after, Follows calls attempts outcome ∧
      execution.run (calls.forM master.make).run state = (outcome, after) ∧
      execution.run ((calls.forM master.journaled.make).run.run journal) state =
        ((outcome, journal ++ attempts), after) := by
  induction calls generalizing journal state with
  | nil =>
    refine ⟨[], .ok (), state, Or.inl ⟨rfl, rfl⟩, execution.run_pure _ _, ?_⟩
    rw [List.append_nil]
    exact execution.run_pure _ _
  | cons call calls ih =>
    show ∃ attempts outcome after, _ ∧
      execution.run (master.make call >>= fun _ => calls.forM master.make).run state = _ ∧
      execution.run ((master.journaled.make call >>= fun _ =>
        calls.forM master.journaled.make).run.run journal) state = _
    simp only [ExceptT.run_bind, StateT.run_bind, execution.run_bind, master.run_make,
      master.run_make_journaled, execution.run_map]
    match execution.run (master.attempt call) state with
    | (.ok (), middle) =>
      obtain ⟨attempts, outcome, after, follows, ran, noted⟩ :=
        ih (journal ++ [⟨call, .ok ()⟩]) middle
      refine ⟨_, outcome, after, follows.cons call, ran, noted.trans ?_⟩
      rw [List.append_assoc]
      rfl
    | (.error failure, middle) =>
      exact ⟨[⟨call, .error failure⟩], _, middle,
        Or.inr ⟨[], call, calls, failure, rfl, rfl, rfl⟩, execution.run_pure _ _,
        execution.run_pure _ _⟩

/-- **An agenda within a session**: its calls in order, up to the first that fails, and then address 0
is latched. -/
theorem Execution.run_attend (agenda : Agenda) (journal : Journal) (state : σ) :
    ∃ attempts outcome closing ending after, Follows agenda.calls attempts outcome ∧
      (ending = (outcome.bind fun _ => agenda.ending).bind fun _ =>
        closing.mapError fun _ => .linkFailed .addressLatch) ∧
      execution.run (agenda.attend master) state = (ending, after) ∧
      execution.run ((agenda.attend master.journaled).run journal) state =
        ((ending, journal ++ attempts ++ [⟨.latch 0, closing⟩]), after) := by
  obtain ⟨attempts, outcome, middle, follows, ran, noted⟩ :=
    execution.run_calls master agenda.calls journal state
  match latched : execution.run (master.attempt (.latch 0)) middle with
  | (closing, after) =>
    refine ⟨attempts, outcome, closing, _, after, follows, rfl, ?_, ?_⟩
    · unfold Agenda.attend
      rw [execution.run_bind, Agenda.run_carryOut, execution.run_map, ran, execution.run_bind,
        execution.run_pure, Master.run_make, execution.run_map, latched]
      rfl
    · unfold Agenda.attend
      rw [StateT.run_bind, execution.run_bind, Agenda.run_carryOut, StateT.run_map,
        execution.run_map, noted, StateT.run_bind, execution.run_bind, StateT.run_pure,
        execution.run_pure, master.run_make_journaled, execution.run_map, latched]
      rfl

end Runs

/-! ### Addresses of an agenda -/

section Addresses

variable {window : Window} {call : MasterCall}

theorem Agenda.mem_calls_andThen {first next : Agenda} (member : call ∈ (first.andThen next).calls) :
    call ∈ first.calls ∨ call ∈ next.calls := by
  unfold andThen at member
  split at member
  · exact List.mem_append.mp member
  · exact Or.inl member

theorem Agenda.mem_calls_ofPhase {dataWidth : Nat} {width : Width} {calls : List MasterCall}
    (member : call ∈ (ofPhase dataWidth width calls).calls) : call ∈ calls := by
  unfold ofPhase at member
  split at member
  · exact member
  · cases member

/-- Chunks that are not latches are preceded by the address of their phase. -/
theorem latched_of_mem_chunked {selector : Selector} {chunks : List MasterCall} {address : Nat}
    (moves : .latch address ∉ chunks) (member : .latch address ∈ window.chunked selector chunks) :
    address = window.latched (phaseOffset selector) := by
  obtain ⟨chunk, among, latches⟩ := List.mem_flatMap.mp member
  simp only [List.mem_cons, MasterCall.latch.injEq, List.not_mem_nil, or_false] at latches
  rcases latches with here | rfl
  · exact here
  · exact absurd among moves

/-- **An agenda latches addresses of the two phases** only. -/
theorem latched_of_mem_agenda {dataWidth : Nat} {access : Access} {address : Nat}
    (member : .latch address ∈ (agenda dataWidth window access).calls) :
    ∃ selector, address = window.latched (phaseOffset selector) := by
  have selects {register : Nat} {width : Width}
      (among : .latch address ∈ (selection dataWidth window register width).calls) :
      address = window.latched (phaseOffset .command) := by
    have latches := Agenda.mem_calls_ofPhase among
    simpa using latches
  cases access with
  | write context register request =>
    rcases Agenda.mem_calls_andThen member with first | next
    · exact ⟨.command, selects first⟩
    · split at next
      · cases next
      · rename_i present given
        refine ⟨present.selector, latched_of_mem_chunked ?_ (Agenda.mem_calls_ofPhase next)⟩
        simp
  | read context register request =>
    rcases Agenda.mem_calls_andThen member with first | next
    · exact ⟨.command, selects first⟩
    · refine ⟨request.selector, latched_of_mem_chunked ?_ (Agenda.mem_calls_ofPhase next)⟩
      unfold readChunks
      split <;> simp

/-- **An agenda stays within a live window.** -/
theorem Registry.latched_of_mem_agenda {addressWidth : Nat} {calls : List RegistryCall} {slot : Nat}
    (live : (afterAll addressWidth calls).window? slot = some window) {dataWidth : Nat}
    {access : Access} {address : Nat}
    (member : .latch address ∈ (agenda dataWidth window access).calls) :
    window.address ≤ address ∧ address ≤ window.last := by
  obtain ⟨selector, rfl⟩ := Addressed.latched_of_mem_agenda member
  have small : phaseOffset selector < 2 ^ 32 := by
    cases selector <;> decide
  have expressible := (sound_afterAll addressWidth calls).expressible live
  exact ⟨Nat.left_le_or, Window.latched_le_last expressible.mask_lt small
    (holdsOffset_of_afterAll live selector)⟩

end Addresses

theorem Follows.begins {calls : List MasterCall} {attempts : Journal}
    {outcome : Except AccessError Unit} (follows : Follows calls attempts outcome) :
    attempts.map (·.call) <+: calls := by
  have kept (made : List MasterCall) : (made.map Attempt.succeeded).map (·.call) = made := by
    rw [List.map_map]
    exact List.map_id made
  rcases follows with ⟨rfl, -⟩ | ⟨before, call, later, failure, rfl, rfl, -⟩
  · exact (kept calls).symm ▸ List.prefix_refl calls
  · rw [List.map_append, kept]
    exact ⟨later, by simp⟩

/-- **Every access attempts a prefix of its agenda and then latches address 0.** A link was bound to
a device that is live after any history of registrations, over a master whose calls may fail in any
way. Of the agenda all calls are attempted if they succeed, and none after the first that fails.
Nothing is attempted after address 0 was latched, once and on every path. The error of the access is
that of the call that failed, else that of a width that the bus does not carry, else that of the
latch at the end. All other latches are of addresses in the window of the device. Noting the attempts
changes nothing else. -/
theorem attempts_agenda {m : Type → Type} [Monad m] [LawfulMonad m] {σ : Type}
    (execution : Execution m σ) {master : Master m} {earlier : Registry} {slot : Nat}
    {reset : Connection} {link : Link} (bound : Link.bind earlier master slot reset = .ok link)
    {calls : List RegistryCall} {window : Window}
    (live : (Registry.afterAll master.addressWidth calls).window? slot = some window)
    {access : Access} (served : master.Serves access) (journal : Journal) (state : σ) :
    let registry := Registry.afterAll master.addressWidth calls
    let asked := agenda master.dataWidth window access
    ∃ attempts outcome closing after,
      execution.run (((link.attend master.journaled access).run registry).run journal) state =
        (((outcome, registry), journal ++ attempts ++ [⟨.latch 0, closing⟩]), after) ∧
      execution.run ((link.attend master access).run registry) state =
        ((outcome, registry), after) ∧
      attempts.map (·.call) <+: asked.calls ∧
      ((attempts = asked.calls.map .succeeded ∧
          outcome = asked.ending.bind fun _ =>
            closing.mapError fun _ => .linkFailed .addressLatch) ∨
        ∃ before call later failure, asked.calls = before ++ call :: later ∧
          attempts = before.map .succeeded ++ [⟨call, .error failure⟩] ∧
          outcome = .error (.linkFailed call.fault)) ∧
      ∀ address answer, ⟨.latch address, answer⟩ ∈ attempts →
        window.address ≤ address ∧ address ≤ window.last := by
  obtain ⟨rfl, writable, wired, narrow, -⟩ := Link.bind_eq_ok bound
  have held := Registry.holdsOffset_of_afterAll live
  obtain ⟨attempts, outcome, closing, ending, after, follows, ended, ran, noted⟩ :=
    execution.run_attend master (agenda master.dataWidth window access) journal state
  refine ⟨attempts, ending, closing, after, ?_, ?_, follows.begins, ?_,
    fun address answer member => ?_⟩
  · rw [attend_eq (m := StateT Journal m) writable wired narrow held rfl live served,
      StateT.run_map, execution.run_map]
    exact congrArg (fun ended : _ × σ => (((ended.1.1, _), ended.1.2), ended.2)) noted
  · rw [attend_eq writable wired narrow held rfl live served, execution.run_map, ran]
  · rcases follows with ⟨made, rfl⟩ | ⟨before, call, later, failure, cut, made, rfl⟩
    · exact Or.inl ⟨made, ended⟩
    · exact Or.inr ⟨before, call, later, failure, cut, made, ended⟩
  · exact Registry.latched_of_mem_agenda live
      (follows.begins.subset (List.mem_map.mpr ⟨_, member, rfl⟩))

/-- Two elements of 16 bits on a bus of eight data lines, whose master refuses its fourth call. -/
theorem attempts_agenda_of_refusedWrite :
    let recorder : Recorder := ⟨8, 8, true, true⟩
    let registry := Registry.afterAll 8 [.enlist 16 4]
    let link : Link := ⟨0, .absent, 8, true⟩
    let access : Access := .write ⟨.bits8, ⟨0⟩⟩ 0x2C
      (some ⟨.data, .ofList .half [0x1234, 0xABCD], some .bits16, 0⟩)
    let bench : Bench := { masterFails := fun attempt _ => attempt == 3 }
    Link.bind registry recorder.master 0 .absent = .ok link ∧
      registry.window? 0 = some ⟨16, 3⟩ ∧ recorder.master.Serves access ∧
      ∃ attempts closing after,
        Execution.plain.withState.run
            (((link.attend recorder.master.journaled access).run registry).run []) (bench, ()) =
          (((.error (.linkFailed .bus), registry), attempts ++ [⟨.latch 0, closing⟩]), after) ∧
        attempts.map (·.call) = [.latch 16, .write (.ofList .byte [0x2C]),
          .latch 17, .write (.ofList .byte [0x12, 0x34, 0xAB, 0xCD])] ∧
        ∀ address answer, ⟨.latch address, answer⟩ ∈ attempts → 16 ≤ address ∧ address ≤ 19 := by
  intro recorder registry link access bench
  have bound : Link.bind registry recorder.master 0 .absent = .ok link := by decide +kernel
  have live : registry.window? 0 = some ⟨16, 3⟩ := by decide +kernel
  obtain ⟨attempts, outcome, closing, after, ran, -, -, -, within⟩ :=
    attempts_agenda Execution.plain.withState bound live (show recorder.master.Serves access from
      trivial) [] (bench, ())
  have refused : outcome = .error (.linkFailed .bus) :=
    (congrArg (·.1.1.1) ran).symm.trans (by decide +kernel)
  have made : (attempts ++ [Attempt.mk (.latch 0) closing]).map (·.call) =
      ([.latch 16, .write (.ofList .byte [0x2C]), .latch 17,
        .write (.ofList .byte [0x12, 0x34, 0xAB, 0xCD])] ++ [.latch 0] : List MasterCall) :=
    (congrArg (fun ended => ended.1.2.map Attempt.call) ran).symm.trans (by decide +kernel)
  rw [List.map_append] at made
  exact ⟨bound, live, trivial, attempts, closing, after, refused ▸ ran,
    List.append_cancel_right made, within⟩

end PanelLink.Addressed
