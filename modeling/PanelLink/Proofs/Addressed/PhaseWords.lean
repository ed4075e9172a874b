/-
**The words of a phase on an addressed bus.**

Elements that fill a bus word go to the master as they are, and all others are cut into pieces that
are staged 64 at a time. On the data lines both ways come to the same: the digits of each element.

* `phaseWrites`: the runs of words that a phase hands to the master;
* `sendPhase_eq`: a phase writes these runs, one after the other, whatever the master;
* `Spells`: what the runs of a phase have to be, and `spells_phaseWrites`: they are;
* `Link.phases`: the phases of an access;
* **`write_spells`**: a write over a window makes exactly the calls of its phases.
-/

import PanelLink.Proofs.Addressed.Obliging
import PanelLink.Proofs.Bench.Wires
import PanelLink.Proofs.Pieces

namespace PanelLink.Addressed

/-! ### Runs of words -/

theorem goesAsIs_iff {element : Element} {width : Width} {dataWidth : Nat} :
    goesAsIs element width dataWidth = true ↔
      width.bits ≤ dataWidth ∧ element = busElement dataWidth := by
  simp [goesAsIs]

/-- The pieces of elements, staged for the master. -/
def stagedWrites (dataWidth : Nat) (words : Words) (width : Width) : List Words :=
  (portions stageLength
    (words.values.flatMap (piecesOf (digitCount width dataWidth) dataWidth))).map
      (Words.ofList (busElement dataWidth))

/-- **The runs of words that a phase hands to the master.** -/
def phaseWrites (dataWidth : Nat) (words : Words) (width : Width) : List Words :=
  if goesAsIs words.element width dataWidth then [words] else stagedWrites dataWidth words width

/-- The words of runs as the data lines show them. -/
def onLines (dataWidth : Nat) (writes : List Words) : List Nat :=
  (writes.flatMap (·.values)).map (· % 2 ^ dataWidth)

/-- **A phase writes its runs**, one after the other, whatever the master. -/
theorem sendPhase_eq {m : Type → Type} [Monad m] [LawfulMonad m] (session : Session m)
    (wired : 0 < session.master.dataWidth) (selector : Selector) (words : Words) {width : Width}
    (carried : width.Carried session.master.dataWidth) :
    sendPhase session selector words width =
      (phaseWrites session.master.dataWidth words width).forM fun run =>
        onBus (session.write (phaseOffset selector) run) := by
  unfold sendPhase phaseWrites
  by_cases native : goesAsIs words.element width session.master.dataWidth = true
  · simp only [native, if_true]
    exact (bind_pure _).symm
  · simp only [if_neg native]
    rw [piecesPerElement_of_carried wired carried, stagedWrites, List.forM_eq_forM, List.forM_eq_forM,
      List.forM_map]
    exact pure_bind (digitCount width session.master.dataWidth) _

/-! ### What the data lines show -/

/-- A word of the bus's element keeps the bits that the data lines show. -/
theorem dvd_busElement {dataWidth : Nat} (narrow : dataWidth ≤ 32) :
    2 ^ dataWidth ∣ (busElement dataWidth).modulus := by
  unfold busElement
  split
  · exact pow_dvd_pow 2 narrow
  · split
    · exact pow_dvd_pow 2 (show dataWidth ≤ 16 by omega)
    · exact pow_dvd_pow 2 (show dataWidth ≤ 8 by omega)

section Words

variable {dataWidth : Nat} (narrow : dataWidth ≤ 32) (words : Words) (width : Width)

include narrow

/-- **Staged words show the digits of the elements.** -/
theorem onLines_stagedWrites : onLines dataWidth (stagedWrites dataWidth words width) =
    words.values.flatMap (digits width dataWidth) := by
  have kept (stage : List Nat) : ((Words.ofList (busElement dataWidth) stage).values).map
      (· % 2 ^ dataWidth) = stage.map (· % 2 ^ dataWidth) := by
    rw [Words.values_ofList, List.map_map]
    exact List.map_congr_left fun word _ => Nat.mod_mod_of_dvd word (dvd_busElement narrow)
  unfold onLines stagedWrites
  rw [flatMap_piecesOf narrow, List.flatMap_map, List.map_flatMap]
  simp only [kept]
  rw [← List.map_flatMap, List.flatMap_id', flatten_portions, List.map_flatMap]
  exact List.flatMap_congr fun value _ => map_mod_digits width dataWidth value

/-- **Whichever way the words of a phase go**, the data lines show the digits of its elements. -/
theorem onLines_phaseWrites : onLines dataWidth (phaseWrites dataWidth words width) =
    words.values.flatMap (digits width dataWidth) := by
  unfold phaseWrites
  split
  · rename_i native
    have single : digits width dataWidth = fun value => [value % 2 ^ dataWidth] :=
      funext (digits_of_bits_le (goesAsIs_iff.mp native).1)
    rw [onLines, List.flatMap_singleton, single, List.map_eq_flatMap]
  · exact onLines_stagedWrites narrow words width

end Words

/-- What is asked of the runs of a phase one by one: none is empty, each is made of words of the bus,
and one that was staged is no longer than the stage. -/
theorem run_of_mem_phaseWrites {dataWidth : Nat} {words : Words} {width : Width} {run : Words}
    (member : run ∈ phaseWrites dataWidth words width) :
    (words.values ≠ [] → run.values ≠ []) ∧ run.element = busElement dataWidth ∧
      (goesAsIs words.element width dataWidth = false → run.length ≤ stageLength) := by
  unfold phaseWrites at member
  split at member
  · rename_i native
    rw [List.mem_singleton.mp member]
    exact ⟨id, (goesAsIs_iff.mp native).2, fun staged => by rw [native] at staged; cases staged⟩
  · obtain ⟨stage, staged, rfl⟩ := List.mem_map.mp member
    refine ⟨fun _ => ?_, rfl, fun _ => ?_⟩
    · simpa using ne_nil_of_mem_portions staged
    · simpa [Words.length] using length_le_of_mem_portions (show 0 < stageLength by decide) staged

/-! ### Phases of an access -/

/-- The elements of one phase, and the width at which they travel. -/
structure Phase where
  selector : Selector
  words : Words
  width : Width

namespace Link

/-- **The phases of a write**: the register number, and then the payload if there is one. -/
def phases (context : Context) (register : Nat) (request : Option WriteRequest) : List Phase :=
  ⟨.command, registerWord register context.width, context.width⟩ ::
    (WriteRequest.nonempty? request).toList.map fun present =>
      ⟨present.selector, present.words, present.effectiveWidth context.width⟩

/-- No phase is empty. -/
theorem nonempty_of_mem_phases {context : Context} {register : Nat} {request : Option WriteRequest}
    {phase : Phase} (member : phase ∈ phases context register request) : phase.words.values ≠ [] := by
  rcases List.mem_cons.mp member with rfl | later
  · simp [registerWord]
  · obtain ⟨present, given, rfl⟩ := List.mem_map.mp later
    have filled := (Option.filter_eq_some_iff.mp (Option.mem_toList.mp given)).2
    simpa [Words.isEmpty] using filled

end Link

/-- The calls of the master that a phase makes. -/
def Phase.calls (dataWidth : Nat) (window : Window) (phase : Phase) : List MasterCall :=
  (phaseWrites dataWidth phase.words phase.width).flatMap fun run =>
    [.latch (window.latched (phaseOffset phase.selector)), .write run]

section Recorded

variable {recorder : Recorder} {window : Window}

/-- **A phase makes its calls.** -/
theorem makes_sendPhase (writable : recorder.writable = true) (wired : 0 < recorder.dataWidth)
    (held : ∀ selector, window.holdsOffset (phaseOffset selector) = true) (phase : Phase)
    (carried : phase.width.Carried recorder.dataWidth) :
    Makes (sendPhase ⟨recorder.master, window⟩ phase.selector phase.words phase.width)
      (phase.calls recorder.dataWidth window) := by
  rw [sendPhase_eq ⟨recorder.master, window⟩ wired phase.selector phase.words carried]
  refine Makes.forM fun run member => Makes.adapt _ ?_
  exact makes_write writable (held phase.selector) (run_of_mem_phaseWrites member).2.1

theorem makes_writePhases (writable : recorder.writable = true) (wired : 0 < recorder.dataWidth)
    (held : ∀ selector, window.holdsOffset (phaseOffset selector) = true) {context : Context}
    {register : Nat} {request : Option WriteRequest}
    (carried : ∀ phase ∈ Link.phases context register request, phase.width.Carried recorder.dataWidth) :
    Makes (Link.writePhases ⟨recorder.master, window⟩ context register request)
      ((Link.phases context register request).flatMap (Phase.calls recorder.dataWidth window)) := by
  unfold Link.phases at carried ⊢
  have selects := makes_sendPhase writable wired held
    ⟨.command, registerWord register context.width, context.width⟩ (carried _ List.mem_cons_self)
  unfold Link.writePhases
  rw [List.flatMap_cons]
  refine selects.andThen ?_
  cases present : WriteRequest.nonempty? request with
  | none => exact Makes.nothing
  | some payload =>
    rw [present] at carried
    simpa using makes_sendPhase writable wired held
      ⟨payload.selector, payload.words, payload.effectiveWidth context.width⟩
      (carried _ (by simp))

/-- What it takes to be bound to a window. -/
theorem Link.bind_eq_ok {m : Type → Type} {registry : Registry} {master : Master m} {slot : Nat}
    {reset : Connection} {link : Link} (bound : Link.bind registry master slot reset = .ok link) :
    link = ⟨slot, reset, master.dataWidth, master.readable⟩ ∧ master.writable = true ∧
      0 < master.dataWidth ∧ master.dataWidth ≤ 32 ∧
      ∃ window, registry.window? slot = some window := by
  unfold Link.bind at bound
  split at bound
  · cases bound
  · rename_i live
    split at bound
    · cases bound
    · rename_i writable
      split at bound
      · cases bound
      · cases bound
        refine ⟨rfl, by simpa using writable, by omega, by omega, ?_⟩
        exact Option.ne_none_iff_exists'.mp (by simpa using live)

/-- **An action in a session** runs between finding the window and latching address 0. -/
theorem run_inSession {link : Link} {registry : Registry}
    (live : registry.window? link.slot = some window)
    (body : Session BenchM → BenchM (Reading AccessError)) {bench middle : Bench}
    (reading : Reading AccessError) (obliging : middle.Obliging)
    (ran : (body ⟨recorder.master, window⟩).run bench = (reading, middle)) :
    ∃ after, ((link.inSession recorder.master body).run registry).run bench =
        ((reading, registry), after) ∧ middle.Called after [.latch 0] := by
  have opened : ((link.openSession recorder.master).run.run registry).run bench =
      ((.ok ⟨recorder.master, window⟩, registry), bench) := by
    have found : registry.openSession recorder.master link.slot = .ok ⟨recorder.master, window⟩ := by
      rw [Registry.openSession, live]
    unfold Link.openSession
    rw [run_get_then, found]
    rfl
  have closes : Makes (onBus (Session.close ⟨recorder.master, window⟩)) [.latch 0] :=
    makes_close.adapt _
  obtain ⟨after, closed, called⟩ := closes middle obliging
  refine ⟨after, ?_, called⟩
  unfold Link.inSession
  rw [StateT.run_bind, StateT.run_bind, opened]
  show ((body ⟨recorder.master, window⟩ >>= fun reading =>
    (onBus (Session.close ⟨recorder.master, window⟩)).run >>= fun closed =>
      pure (reading.followedBy closed, registry))).run bench = _
  rw [StateT.run_bind, ran]
  show ((onBus (Session.close ⟨recorder.master, window⟩)).run >>= _).run middle = _
  rw [StateT.run_bind, closed]
  obtain ⟨values, outcome⟩ := reading
  cases outcome <;> rfl

/-- **A write makes the calls of its phases** and ends its session. -/
theorem run_write (link : Link) {registry : Registry} (writable : recorder.writable = true)
    (wired : 0 < recorder.dataWidth) (live : registry.window? link.slot = some window)
    (held : ∀ selector, window.holdsOffset (phaseOffset selector) = true) {context : Context}
    {register : Nat} {request : Option WriteRequest}
    (carried : ∀ phase ∈ Link.phases context register request, phase.width.Carried recorder.dataWidth)
    {bench : Bench} (obliging : bench.Obliging) :
    ∃ after, ((link.write recorder.master context register request).run.run registry).run bench =
        ((.ok (), registry), after) ∧
      bench.Called after ((Link.phases context register request).flatMap
        (Phase.calls recorder.dataWidth window) ++ [.latch 0]) := by
  obtain ⟨middle, ran, called⟩ := makes_writePhases writable wired held carried bench obliging
  obtain ⟨after, closed, calledLast⟩ := run_inSession live
    (fun session => do
      return { values := [], outcome := ← (Link.writePhases session context register request).run })
    ⟨[], .ok ()⟩ (called.obliging obliging) (by rw [StateT.run_bind, ran]; rfl)
  refine ⟨after, ?_, called.trans calledLast⟩
  show ((link.inSession recorder.master _ >>= fun reading => pure reading.outcome).run registry).run
    bench = _
  rw [StateT.run_bind, StateT.run_bind, closed]
  rfl

end Recorded

/-- **A write is spelled out on the data lines.** A link is bound to a window that is live after any
history of registrations, over a master that does what it is asked. A write whose widths the bus
carries succeeds. Each of its phases writes runs of words at the address of the phase in the window.
Together they show the digits of its elements in order, as the data lines have it; no run is empty,
each is made of words of the bus, and those that were staged are no longer than the stage. Staging
elements that go as they are would show the same. Every other master is asked for the same runs. -/
theorem write_spells (recorder : Recorder) {calls : List RegistryCall} {slot : Nat}
    {reset : Connection} {link : Link}
    (bound : Link.bind (Registry.afterAll recorder.addressWidth calls) recorder.master slot reset =
      .ok link)
    {context : Context} {register : Nat} {request : Option WriteRequest}
    (carried : ∀ phase ∈ Link.phases context register request, phase.width.Carried recorder.dataWidth)
    {bench : Bench} (obliging : bench.Obliging) :
    let registry := Registry.afterAll recorder.addressWidth calls
    ∃ window after, registry.window? slot = some window ∧
      ((link.write recorder.master context register request).run.run registry).run bench =
        ((.ok (), registry), after) ∧
      after.masterCalls = bench.masterCalls ++ ((Link.phases context register request).flatMap
        (Phase.calls recorder.dataWidth window) ++ [.latch 0]) ∧
      ∀ phase ∈ Link.phases context register request,
        let runs := phaseWrites recorder.dataWidth phase.words phase.width
        onLines recorder.dataWidth runs =
          phase.words.values.flatMap (digits phase.width recorder.dataWidth) ∧
        (∀ run ∈ runs, run.values ≠ [] ∧ run.element = busElement recorder.dataWidth ∧
          (goesAsIs phase.words.element phase.width recorder.dataWidth = false → run.length ≤ 64)) ∧
        onLines recorder.dataWidth (stagedWrites recorder.dataWidth phase.words phase.width) =
          onLines recorder.dataWidth runs ∧
        ∀ {m : Type → Type} [Monad m] [LawfulMonad m] (session : Session m),
          session.master.dataWidth = recorder.dataWidth →
          sendPhase session phase.selector phase.words phase.width =
            runs.forM fun run => onBus (session.write (phaseOffset phase.selector) run) := by
  obtain ⟨rfl, writable, wired, narrow, window, live⟩ := Link.bind_eq_ok bound
  obtain ⟨after, ran, called⟩ := run_write ⟨slot, reset, recorder.dataWidth, recorder.readable⟩
    writable wired live (Registry.holdsOffset_of_afterAll live) carried obliging
  refine ⟨window, after, live, ran, called.made, fun phase member =>
    ⟨?_, fun run written => ?_, ?_, ?_⟩⟩
  · exact onLines_phaseWrites narrow phase.words phase.width
  · obtain ⟨filled, element, staged⟩ := run_of_mem_phaseWrites written
    exact ⟨filled (Link.nonempty_of_mem_phases member), element, staged⟩
  · exact (onLines_stagedWrites narrow phase.words phase.width).trans
      (onLines_phaseWrites narrow phase.words phase.width).symm
  · intro m _ _ session same
    rw [← same]
    exact sendPhase_eq session (by rw [same]; exact wired) phase.selector phase.words
      (by rw [same]; exact carried phase member)

/-- Two elements of 16 bits on a bus of eight data lines. -/
theorem write_spells_wideElements :
    let recorder : Recorder := ⟨8, 8, true, true⟩
    let registry := Registry.afterAll 8 [.enlist 16 4]
    let link : Link := ⟨0, .absent, 8, true⟩
    let context : Context := ⟨.bits8, ⟨0⟩⟩
    let request : WriteRequest := ⟨.data, .ofList .half [0x1234, 0xABCD], some .bits16, 0⟩
    Link.bind registry recorder.master 0 .absent = .ok link ∧ Bench.Obliging {} ∧
      ∃ after, ((link.write recorder.master context 0x2C (some request)).run.run registry).run {} =
          ((.ok (), registry), after) ∧
        after.masterCalls = [.latch 16, .write (.ofList .byte [0x2C]),
          .latch 17, .write (.ofList .byte [0x12, 0x34, 0xAB, 0xCD]), .latch 0] := by
  have bound : Link.bind (Registry.afterAll 8 [.enlist 16 4])
      (Recorder.master ⟨8, 8, true, true⟩) 0 .absent = .ok ⟨0, .absent, 8, true⟩ := by
    decide +kernel
  have carried : ∀ phase ∈ Link.phases ⟨.bits8, ⟨0⟩⟩ 0x2C
      (some ⟨.data, .ofList .half [0x1234, 0xABCD], some .bits16, 0⟩), phase.width.Carried 8 := by
    decide +kernel
  have obliging : Bench.Obliging {} := fun _ _ => rfl
  have found : (Registry.afterAll 8 [.enlist 16 4]).window? 0 = some ⟨16, 3⟩ := by decide +kernel
  obtain ⟨window, after, live, ran, made, -⟩ :=
    write_spells ⟨8, 8, true, true⟩ bound carried obliging
  cases Option.some.inj (live.symm.trans found)
  refine ⟨bound, obliging, after, ran, made.trans ?_⟩
  decide +kernel

end PanelLink.Addressed
