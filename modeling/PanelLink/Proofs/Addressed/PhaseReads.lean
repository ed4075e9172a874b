/-
**The elements of a phase that is read on an addressed bus.**

Elements that fill a bus word come from the master as they are. All others are read stage by stage,
each stage holding whole elements, and joined from their pieces. Bus words that show the digits of
elements give the elements back.

* `takeIncoming_append`: a read takes the words at the front of the queue;
* `joinStage_of_digits`: a stage of digits joins to its elements;
* `reads_stages`: stage after stage, by induction on the stages;
* **`reads_receivePhase`**: a phase obtains the elements whose digits arrive, and takes no more words;
* `run_read`: a whole read through a link.
-/

import PanelLink.Proofs.Addressed.PhaseWords
import PanelLink.Proofs.Packing.Groups

namespace PanelLink

/-- A read takes the words at the front of the queue. -/
theorem takeIncoming_append (element : Element) (front later : List Nat) :
    takeIncoming element front.length (front ++ later) = front.map element.truncate := by
  simp [takeIncoming]

namespace Addressed

/-! ### Sessions -/

/-- What a read does in its session. -/
def readPhases {m : Type → Type} [Monad m] (context : Context) (register : Nat)
    (request : ReadRequest) (session : Session m) : m (Reading AccessError) := do
  match ← (Link.writePhases session context register none).run with
  | .error error => return .failed error
  | .ok () => receivePhase session request (request.effectiveWidth context.width)

theorem read_eq_inSession {m : Type → Type} [Monad m] {link : Link} (linked : link.readable = true)
    (master : Master m) (context : Context) (register : Nat) (request : ReadRequest) :
    link.read master context register request =
      link.inSession master (readPhases context register request) := by
  unfold Link.read
  rw [linked]
  rfl

/-! ### Joining -/

/-- **A stage that shows the digits of elements** joins to the elements, as far as the digits
reach. -/
theorem joinStage_of_digits {dataWidth : Nat} (narrow : dataWidth ≤ 32) {width : Width}
    {values : List Nat} : ∀ {stage : List Nat},
    stage.map (· % 2 ^ dataWidth) = values.flatMap (digits width dataWidth) →
    joinStage (digitCount width dataWidth) dataWidth stage =
      values.map (· % 2 ^ (dataWidth * digitCount width dataWidth)) := by
  have some := digitCount_pos width dataWidth
  induction values with
  | nil =>
    intro stage shown
    rw [List.map_eq_nil_iff.mp shown, joinStage, portions_nil]
    rfl
  | cons value values ih =>
    intro stage shown
    obtain ⟨first, others, rfl, length, here, there⟩ := exists_front_of_digits shown
    have single : portions (digitCount width dataWidth) first = [first] := by
      have full : ∀ group ∈ [first], group.length = digitCount width dataWidth := by simpa using length
      simpa using portions_flatten some full
    have rest := ih there
    unfold joinStage at rest ⊢
    rw [portions_append some (by rw [length, Nat.mod_self]), single, List.map_append, rest,
      List.map_singleton, joinPieces_of_digits narrow here]
    rfl

/-- Words of the bus's element are on the data lines what they are in the queue. -/
theorem map_truncate_mod {dataWidth : Nat} (narrow : dataWidth ≤ 32) (words : List Nat) :
    (words.map (busElement dataWidth).truncate).map (· % 2 ^ dataWidth) =
      words.map (· % 2 ^ dataWidth) := by
  rw [List.map_map]
  exact List.map_congr_left fun word _ => Nat.mod_mod_of_dvd word (dvd_busElement narrow)

theorem length_flatMap_digits (width : Width) (busBits : Nat) (values : List Nat) :
    (values.flatMap (digits width busBits)).length = values.length * digitCount width busBits := by
  simp [List.length_flatMap]

/-- The numbers of elements that are read stage by stage add up. -/
theorem sum_stageCounts (perStage count : Nat) : (stageCounts perStage count).sum = count := by
  unfold stageCounts
  rw [← List.length_flatten, flatten_portions, List.length_replicate]

/-! ### Reading -/

section Ways

variable {m : Type → Type} [Monad m] (session : Session m) (request : ReadRequest) {width : Width}

/-- Elements that fill a bus word are read as they are. -/
theorem receivePhase_native
    (native : goesAsIs request.element width session.master.dataWidth = true) :
    receivePhase session request width = (do
      let reading ← session.read (phaseOffset request.selector) request.element request.count
      return reading.mapError BusError.toAccess) := by
  unfold receivePhase
  exact if_pos native

/-- All other elements are read stage by stage. -/
theorem receivePhase_staged (wired : 0 < session.master.dataWidth)
    (carried : width.Carried session.master.dataWidth)
    (staged : ¬goesAsIs request.element width session.master.dataWidth = true) :
    receivePhase session request width =
      readStages session (phaseOffset request.selector) (digitCount width session.master.dataWidth)
        (stageCounts (max (stageLength / digitCount width session.master.dataWidth) 1)
          request.count) := by
  unfold receivePhase
  dsimp only
  rw [piecesPerElement_of_carried wired carried]
  exact if_neg staged

end Ways

section Recorded

variable {recorder : Recorder} {window : Window} {width : Width}

/-- **Stage after stage** the elements are obtained whose digits arrive. -/
theorem reads_stages (readable : recorder.readable = true) (narrow : recorder.dataWidth ≤ 32)
    {offset : Nat} (held : window.holdsOffset offset = true) {counts : List Nat} :
    ∀ {values handed later : List Nat} {bench : Bench}, bench.Obliging →
      values.length = counts.sum →
      handed.map (· % 2 ^ recorder.dataWidth) = values.flatMap (digits width recorder.dataWidth) →
      bench.masterIncoming = handed ++ later →
      ∃ after calls, (readStages ⟨recorder.master, window⟩ offset
            (digitCount width recorder.dataWidth) counts).run bench =
          (.complete (values.map (· % 2 ^ (recorder.dataWidth * digitCount width recorder.dataWidth))),
            after) ∧
        bench.Called after calls ∧ after.masterIncoming = later := by
  induction counts with
  | nil =>
    intro values handed later bench _ length shown queue
    rw [List.eq_nil_of_length_eq_zero length] at shown ⊢
    rw [List.map_eq_nil_iff.mp shown] at queue
    exact ⟨bench, [], rfl, .refl bench, queue⟩
  | cons count counts ih =>
    intro values handed later bench obliging length shown queue
    rw [List.sum_cons] at length
    -- A stage takes whole elements, so the words divide where the elements do.
    have front : (values.take count).length = count := by
      rw [List.length_take]
      omega
    rw [← List.take_append_drop count values, List.flatMap_append] at shown
    obtain ⟨first, others, rfl, here, there⟩ := List.map_eq_append_iff.mp shown
    have firstLength : first.length = count * digitCount width recorder.dataWidth := by
      rw [← List.length_map, here, length_flatMap_digits, front]
    obtain ⟨middle, ran, called⟩ := reads_session readable held rfl
      (count * digitCount width recorder.dataWidth) obliging
    rw [queue, List.append_assoc, ← firstLength, takeIncoming_append] at ran
    have remaining : middle.masterIncoming = others ++ later := by
      rw [called.incoming, queue, List.append_assoc]
      simp [MasterCall.taken, ← firstLength]
    obtain ⟨after, calls, ranOn, calledOn, final⟩ := ih (called.obliging obliging)
      (by rw [List.length_drop]; omega) there remaining
    refine ⟨after, _, ?_, called.trans calledOn, final⟩
    have joined := joinStage_of_digits narrow ((map_truncate_mod narrow first).trans here)
    unfold readStages
    rw [StateT.run_bind, show (Session.mk recorder.master window).master.dataWidth =
      recorder.dataWidth from rfl, ← firstLength, ran]
    show ((readStages ⟨recorder.master, window⟩ offset (digitCount width recorder.dataWidth) counts) >>=
      fun rest => pure (rest.after (joinStage (digitCount width recorder.dataWidth) recorder.dataWidth
        (first.map (busElement recorder.dataWidth).truncate)))).run middle = _
    rw [StateT.run_bind, ranOn, joined]
    conv_rhs => rw [← List.take_append_drop count values, List.map_append]
    rfl

/-- **A phase obtains the elements whose digits arrive** and takes no more words. Elements that go as
they are come with whatever else was on the bus. -/
theorem reads_receivePhase (readable : recorder.readable = true) (wired : 0 < recorder.dataWidth)
    (narrow : recorder.dataWidth ≤ 32)
    (held : ∀ selector, window.holdsOffset (phaseOffset selector) = true) (request : ReadRequest)
    (carried : width.Carried recorder.dataWidth) {values handed later : List Nat} {bench : Bench}
    (obliging : bench.Obliging) (length : values.length = request.count)
    (shown : handed.map (· % 2 ^ recorder.dataWidth) =
      values.flatMap (digits width recorder.dataWidth))
    (queue : bench.masterIncoming = handed ++ later) :
    ∃ received after calls, (receivePhase ⟨recorder.master, window⟩ request width).run bench =
        (.complete received, after) ∧
      bench.Called after calls ∧ after.masterIncoming = later ∧
      (received = values.map (· % 2 ^ (recorder.dataWidth * digitCount width recorder.dataWidth)) ∨
        goesAsIs request.element width recorder.dataWidth = true ∧
          received = handed.map request.element.truncate) := by
  by_cases native : goesAsIs request.element width recorder.dataWidth = true
  · obtain ⟨fits, element⟩ := goesAsIs_iff.mp native
    have one : digitCount width recorder.dataWidth = 1 := by
      rw [← length_digits width recorder.dataWidth 0, digits_of_bits_le fits]
      rfl
    have count : handed.length = request.count := by
      rw [← List.length_map, shown, length_flatMap_digits, one, Nat.mul_one, length]
    obtain ⟨after, ran, called⟩ := reads_session readable (held request.selector) element
      request.count obliging
    rw [queue, ← count, takeIncoming_append] at ran
    refine ⟨_, after, _, ?_, called, ?_, Or.inr ⟨native, rfl⟩⟩
    · rw [receivePhase_native _ _ native, ← count, StateT.run_bind, ran]
      rfl
    · rw [called.incoming, queue]
      simp [MasterCall.taken, ← count]
  · obtain ⟨after, calls, ran, called, final⟩ := reads_stages readable narrow (held request.selector)
      obliging (length.trans (sum_stageCounts _ request.count).symm) shown queue
    refine ⟨_, after, calls, ?_, called, final, Or.inl rfl⟩
    rw [receivePhase_staged _ _ wired carried native]
    exact ran

/-- A phase that is written takes nothing from the queue. -/
theorem taken_of_mem_calls {phase : Phase} {call : MasterCall}
    (member : call ∈ phase.calls recorder.dataWidth window) : call.taken = 0 := by
  obtain ⟨run, -, called⟩ := List.mem_flatMap.mp member
  simp only [List.mem_cons, List.not_mem_nil, or_false] at called
  rcases called with rfl | rfl <;> rfl

/-- **A read through a link** writes the register number and then obtains the elements whose digits
arrive. -/
theorem run_read (link : Link) {registry : Registry} (linked : link.readable = true)
    (readable : recorder.readable = true) (writable : recorder.writable = true)
    (wired : 0 < recorder.dataWidth) (narrow : recorder.dataWidth ≤ 32)
    (live : registry.window? link.slot = some window)
    (held : ∀ selector, window.holdsOffset (phaseOffset selector) = true) {context : Context}
    (register : Nat) (request : ReadRequest) (known : context.width.Carried recorder.dataWidth)
    (carried : (request.effectiveWidth context.width).Carried recorder.dataWidth)
    {values handed later : List Nat} {bench : Bench} (obliging : bench.Obliging)
    (length : values.length = request.count)
    (shown : handed.map (· % 2 ^ recorder.dataWidth) =
      values.flatMap (digits (request.effectiveWidth context.width) recorder.dataWidth))
    (queue : bench.masterIncoming = handed ++ later) :
    ∃ received after, ((link.read recorder.master context register request).run registry).run bench =
        ((.complete received, registry), after) ∧
      after.masterIncoming = later ∧
      (received = values.map (· % 2 ^ (recorder.dataWidth *
          digitCount (request.effectiveWidth context.width) recorder.dataWidth)) ∨
        goesAsIs request.element (request.effectiveWidth context.width) recorder.dataWidth = true ∧
          received = handed.map request.element.truncate) := by
  have phases : ∀ phase ∈ Link.phases context register none,
      phase.width.Carried recorder.dataWidth := by
    intro phase member
    rw [List.mem_singleton.mp member]
    exact known
  obtain ⟨selected, selects, called⟩ := makes_writePhases writable wired held phases bench obliging
  have waiting : selected.masterIncoming = handed ++ later := by
    rw [called.incoming, List.sum_eq_zero_iff_forall_eq_nat.mpr fun taken member => ?_,
      List.drop_zero, queue]
    obtain ⟨call, made, rfl⟩ := List.mem_map.mp member
    obtain ⟨phase, -, within⟩ := List.mem_flatMap.mp made
    exact taken_of_mem_calls within
  obtain ⟨received, middle, calls, reads, calledOn, final, recovered⟩ := reads_receivePhase readable
    wired narrow held request carried (called.obliging obliging) length shown waiting
  obtain ⟨after, closed, calledLast⟩ := run_inSession live
    (readPhases context register request)
    (.complete received) (calledOn.obliging (called.obliging obliging))
    (by rw [readPhases, StateT.run_bind, selects]; exact reads)
  refine ⟨received, after, ?_, calledLast.incoming.trans final, recovered⟩
  rw [read_eq_inSession linked]
  exact closed

end Recorded

end Addressed

end PanelLink
