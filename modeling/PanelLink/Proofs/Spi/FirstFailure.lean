/-
**A write stops at the first failure.**

What a write sends does not depend on failures, it only stops at the first one.

* `StopsAtFailure`: an action has one fault-free run; on any bench it does the same up to the first
  attempt that is refused and returns the error of that refusal;
* `Script.stopsAtFailure`: so does every script, and `Script.messages_of_run`: its messages are the
  first ones of the fault-free run;
* **`stops_at_failure`**: so do register writes and window updates over SPI;
* `refuses_refuseMessage`, `refuses_refuseMapping`, `refuses_failAfter`: which attempt a single fault
  strikes.
-/

import PanelLink.Proofs.Spi.WriteScript

namespace PanelLink

variable {ε : Type}

/-! ### Messages of a run -/

theorem messages_of_tried {bench after : Bench} {events : List Event}
    (tried : bench.Tried after events) :
    after.messages = bench.messages ++ messagesIn events := by
  rw [messages_eq_messagesIn, messages_eq_messagesIn, tried.log, List.reverse_append,
    List.reverse_reverse, messagesIn_append]

/-! ### Stopping -/

/-- **The action stops at the first failure.** Without faults it has one run, with these events and
this result. On any bench, whatever its plans of failures:

* if none of the events is refused, the run is that run;
* if an event is the first one to be refused, the action returns the error of that fault, the messages
  sent are those before the event, and nothing follows but what the refusal shows and the releases of
  mappings. -/
def StopsAtFailure (maps : Bool) (restate : LinkFault → ε) (action : ExceptT ε BenchM Unit) : Prop :=
  ∃ (events : List Event) (result : Except ε Unit),
    (∀ bench : Bench, bench.Faultless maps → bench.Accepts events) ∧
    ∀ bench : Bench,
      (bench.Accepts events → ∃ after, action.run.run bench = (result, after) ∧
        after.log = events.reverse ++ bench.log) ∧
      ∀ earlier event later, events = earlier ++ event :: later → bench.Accepts earlier →
        bench.refuses earlier event = true →
        ∃ (after : Bench) (refusal : List Event) (released : List Handle),
          action.run.run bench = (.error (restate event.fault), after) ∧
          after.messages = bench.messages ++ messagesIn earlier ∧
          after.log = (earlier ++ (refusal ++ released.map Event.unmapped)).reverse ++ bench.log ∧
          refusal.length ≤ 1 ∧ messagesIn refusal = []

namespace Spi

theorem Move.length_refusal_le (move : Move) (bench : Bench) :
    (move.refusal bench).length ≤ 1 := by
  cases move with
  | drive name level => exact Nat.le_refl 1
  | map slice handle held =>
    show (bench.refusedMapping slice).length ≤ 1
    unfold Bench.refusedMapping
    split
    · exact Nat.zero_le 1
    · exact Nat.le_refl 1
  | transfer segments held => exact Nat.le_refl 1
  | release handle => exact Nat.zero_le 1

theorem Move.messagesIn_refusal (move : Move) (bench : Bench) :
    messagesIn (move.refusal bench) = [] := by
  cases move with
  | map slice handle held =>
    show messagesIn (bench.refusedMapping slice) = []
    unfold Bench.refusedMapping
    split <;> rfl
  | _ => rfl

theorem messagesIn_unmapped (released : List Handle) : messagesIn (released.map Event.unmapped) = [] :=
  messagesIn_eq_nil fun event member => by
    obtain ⟨handle, -, rfl⟩ := List.mem_map.mp member
    rfl

/-- What a refusal shows has no message, nor have the releases that follow it. -/
theorem Move.messages_of_refusal {bench after : Bench} {earlier : List Event} {move : Move}
    (tried : bench.Tried after
      (earlier ++ (move.refusal bench ++ move.held.map Event.unmapped))) :
    after.messages = bench.messages ++ messagesIn earlier := by
  rw [messages_of_tried tried, messagesIn_append, messagesIn_append, move.messagesIn_refusal,
    messagesIn_unmapped, List.append_nil, List.append_nil]

/-- **A script stops at the first failure.** -/
theorem Script.stopsAtFailure {maps : Bool} (restate : LinkFault → ε) (script : Script ε)
    (able : ∀ event ∈ script.events, event.triesMapping = true → maps = true) :
    StopsAtFailure maps restate (script.play restate) := by
  refine ⟨script.events, script.verdict, fun bench faultless => faultless.accepts able,
    fun bench => ⟨fun accepts => ?_, fun earlier event later split accepts refused => ?_⟩⟩
  · obtain ⟨after, ran, tried⟩ := script.run_of_accepts restate accepts
    exact ⟨after, ran, tried.log⟩
  · obtain ⟨before, move, rest, moves, rfl, rfl⟩ := Script.split_events split
    obtain ⟨after, ran, tried⟩ := script.run_of_refuses restate moves accepts refused
    exact ⟨after, move.refusal bench, move.held, ran, Move.messages_of_refusal tried, tried.log,
      move.length_refusal_le bench, move.messagesIn_refusal bench⟩

/-- **On any bench** a script sends its messages up to some point, and all of them if it succeeds. -/
theorem Script.messages_of_run (restate : LinkFault → ε) (script : Script ε)
    (bench : Bench) :
    ∃ outcome after sent, (script.play restate).run.run bench = (outcome, after) ∧
      after.messages = bench.messages ++ sent ∧ sent <+: messagesIn script.events ∧
      (outcome = .ok () → script.verdict = .ok () ∧ sent = messagesIn script.events) := by
  rcases bench.accepts_or_refuses script.events with
    accepts | ⟨earlier, event, later, split, accepts, refused⟩
  · obtain ⟨after, ran, tried⟩ := script.run_of_accepts restate accepts
    exact ⟨_, after, _, ran, messages_of_tried tried, List.prefix_rfl, fun same => ⟨same, rfl⟩⟩
  · obtain ⟨before, move, rest, moves, rfl, rfl⟩ := Script.split_events split
    obtain ⟨after, ran, tried⟩ := script.run_of_refuses restate moves accepts refused
    refine ⟨_, after, messagesIn (before.map Move.event), ran, Move.messages_of_refusal tried, ?_,
      nofun⟩
    rw [split, messagesIn_append]
    exact List.prefix_append _ _

/-! ### Single faults -/

/-- The controller that is to fail once, after a number of messages in all, refuses the attempt that
follows this many messages. -/
theorem refuses_refuseMessage {bench : Bench} {count : Nat} (ahead : bench.messages.length ≤ count)
    (earlier : List Event) (segments : List Segment) :
    (bench.refuseMessage count).refuses earlier (.message segments) = true ↔
      bench.messages.length + earlier.countP Event.triesMessage = count := by
  show (decide (bench.messages.length ≤ count) && (bench.messageAttempts + _ ==
    bench.messageAttempts + (count - bench.messages.length))) = true ↔ _
  rw [decide_eq_true ahead, Bool.true_and, beq_iff_eq]
  omega

/-- The controller that is to fail one mapping refuses the attempt of that number. -/
theorem refuses_refuseMapping {bench : Bench} (mappable : bench.withoutMapping = false)
    (attempt : Nat) (earlier : List Event) (slice : Slice) (handle : Option Handle) :
    (bench.refuseMapping attempt).refuses earlier (.mapped slice handle) = true ↔
      bench.mappingAttempts + earlier.countP Event.triesMapping = attempt := by
  show (bench.withoutMapping || _ == attempt) = true ↔ _
  rw [mappable, Bool.false_or, beq_iff_eq]
  rfl

/-- A line that is to fail after some further uses refuses every use after these. -/
theorem refuses_failAfter (bench : Bench) (name : LineName) (uses : Nat) (earlier : List Event)
    (use : LineUse) (outcome : UseOutcome) :
    (bench.putLine name ((bench.line name).failAfter uses)).refuses earlier (.line name use outcome) =
        true ↔
      uses ≤ earlier.countP (Event.uses name) := by
  rw [Bench.refuses, Bench.line_putLine, if_pos rfl]
  show decide ((bench.line name).attempts + uses ≤ (bench.line name).attempts + _) = true ↔ _
  rw [decide_eq_true_iff]
  omega

end Spi

/-- **A register write and a window update stop at the first failure**, in every wire mode. The error
is that of the fault; a window update tells it as an error of its register access. -/
theorem Spi.stops_at_failure (link : Spi.Link) (settings : BankSettings) :
    (∀ register request, StopsAtFailure link.canMap AccessError.linkFailed
      (RegisterBank.write ⟨link.channel, settings⟩ register request)) ∧
    ∀ (panel : Display.Panel) (staging : Display.PanelRegister → Nat) (first last : Nat),
      StopsAtFailure link.canMap (fun fault => Display.DisplayError.register (.linkFailed fault))
        (panel.updateWindow ⟨link.channel, settings⟩ staging first last) := by
  refine ⟨fun register request => ?_, fun panel staging first last => ?_⟩
  · rw [RegisterBank.write_eq_play]
    exact Script.stopsAtFailure _ _ fun event member => link.canMap_of_mem_writeScript member
  · rw [Display.Panel.updateWindow_eq_play]
    exact Script.stopsAtFailure _ _ fun event member => panel.canMap_of_mem_updateScript member

end PanelLink
