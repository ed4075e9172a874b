/-
**A master made of lines that work.**

Where no line fails, no call fails that the bus has room for. What a panel takes from a row of calls
can then be read off the calls: each word at the address latched last.

* `Works`: an action that succeeds on lines that work, with one lemma for each step of the master;
* `Suits`, `answer_of_suits`: a call that suits the master succeeds;
* `LineMaster.seen`: what is seen of calls at the rising edges of the write strobe, each with the
  address latched last;
* `told`: the same, told from the calls alone;
* **`seen_eq_told`**: calls that suit the master are seen as they are told, call by call.
-/

import PanelLink.Proofs.Addressed.DrivenLines
import PanelLink.Proofs.Bench.Edges

namespace PanelLink.Addressed

namespace LineMaster

/-! ### Steps on lines that work -/

/-- **On lines that work the action succeeds**, and the lines go on working. -/
def Works {α : Type} (action : ExceptT MasterFailure ActionM α) : Prop :=
  ∀ memory bench, bench.Working → ∃ value now after,
    (action.run.run memory).run bench = ((.ok value, now), after) ∧ after.Working

namespace Works

variable {α β : Type}

theorem done (value : α) : Works (pure value) :=
  fun memory bench working => ⟨value, memory, bench, rfl, working⟩

theorem remember (change : LineMemory → LineMemory) : Works (modify change) :=
  fun memory bench working => ⟨(), change memory, bench, rfl, working⟩

theorem andThen {first : ExceptT MasterFailure ActionM α}
    {next : α → ExceptT MasterFailure ActionM β} (works : Works first)
    (worksNext : ∀ value, Works (next value)) : Works (first >>= next) := by
  intro memory bench working
  obtain ⟨value, between, middle, ran, stillWorking⟩ := works memory bench working
  obtain ⟨last, now, after, ranOn, lastWorking⟩ := worksNext value between middle stillWorking
  exact ⟨last, now, after, (run_then_ok ran).trans ranOn, lastWorking⟩

theorem peek {next : LineMemory → ExceptT MasterFailure ActionM α}
    (works : ∀ memory, Works (next memory)) : Works (get >>= next) :=
  fun memory bench working => works memory memory bench working

theorem forM {ι : Type} {action : ι → ExceptT MasterFailure ActionM PUnit}
    (works : ∀ item, Works (action item)) (items : List ι) : Works (items.forM action) := by
  induction items with
  | nil => exact done ()
  | cons item items ih => exact (works item).andThen fun _ => ih

theorem use {action : LineM α} (uses : ∀ bench, bench.Working →
    ∃ value after, action.run.run bench = (.ok value, after) ∧ after.Working) :
    Works (useLines action) := by
  intro memory bench working
  obtain ⟨value, after, ran, stillWorking⟩ := uses bench working
  match used : ((useLines action).run.run memory).run bench with
  | ((result, now), last) =>
    obtain ⟨rfl, answer, ranToo, rfl⟩ := useLines_ran used
    cases ran.symm.trans ranToo
    exact ⟨value, _, _, rfl, stillWorking⟩

theorem set (name : LineName) (level : Bool) : Works (useLines (setLine name level)) := by
  refine use fun bench working => ?_
  match ran : (setLine name level).run.run bench with
  | (result, after) =>
    rcases usesOnce_setLine name level bench result after ran with ⟨rfl, done⟩ | ⟨-, broken, -⟩
    · exact ⟨_, _, rfl, done.working working⟩
    · exact absurd working broken

theorem drive (name : Nat → LineName) (count word : Nat) :
    Works (useLines (driveLines name count word)) := by
  refine use fun bench working => ?_
  match ran : (driveLines name count word).run.run bench with
  | (result, after) =>
    rcases driveLines_ran ran with ⟨rfl, done⟩ | ⟨-, broken, -⟩
    · exact ⟨_, _, rfl, done.working working⟩
    · exact absurd working broken

variable (master : LineMaster)

theorem turnData {direction : Direction} (known : direction ≠ .unset) :
    Works (master.turnData direction) := by
  intro memory bench working
  match switched : (switchLines master.dataLines memory.direction direction).run bench with
  | ((cached, outcome), after) =>
    unfold LineMaster.turnData
    rw [run_get_then, run_lift_then switched]
    rcases switchLines_ran known switched with
      ⟨-, -, rfl, rfl⟩ | ⟨-, -, rfl, all⟩ | ⟨-, -, -, broken, -⟩
    · exact ⟨_, _, _, rfl, working⟩
    · exact ⟨_, _, _, rfl, all.working working⟩
    · exact absurd working broken

theorem latchAddress (address : Nat) : Works (master.latchAddress address) := by
  unfold LineMaster.latchAddress
  refine peek fun memory => ?_
  split
  · exact (remember _).andThen fun _ => (drive .address master.addressLines address).andThen fun _ =>
      remember _
  · exact done ()

theorem driveWord (word : Nat) : Works (master.driveWord word) := by
  unfold LineMaster.driveWord
  refine peek fun memory => ?_
  split
  · exact (remember _).andThen fun _ => (drive .data master.dataLines word).andThen fun _ =>
      remember _
  · exact done ()

theorem writeWord (word : Nat) : Works (master.writeWord word) :=
  (set .writeStrobe false).andThen fun _ => (driveWord master word).andThen fun _ =>
    set .writeStrobe true

theorem write (strobed : master.hasWriteStrobe = true) {words : Words}
    (fits : words.element = busElement master.dataLines) : Works (master.write words) := by
  unfold LineMaster.write checkElement
  rw [strobed, if_pos fits]
  exact (done ()).andThen fun _ => (turnData master (by decide)).andThen fun _ =>
    (remember _).andThen fun _ => forM (writeWord master) words.values

end Works

/-! ### Calls on lines that work -/

/-- A call that the master has the wiring for: an address, or words of the bus's element. -/
def Suits (master : LineMaster) : MasterCall → Prop
  | .latch _ => True
  | .write words => words.element = busElement master.dataLines
  | .read _ _ => False

variable {master : LineMaster} {trail : Trail}

/-- **A call that suits the master succeeds** on lines that work, and they go on working. -/
theorem answer_of_suits (strobed : master.hasWriteStrobe = true) {call : MasterCall}
    (suits : Suits master call) (working : trail.bench.Working) :
    trail.answer master call = .ok () ∧ (trail.after master call).bench.Working := by
  have works : ∃ now after, ((master.call call).run trail.memory).run trail.bench =
      ((.ok (), now), after) ∧ after.Working := by
    cases call with
    | latch address =>
      obtain ⟨⟨⟩, now, after, ran, still⟩ := Works.latchAddress master address trail.memory _ working
      exact ⟨now, after, ran, still⟩
    | write words =>
      obtain ⟨⟨⟩, now, after, ran, still⟩ := Works.write master strobed suits trail.memory _ working
      exact ⟨now, after, ran, still⟩
    | read element count => exact suits.elim
  obtain ⟨now, after, ran, still⟩ := works
  obtain ⟨answered, led⟩ := Trail.after_eq call ran
  rw [led]
  exact ⟨answered, still⟩

/-- Lines that work go on working, whatever calls are made, and those that fail too. -/
theorem working_trail (narrow : master.dataLines ≤ 32) {bench : Bench} (working : bench.Working)
    (calls : List MasterCall) : (master.trail bench calls).bench.Working := by
  have run {start : Trail} (settled : Settled master start) (working : start.bench.Working) :
      (calls.foldl (Trail.after master) start).bench.Working := by
    induction calls generalizing start with
    | nil => exact working
    | cons call calls ih =>
      obtain ⟨settledNext, events, shown⟩ := settled.call narrow call
      exact ih settledNext (shown.ran.working working)
  exact run (settled_trail narrow bench []) working

/-- **What is seen of calls**: the wires at each rising edge of the write strobe, with the address that
was latched last. -/
def seen (master : LineMaster) (trail : Trail) : List MasterCall → List (Option Nat × Wires)
  | [] => []
  | call :: later =>
    (trail.bench.edges (trail.after master call).bench).map (trail.latched, ·) ++
      master.seen (trail.after master call) later

/-- What should be seen of calls: the words of each write, with the address that was latched last. -/
def told (dataLines : Nat) (latched : Option Nat) : List MasterCall → List (Option Nat × Nat)
  | [] => []
  | call :: later =>
    call.written.map (fun word => (latched, word % 2 ^ dataLines)) ++
      told dataLines (Trail.latchedAfter latched call (.ok ())) later

/-- **Calls that suit a master are seen as they are told**, call by call. Together they are what is
seen between the first and the last bench, and the address lines show the latched address. -/
theorem seen_eq_told (narrow : master.dataLines ≤ 32) (fewAddresses : master.addressLines ≤ 32)
    (strobed : master.hasWriteStrobe = true) {calls : List MasterCall}
    (suits : ∀ call ∈ calls, Suits master call) (settled : Settled master trail)
    (working : trail.bench.Working) :
    let last := calls.foldl (Trail.after master) trail
    (∃ events, trail.bench.Ran last.bench events) ∧
      (master.seen trail calls).map (·.2) = trail.bench.edges last.bench ∧
      (master.seen trail calls).map (fun seen => (seen.1, seen.2.word master.dataLines)) =
        told master.dataLines trail.latched calls ∧
      ∀ seen ∈ master.seen trail calls, ∀ address, seen.1 = some address →
        seen.2.row .address master.addressLines = address % 2 ^ master.addressLines := by
  induction calls generalizing trail with
  | nil =>
    refine ⟨⟨[], Bench.Ran.refl _⟩, ?_, rfl, by simp [seen]⟩
    exact (Bench.Ran.refl trail.bench).edges.symm
  | cons call calls ih =>
    obtain ⟨answered, stillWorking⟩ :=
      answer_of_suits strobed (suits call List.mem_cons_self) working
    obtain ⟨settledNext, events, shown⟩ := settled.call narrow call
    obtain ⟨⟨later, ran⟩, joined, words, addressed⟩ := ih
      (fun other member => suits other (List.mem_cons_of_mem call member)) settledNext stillWorking
    have edges : trail.bench.edges (trail.after master call).bench =
        (Observer.sights master.dataLines { wires := trail.bench.wires } events).map (·.wires) := by
      rw [shown.ran.edges]
      exact Wires.edges_eq_sights { wires := trail.bench.wires } fun sight noted =>
        (shown.edges sight noted).1
    have latched : (trail.after master call).latched =
        Trail.latchedAfter trail.latched call (.ok ()) := by
      rw [← answered]
      rfl
    refine ⟨⟨_, shown.ran.trans ran⟩, ?_, ?_, fun seen member address latchedLast => ?_⟩
    · rw [seen, List.map_append, joined, List.map_map]
      exact (congrArg (· ++ _) (List.map_id _)).trans (shown.ran.edges_trans ran).symm
    · have spelled := congrArg (List.map (trail.latched, ·)) (shown.ends answered)
      rw [seen, List.map_append, words, told, ← latched, edges, List.map_map, List.map_map]
      rw [List.map_map, List.map_map] at spelled
      exact congrArg (· ++ _) spelled
    · rcases List.mem_append.mp member with here | there
      · rw [edges] at here
        obtain ⟨wires, among, rfl⟩ := List.mem_map.mp here
        obtain ⟨sight, noted, rfl⟩ := List.mem_map.mp among
        exact Wires.row_eq fewAddresses fun bit inRow =>
          (shown.edges sight noted).2.2 address latchedLast bit inRow
      · exact addressed seen there address latchedLast

end LineMaster

end PanelLink.Addressed
