/-
**The wires at the rising edges of the write strobe.**

* `Wires.edges`: the wires right after each rising edge in a run, with `edges_append`: run by run;
* `Bench.edges`: the same between two benches, read off what the log gained;
* `edges_eq_sights`: where the strobe never goes high twice in a row, these are all the sights of an
  observer.
-/

import PanelLink.Proofs.Bench.Sights

namespace PanelLink

namespace Wires

/-- **The wires right after each rising edge** of the write strobe in a run. -/
def edges (wires : Wires) : List Event → List Wires
  | [] => []
  | event :: later =>
    (if event.latches = true ∧ wires.level .writeStrobe = false then [wires.after event] else []) ++
      (wires.after event).edges later

theorem edges_append (wires : Wires) (first later : List Event) :
    wires.edges (first ++ later) = wires.edges first ++ (wires.afterAll first).edges later := by
  induction first generalizing wires with
  | nil => rfl
  | cons event first ih => rw [List.cons_append, edges, edges, ih, List.append_assoc, afterAll_cons]

/-- Where everything that an observer notes is a rising edge, these are the edges. -/
theorem edges_eq_sights {lines : Nat} (observer : Observer) {events : List Event}
    (rose : ∀ sight ∈ observer.sights lines events, sight.rose = true) :
    observer.wires.edges events = (observer.sights lines events).map (·.wires) := by
  induction events generalizing observer with
  | nil => rfl
  | cons event events ih =>
    have others := ih (observer.after lines event) fun sight member =>
      rose sight (List.mem_append_right _ member)
    rw [Observer.wires_after] at others
    rw [edges, others, Observer.sights, List.map_append]
    congr 1
    by_cases latches : event.latches = true
    · have low : observer.wires.level .writeStrobe = false := by
        simpa [Observer.sight] using rose (observer.sight event) (by simp [Observer.sights, latches])
      rw [if_pos ⟨latches, low⟩, if_pos latches]
      rfl
    · rw [if_neg fun both => latches both.1, if_neg latches]
      rfl

end Wires

namespace Bench

/-- The events that the log gained between two benches, the earliest first. -/
def eventsUntil (bench after : Bench) : List Event :=
  (after.log.take (after.log.length - bench.log.length)).reverse

/-- **The wires right after each rising edge** of the write strobe between two benches. -/
def edges (bench after : Bench) : List Wires :=
  bench.wires.edges (bench.eventsUntil after)

theorem Ran.eventsUntil {bench after : Bench} {events : List Event} (ran : bench.Ran after events) :
    bench.eventsUntil after = events := by
  simp [Bench.eventsUntil, ran.log]

theorem Ran.edges {bench after : Bench} {events : List Event} (ran : bench.Ran after events) :
    bench.edges after = bench.wires.edges events := by
  rw [Bench.edges, ran.eventsUntil]

/-- The edges of a run and of one that follows it. -/
theorem Ran.edges_trans {bench middle after : Bench} {first later : List Event}
    (ran : bench.Ran middle first) (ranOn : middle.Ran after later) :
    bench.edges after = bench.edges middle ++ middle.edges after := by
  rw [(ran.trans ranOn).edges, ran.edges, ranOn.edges, Wires.edges_append, ran.wires]

end Bench

end PanelLink
