/-
**The levels of lines, replayed from events.**

An observer who knows the levels at the start and sees the events knows every level at every event.

* `Event.levelAfter`: what one event does to the level of a line;
* `Levels.history`: each event with the levels of all lines right after it;
* `Levels.history_append`: a history goes on where its first part ends.
-/

import PanelLink.Bench.Event

namespace PanelLink

/-- The level of a line after an event; an output starts low. -/
def Event.levelAfter (name : LineName) (level : Bool) : Event → Bool
  | .line other (.set new) .done => if other = name then new else level
  | .line other (.turn .output) .done => if other = name then false else level
  | _ => level

/-- The levels of all lines. -/
abbrev Levels := LineName → Bool

namespace Levels

/-- The levels after an event. -/
def after (levels : Levels) (event : Event) : Levels :=
  fun name => event.levelAfter name (levels name)

/-- The levels after events in order. -/
def afterAll (levels : Levels) (events : List Event) : Levels :=
  events.foldl after levels

/-- Each event with the levels right after it. -/
def history (levels : Levels) : List Event → List (Event × Levels)
  | [] => []
  | event :: later => (event, levels.after event) :: (levels.after event).history later

theorem history_append (levels : Levels) (first later : List Event) :
    levels.history (first ++ later) =
      levels.history first ++ (levels.afterAll first).history later := by
  induction first generalizing levels with
  | nil => rfl
  | cons event first ih => simp only [List.cons_append, history, ih, afterAll, List.foldl_cons]

/-- A line that no event changes keeps its level through a history. -/
theorem eq_of_mem_history {levels : Levels} {name : LineName} {events : List Event}
    (still : ∀ event ∈ events, ∀ level, event.levelAfter name level = level)
    {moment : Event × Levels} (member : moment ∈ levels.history events) :
    moment.2 name = levels name := by
  induction events generalizing levels with
  | nil => exact absurd member List.not_mem_nil
  | cons event events ih =>
    have same : levels.after event name = levels name := still event List.mem_cons_self _
    rcases List.mem_cons.mp member with rfl | later
    · exact same
    · rw [ih (fun other inEvents => still other (List.mem_cons_of_mem event inEvents)) later, same]

end Levels

end PanelLink
