/-
**The directions of data lines that are turned around.**

A data line may be set only while it is an output, and sampled only while it is an input. What is
remembered of their direction holds of all data lines, or nothing is remembered.

* `Wires.Permits`: whether an event minds the direction of its line, and `PermitsAll`: event by event;
* `Wires.Faces`: all data lines have the direction that is remembered;
* `Leaves`: a use of lines that leaves allowed events only;
* `Minds`: an action whose events mind the directions, from and to what is remembered, with one rule
  for each way to put actions together;
* `switchLines_minds`, `Minds.turn`: switching the data lines, however it goes;
* `Mindful`: a history so far, and `Mindful.next`: one more action.
-/

import PanelLink.Proofs.Bench.Wires

namespace PanelLink

/-! ### Events and directions -/

namespace Wires

/-- **The event minds the direction of its line**: a data line that is set is an output, and one that
is sampled is an input, whether or not the use succeeds. -/
def Permits (wires : Wires) : Event → Prop
  | .line (.data bit) (.set _) _ => wires.direction (.data bit) = .output
  | .line (.data bit) .sample _ => wires.direction (.data bit) = .input
  | _ => True

/-- Every event of a run minds the direction that its line has just before. -/
def PermitsAll (wires : Wires) : List Event → Prop
  | [] => True
  | event :: later => wires.Permits event ∧ (wires.after event).PermitsAll later

theorem permitsAll_append {wires : Wires} {first later : List Event} :
    wires.PermitsAll (first ++ later) ↔
      wires.PermitsAll first ∧ (wires.afterAll first).PermitsAll later := by
  induction first generalizing wires with
  | nil => simp [PermitsAll]
  | cons event first ih => rw [List.cons_append, PermitsAll, PermitsAll, ih, afterAll_cons, and_assoc]

/-- **The data lines have the direction that is remembered**, if one is. -/
def Faces (wires : Wires) (lines : Nat) (direction : Direction) : Prop :=
  direction ≠ .unset → ∀ bit, bit < lines → wires.direction (.data bit) = direction

end Wires

/-- An event that may happen while the data lines face a direction. -/
def Event.Suits (lines : Nat) (direction : Direction) : Event → Prop
  | .line (.data bit) (.set _) _ => bit < lines ∧ direction = .output
  | .line (.data bit) .sample _ => bit < lines ∧ direction = .input
  | .line (.data _) (.turn _) _ => False
  | _ => True

section Suiting

variable {lines : Nat} {direction : Direction}

theorem Event.Suits.directionAfter {event : Event} (suits : event.Suits lines direction) (bit : Nat)
    (now : Direction) : event.directionAfter (.data bit) now = now := by
  cases event with
  | line name use outcome =>
    cases use with
    | turn direction =>
      cases name with
      | data other => exact suits.elim
      | _ => cases outcome <;> rfl
    | _ => rfl
  | _ => rfl

theorem Wires.Faces.permits {wires : Wires} (faces : wires.Faces lines direction) {event : Event}
    (suits : event.Suits lines direction) : wires.Permits event := by
  unfold Permits
  split
  · obtain ⟨inRow, rfl⟩ := suits
    exact faces (by decide) _ inRow
  · obtain ⟨inRow, rfl⟩ := suits
    exact faces (by decide) _ inRow
  · trivial

/-- **Events that suit the direction of the data lines** mind it and keep it. -/
theorem Wires.Faces.afterAll {wires : Wires} (faces : wires.Faces lines direction)
    {events : List Event} (suit : ∀ event ∈ events, event.Suits lines direction) :
    wires.PermitsAll events ∧ (wires.afterAll events).Faces lines direction := by
  induction events generalizing wires with
  | nil => exact ⟨trivial, faces⟩
  | cons event events ih =>
    have suits := suit event List.mem_cons_self
    have next : (wires.after event).Faces lines direction := fun known bit inRow =>
      (suits.directionAfter bit _).trans (faces known bit inRow)
    obtain ⟨permits, facesLast⟩ := ih next fun other member =>
      suit other (List.mem_cons_of_mem event member)
    exact ⟨⟨faces.permits suits, permits⟩, facesLast⟩

end Suiting

/-! ### Uses of lines -/

/-- **The use of lines leaves allowed events only**, whatever comes of it. -/
def Leaves {α : Type} (allowed : Event → Prop) (action : LineM α) : Prop :=
  ∀ bench result after, action.run.run bench = (result, after) →
    ∃ events, bench.Ran after events ∧ ∀ event ∈ events, allowed event

namespace Leaves

variable {allowed : Event → Prop} {α β : Type}

theorem done (value : α) : Leaves allowed (pure value) := by
  intro bench result after ran
  cases ran
  exact ⟨[], Bench.Ran.refl _, by simp⟩

theorem andThen {first : LineM α} {next : α → LineM β} (leaves : Leaves allowed first)
    (leavesNext : ∀ value, Leaves allowed (next value)) : Leaves allowed (first >>= next) := by
  intro bench result after ran
  match one : first.run.run bench with
  | (.ok value, middle) =>
    rw [run_bind_ok one] at ran
    obtain ⟨events, begun, all⟩ := leaves bench _ middle one
    obtain ⟨later, ended, allLater⟩ := leavesNext value middle result after ran
    exact ⟨_, begun.trans ended, fun event member =>
      (List.mem_append.mp member).elim (all event) (allLater event)⟩
  | (.error error, middle) =>
    rw [run_bind_error one] at ran
    cases ran
    exact leaves bench _ _ one

theorem forM {ι : Type} {action : ι → LineM PUnit} {items : List ι}
    (leaves : ∀ item ∈ items, Leaves allowed (action item)) : Leaves allowed (items.forM action) := by
  induction items with
  | nil => exact done ()
  | cons item items ih =>
    exact (leaves item List.mem_cons_self).andThen fun _ =>
      ih fun other member => leaves other (List.mem_cons_of_mem item member)

/-- A single use leaves its one event. -/
theorem once {action : LineM α} {event : UseOutcome → Event} {value : Wires → α}
    (uses : UsesOnce action event value) (all : ∀ outcome, allowed (event outcome)) :
    Leaves allowed action := by
  intro bench result after ran
  rcases uses bench result after ran with ⟨-, done⟩ | ⟨-, -, outcome, -, failed⟩
  · exact ⟨_, done, fun event member => List.mem_singleton.mp member ▸ all .done⟩
  · exact ⟨_, failed, fun event member => List.mem_singleton.mp member ▸ all outcome⟩

theorem set {name : LineName} {level : Bool}
    (all : ∀ outcome, allowed (.line name (.set level) outcome)) :
    Leaves allowed (setLine name level) :=
  once (usesOnce_setLine name level) all

/-- Sampling samples data lines of the row only. -/
theorem sample {lines : Nat} (all : ∀ bit outcome, bit < lines →
    allowed (.line (.data bit) .sample outcome)) : Leaves allowed (sampleLines lines) := by
  have from_ (count : Nat) : ∀ bit, bit + count ≤ lines → Leaves allowed (sampleFrom bit count) := by
    induction count with
    | zero => exact fun _ _ => done 0
    | succ count ih =>
      intro bit inRow
      exact (once (usesOnce_sampleLine bit) fun outcome => all bit outcome (by omega)).andThen
        fun level => (ih (bit + 1) (by omega)).andThen fun higher => done _
  exact from_ (min lines 32) 0 (by omega)

end Leaves

/-! ### Actions that remember a direction -/

section Memory

variable {σ : Type} {ε α β : Type} (lines : Nat) (cached : σ → Direction)

/-- **The action minds the directions of the data lines**, from what is remembered of them to what is
remembered afterwards. -/
def Minds (before : Direction → Prop) (action : StateT σ BenchM α) (after : α → Direction → Prop) :
    Prop :=
  ∀ memory bench value now later, (action.run memory).run bench = ((value, now), later) →
    bench.wires.Faces lines (cached memory) → before (cached memory) →
    (∃ events, bench.Ran later events ∧ bench.wires.PermitsAll events) ∧
      later.wires.Faces lines (cached now) ∧ after value (cached now)

/-- The action minds the directions and goes on remembering the one that it started with. -/
def Holds (direction : Direction) (action : StateT σ BenchM α) : Prop :=
  Minds lines cached (· = direction) action fun _ now => now = direction

/-- What is remembered if an action succeeds. -/
def OnSuccess (done : α → Direction → Prop) (outcome : Except ε α) (now : Direction) : Prop :=
  ∀ value, outcome = .ok value → done value now

variable {lines : Nat} {cached : σ → Direction} {before : Direction → Prop}

namespace Minds

theorem done {after : α → Direction → Prop} (value : α)
    (follows : ∀ direction, before direction → after value direction) :
    Minds lines cached before (pure value) after := by
  intro memory bench result now later ran faces holds
  cases ran
  exact ⟨⟨[], Bench.Ran.refl _, trivial⟩, faces, follows _ holds⟩

theorem bind {middle : α → Direction → Prop} {after : β → Direction → Prop}
    {first : StateT σ BenchM α} {next : α → StateT σ BenchM β}
    (minds : Minds lines cached before first middle)
    (mindsNext : ∀ value, Minds lines cached (middle value) (next value) after) :
    Minds lines cached before (first >>= next) after := by
  intro memory bench result now later ran faces holds
  rw [StateT.run_bind, StateT.run_bind] at ran
  match one : (first.run memory).run bench with
  | ((value, between), middle) =>
    rw [one] at ran
    obtain ⟨⟨events, begun, permits⟩, facesNow, holdsNow⟩ := minds _ _ _ _ _ one faces holds
    obtain ⟨⟨others, ended, permitsLater⟩, facesLast, holdsLast⟩ :=
      mindsNext value _ _ _ _ _ ran facesNow holdsNow
    refine ⟨⟨_, begun.trans ended, Wires.permitsAll_append.mpr ⟨permits, ?_⟩⟩, facesLast, holdsLast⟩
    rw [← begun.wires]
    exact permitsLater

theorem weaken {stronger : Direction → Prop} {after weaker : α → Direction → Prop}
    {action : StateT σ BenchM α} (minds : Minds lines cached before action after)
    (enough : ∀ direction, stronger direction → before direction)
    (follows : ∀ value direction, after value direction → weaker value direction) :
    Minds lines cached stronger action weaker := by
  intro memory bench result now later ran faces holds
  obtain ⟨mind, facesNow, holdsNow⟩ := minds _ _ _ _ _ ran faces (enough _ holds)
  exact ⟨mind, facesNow, follows _ _ holdsNow⟩

/-- Of two actions in a row the second one runs if the first one succeeds. -/
theorem andThen {middle : α → Direction → Prop} {done : β → Direction → Prop}
    {first : ExceptT ε (StateT σ BenchM) α} {next : α → ExceptT ε (StateT σ BenchM) β}
    (minds : Minds lines cached before first.run (OnSuccess middle))
    (mindsNext : ∀ value, Minds lines cached (middle value) (next value).run (OnSuccess done)) :
    Minds lines cached before (first >>= next).run (OnSuccess done) := by
  rw [ExceptT.run_bind]
  refine minds.bind fun outcome => ?_
  cases outcome with
  | ok value => exact (mindsNext value).weaken (fun _ holds => holds value rfl) fun _ _ => id
  | error error => exact Minds.done _ fun _ _ value failed => by cases failed

/-- An argument that was checked before. -/
theorem checked {done : α → Direction → Prop} (argument : Except ε α)
    (follows : ∀ value direction, before direction → done value direction) :
    Minds lines cached before (liftM argument : ExceptT ε (StateT σ BenchM) α).run
      (OnSuccess done) :=
  Minds.done argument fun direction holds value _ => follows value direction holds

/-- Of any action it is enough to know what is remembered if it succeeds. -/
theorem onSuccess {after : Direction → Prop} {action : ExceptT ε (StateT σ BenchM) α}
    (minds : Minds lines cached before action.run fun _ => after) :
    Minds lines cached before action.run (OnSuccess fun _ => after) :=
  minds.weaken (fun _ => id) fun _ _ holds _ _ => holds

end Minds

namespace Holds

variable {direction : Direction}

theorem done (value : α) : Holds lines cached direction (pure value) :=
  Minds.done value fun _ => id

theorem bind {first : StateT σ BenchM α} {next : α → StateT σ BenchM β}
    (holds : Holds lines cached direction first)
    (holdsNext : ∀ value, Holds lines cached direction (next value)) :
    Holds lines cached direction (first >>= next) :=
  Minds.bind holds holdsNext

theorem andThen {first : ExceptT ε (StateT σ BenchM) α} {next : α → ExceptT ε (StateT σ BenchM) β}
    (holds : Holds lines cached direction first.run)
    (holdsNext : ∀ value, Holds lines cached direction (next value).run) :
    Holds lines cached direction (first >>= next).run := by
  rw [ExceptT.run_bind]
  refine holds.bind fun outcome => ?_
  cases outcome with
  | ok value => exact holdsNext value
  | error error => exact done _

theorem forM {ι : Type} {action : ι → ExceptT ε (StateT σ BenchM) PUnit}
    (holds : ∀ item, Holds lines cached direction (action item).run) (items : List ι) :
    Holds lines cached direction (items.forM action).run := by
  induction items with
  | nil => exact done _
  | cons item items ih => exact (holds item).andThen fun _ => ih

theorem lift {action : StateT σ BenchM α} (holds : Holds lines cached direction action) :
    Holds lines cached direction (liftM action : ExceptT ε (StateT σ BenchM) α).run := by
  change Holds lines cached direction (Except.ok <$> action)
  rw [map_eq_pure_bind]
  exact holds.bind fun value => done _

/-- Looking at the memory changes nothing. -/
theorem peek {next : σ → ExceptT ε (StateT σ BenchM) β}
    (holds : ∀ memory, Holds lines cached direction (next memory).run) :
    Holds lines cached direction (get >>= next).run :=
  fun memory bench result now later ran => holds memory memory bench result now later ran

/-- What is remembered besides the direction may change at any time. -/
theorem remember {change : σ → σ} (same : ∀ memory, cached (change memory) = cached memory) :
    Holds lines cached direction (modify change : ExceptT ε (StateT σ BenchM) PUnit).run := by
  intro memory bench result now later ran faces holds
  cases ran
  refine ⟨⟨[], Bench.Ran.refl _, trivial⟩, ?_, (same memory).trans holds⟩
  show bench.wires.Faces lines (cached (change memory))
  rw [same]
  exact faces

/-- **A use of lines** that leaves the memory alone, and only events that suit the direction. -/
theorem use {action : LineM α} {tell : LineFailure → ε}
    (leaves : Leaves (Event.Suits lines direction) action) :
    Holds lines cached direction
      (ExceptT.mk (liftM (action.adapt tell).run) : ExceptT ε (StateT σ BenchM) α).run := by
  intro memory bench result now later ran faces holds
  match one : action.run.run bench with
  | (answer, last) =>
    rw [run_use one] at ran
    cases ran
    obtain ⟨events, went, suit⟩ := leaves bench answer _ one
    rw [holds] at faces ⊢
    obtain ⟨permits, facesNow⟩ := faces.afterAll suit
    exact ⟨⟨events, went, permits⟩, went.wires ▸ facesNow, rfl⟩

/-- Setting a line that is not a data line. -/
theorem setOther {name : LineName} {level : Bool} {tell : LineFailure → ε}
    (other : ∀ bit, name ≠ .data bit) :
    Holds lines cached direction
      (ExceptT.mk (liftM ((setLine name level).adapt tell).run) :
        ExceptT ε (StateT σ BenchM) Unit).run := by
  refine use (Leaves.set fun outcome => ?_)
  cases name with
  | data bit => exact absurd rfl (other bit)
  | _ => trivial

/-- **Sampling the data lines** between the edges of the read strobe, while they are inputs. -/
theorem sampleStrobed {tell : LineFailure → ε} :
    Holds lines cached .input
      (do
        let use {β : Type} (action : LineM β) : ExceptT ε (StateT σ BenchM) β :=
          ExceptT.mk (liftM (action.adapt tell).run)
        use (setLine .readStrobe false)
        let word ← use (sampleLines lines)
        use (setLine .readStrobe true)
        return word : ExceptT ε (StateT σ BenchM) Nat).run :=
  (setOther (by simp)).andThen fun _ =>
    (use (Leaves.sample fun _ _ inRow => ⟨inRow, rfl⟩)).andThen fun _ =>
      (setOther (by simp)).andThen fun _ => done _

end Holds

/-- An action that goes on remembering whatever is remembered. -/
theorem Minds.ofHolds {action : StateT σ BenchM α}
    (holds : ∀ direction, Holds lines cached direction action) :
    Minds lines cached before action fun _ => before :=
  fun memory bench value now later ran faces remembered =>
    have ⟨minds, facesNow, kept⟩ := holds _ memory bench value now later ran faces rfl
    ⟨minds, facesNow, kept.symm ▸ remembered⟩

/-! ### Histories -/

/-- **Everything so far minds the directions of the data lines**, and what is remembered holds of
them. -/
structure Mindful (lines : Nat) (direction : Direction) (start now : Bench) : Prop where
  permits : ∃ events, start.Ran now events ∧ start.wires.PermitsAll events
  faces : now.wires.Faces lines direction

/-- Nothing is remembered at first. -/
theorem Mindful.start (lines : Nat) (bench : Bench) : Mindful lines .unset bench bench where
  permits := ⟨[], Bench.Ran.refl _, trivial⟩
  faces unset := absurd rfl unset

/-- **One more action** that minds the directions, whatever is remembered of them. -/
theorem Mindful.next {memory : σ} {start bench : Bench} {action : StateT σ BenchM α}
    {after : α → Direction → Prop} (mindful : Mindful lines (cached memory) start bench)
    (minds : Minds lines cached (fun _ => True) action after) :
    Mindful lines (cached ((action.run memory).run bench).1.2) start
      ((action.run memory).run bench).2 := by
  obtain ⟨events, went, permits⟩ := mindful.permits
  obtain ⟨⟨later, goes, permitsLater⟩, faces, -⟩ := minds _ _ _ _ _ rfl mindful.faces trivial
  refine ⟨⟨_, went.trans goes, Wires.permitsAll_append.mpr ⟨permits, ?_⟩⟩, faces⟩
  rw [← went.wires]
  exact permitsLater

end Memory

/-! ### Switching -/

/-- Switching data lines minds their directions, whatever they are. -/
theorem Wires.permitsAll_turns {wires : Wires} {events : List Event}
    (turns : ∀ event ∈ events, ∃ bit direction outcome,
      event = .line (.data bit) (.turn direction) outcome) : wires.PermitsAll events := by
  induction events generalizing wires with
  | nil => trivial
  | cons event events ih =>
    obtain ⟨bit, direction, outcome, rfl⟩ := turns event List.mem_cons_self
    exact ⟨trivial, ih fun other member => turns other (List.mem_cons_of_mem _ member)⟩

/-- **A switch of the data lines**, however it goes, leaves what it returns to be cached as their
direction. If it succeeds, that is the direction asked for, and it was cached already if there was
nothing to switch. -/
theorem switchLines_minds {lines : Nat} {cached direction now : Direction} (known : direction ≠ .unset)
    {bench after : Bench} {result : Except LineFailure Bool}
    (faces : bench.wires.Faces lines cached)
    (ran : (switchLines lines cached direction).run bench = ((now, result), after)) :
    (∃ events, bench.Ran after events ∧ bench.wires.PermitsAll events) ∧
      after.wires.Faces lines now ∧ (∀ switched, result = .ok switched → now = direction) ∧
      (result = .ok false → now = cached) := by
  rcases switchLines_ran known ran with
    ⟨rfl, rfl, rfl, rfl⟩ | ⟨-, rfl, rfl, all⟩ | ⟨-, rfl, rfl, -, events, some, turns⟩
  · exact ⟨⟨[], Bench.Ran.refl _, trivial⟩, faces, fun _ _ => rfl, fun _ => rfl⟩
  · refine ⟨⟨_, all, Wires.permitsAll_turns fun event member => ?_⟩, fun _ bit inRow => ?_,
      fun _ _ => rfl, fun nothing => by cases nothing⟩
    · obtain ⟨bit, -, rfl⟩ := List.mem_map.mp member
      exact ⟨bit, _, .done, rfl⟩
    · rw [all.wires]
      exact Wires.direction_turnEvents _ _ _ inRow
  · refine ⟨⟨events, some, Wires.permitsAll_turns fun event member => ?_⟩,
      fun unknown => absurd rfl unknown, (fun _ failed => by cases failed), fun failed => by
        cases failed⟩
    obtain ⟨bit, outcome, rfl⟩ := turns event member
    exact ⟨bit, direction, outcome, rfl⟩

/-- **Switching the lines and remembering their direction** minds the directions from whatever is
remembered. If it succeeds, the direction asked for is. -/
theorem Minds.turn {σ ε : Type} {lines : Nat} {cached : σ → Direction} {direction : Direction}
    (known : direction ≠ .unset)
    {next : σ → Direction × Except LineFailure Bool → ExceptT ε (StateT σ BenchM) Unit}
    (still : ∀ memory now, next memory (now, .ok false) = pure ())
    (switched : ∀ memory now, ∃ changed, next memory (now, .ok true) = set changed ∧
      cached changed = now)
    (failed : ∀ memory now failure, ∃ changed error,
      next memory (now, .error failure) = (set changed >>= fun _ => throw error) ∧
        cached changed = now) :
    Minds lines cached (fun _ => True)
      (get >>= fun memory =>
        (switchLines lines (cached memory) direction : BenchM _) >>= next memory :
          ExceptT ε (StateT σ BenchM) Unit).run
      (OnSuccess fun _ now => now = direction) := by
  intro memory bench result now later ran faces _
  match asked : (switchLines lines (cached memory) direction).run bench with
  | ((turned, outcome), after) =>
    obtain ⟨minds, facesNow, succeeds, nothing⟩ := switchLines_minds known faces asked
    rw [run_get_then, run_lift_then asked] at ran
    match outcome with
    | .ok false =>
      have kept : turned = cached memory := nothing rfl
      rw [still] at ran
      cases ran
      exact ⟨minds, kept ▸ facesNow, fun _ _ => kept ▸ succeeds false rfl⟩
    | .ok true =>
      obtain ⟨changed, sets, rfl⟩ := switched memory turned
      rw [sets] at ran
      cases ran
      exact ⟨minds, facesNow, fun _ _ => succeeds true rfl⟩
    | .error failure =>
      obtain ⟨changed, error, sets, rfl⟩ := failed memory turned failure
      rw [sets] at ran
      cases ran
      exact ⟨minds, facesNow, fun _ done => by cases done⟩

/-- **Switching to the direction that is remembered** touches no line, and changes nothing that is
remembered. -/
theorem run_turn_cached {σ ε : Type} {lines : Nat} {cached : σ → Direction}
    {next : σ → Direction × Except LineFailure Bool → ExceptT ε (StateT σ BenchM) Unit}
    (still : ∀ memory now, next memory (now, .ok false) = pure ()) (memory : σ) (bench : Bench) :
    ((get >>= fun remembered =>
      (switchLines lines (cached remembered) (cached memory) : BenchM _) >>= next remembered :
        ExceptT ε (StateT σ BenchM) Unit).run.run memory).run bench = ((.ok (), memory), bench) := by
  have nothing : (switchLines lines (cached memory) (cached memory)).run bench =
      ((cached memory, .ok false), bench) := by
    unfold switchLines
    rw [if_pos (Or.inl rfl)]
    rfl
  rw [run_get_then, run_lift_then nothing, still]
  rfl

end PanelLink
