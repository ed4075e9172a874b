/-
**The read strobe between its two edges.**

While the read strobe is low, the panel drives the data lines. They are sampled then, and sampling may
fail.

* `GivesBack`: the strobe is set high again before a data line is switched to output, and at the end;
* `Returns` and `Retains`: events that give the strobe back and miss no sample, and events that do
  neither;
* `Confined`: an action that leaves allowed events only, with a rule for each way to put actions
  together;
* `Settles`: an action that returns the strobe, or that fails and retains it;
* **`Settles.strobed`**: so does the reading of one word.
-/

import PanelLink.Proofs.Bench.Facing
import PanelLink.Proofs.Bench.Refusals

namespace PanelLink

/-! ### Events -/

namespace Event

/-- An edge of the read strobe. -/
def edge (level : Bool) : Event :=
  .line .readStrobe (.set level) .done

/-- Whether a data line is switched to output, or that is tried. -/
def turnsOut : Event → Bool
  | .line (.data _) (.turn .output) _ => true
  | _ => false

/-- Whether a data line fails to be sampled. -/
def misses : Event → Bool
  | .line (.data _) .sample outcome => outcome != .done
  | _ => false

/-- The event is not one of the read strobe, and no sample. -/
def Spares : Event → Prop
  | .line name use _ => name ≠ .readStrobe ∧ use ≠ .sample
  | _ => True

theorem Spares.ne_edge {event : Event} (spares : event.Spares) (level : Bool) : event ≠ edge level := by
  rintro rfl
  exact spares.1 rfl

theorem Spares.misses_eq_false {event : Event} (spares : event.Spares) : event.misses = false := by
  unfold misses
  split
  · exact absurd rfl spares.2
  · rfl

theorem Samples.turnsOut_eq_false {event : Event} (samples : event.Samples) :
    event.turnsOut = false := by
  obtain ⟨bit, outcome, rfl⟩ := samples
  rfl

theorem Samples.ne_edge {event : Event} (samples : event.Samples) (level : Bool) :
    event ≠ edge level := by
  obtain ⟨bit, outcome, rfl⟩ := samples
  exact nofun

end Event

open Event (edge)

/-- **The read strobe is given back**: whenever it is set low, it is set high again, and until then no
data line is switched to output. -/
def GivesBack (events : List Event) : Prop :=
  ∀ before after, events = before ++ edge false :: after →
    ∃ between rest, after = between ++ edge true :: rest ∧ ∀ event ∈ between, event.turnsOut = false

/-- The strobe is given back, and no sample is missed. -/
structure Returns (events : List Event) : Prop where
  givesBack : GivesBack events
  seen : ∀ event ∈ events, event.misses = false

/-- A sample is missed, and the strobe is set low for good. -/
structure Retains (events : List Event) : Prop where
  missed : ∃ event ∈ events, event.misses = true
  kept : ∃ before after, events = before ++ edge false :: after ∧ edge true ∉ after

section Lists

variable {first later events : List Event}

theorem GivesBack.append (gives : GivesBack first) (givesLater : GivesBack later) :
    GivesBack (first ++ later) := by
  intro before after split
  rcases List.append_eq_append_iff.mp split with ⟨tail, rfl, same⟩ | ⟨tail, rfl, same⟩
  · exact givesLater tail after same
  · cases tail with
    | nil => exact givesLater [] after same.symm
    | cons event tail =>
      -- The strobe is set low among the first events, and these give it back.
      obtain ⟨rfl, rfl⟩ := List.cons.inj same
      obtain ⟨between, rest, rfl, still⟩ := gives before tail rfl
      exact ⟨between, rest ++ later, List.append_assoc between (edge true :: rest) later, still⟩

/-- Where the strobe is not set low there is nothing to give back. -/
theorem givesBack_of_not_mem (high : edge false ∉ events) : GivesBack events := by
  intro before after split
  refine absurd ?_ high
  rw [split]
  exact List.mem_append_right before List.mem_cons_self

theorem Returns.append (returns : Returns first) (returnsLater : Returns later) :
    Returns (first ++ later) where
  givesBack := returns.givesBack.append returnsLater.givesBack
  seen event member := (List.mem_append.mp member).elim (returns.seen event) (returnsLater.seen event)

theorem Returns.of_spares (spares : ∀ event ∈ events, event.Spares) : Returns events where
  givesBack := givesBack_of_not_mem fun low => (spares _ low).ne_edge false rfl
  seen event member := (spares event member).misses_eq_false

/-- What has come before does not matter to a strobe that is set low for good. -/
theorem Retains.append_left (retains : Retains later) (first : List Event) :
    Retains (first ++ later) := by
  obtain ⟨⟨event, member, misses⟩, before, after, rfl, kept⟩ := retains
  refine ⟨⟨event, List.mem_append_right first member, misses⟩, first ++ before, after, ?_, kept⟩
  rw [List.append_assoc]

/-- Nor do events that spare it. -/
theorem Retains.append_right (retains : Retains first) (spares : ∀ event ∈ later, event.Spares) :
    Retains (first ++ later) := by
  obtain ⟨⟨event, member, misses⟩, before, after, rfl, kept⟩ := retains
  refine ⟨⟨event, List.mem_append_left later member, misses⟩, before, after ++ later, ?_, ?_⟩
  · rw [List.append_assoc, List.cons_append]
  · intro high
    rcases List.mem_append.mp high with early | late
    · exact kept early
    · exact (spares _ late).ne_edge true rfl

/-- A strobe that is retained is not given back. -/
theorem Retains.not_givesBack (retains : Retains events) : ¬GivesBack events := by
  obtain ⟨-, before, after, rfl, kept⟩ := retains
  intro gives
  obtain ⟨between, rest, rfl, -⟩ := gives before after rfl
  exact kept (List.mem_append_right between List.mem_cons_self)

/-- **Of events that return or retain the strobe**, those that give it back are those that miss no
sample. -/
theorem givesBack_iff (either : Returns events ∨ Retains events) :
    GivesBack events ↔ ∀ event ∈ events, event.misses = false := by
  rcases either with returns | retains
  · exact ⟨fun _ => returns.seen, fun _ => returns.givesBack⟩
  · refine ⟨fun gives => absurd gives retains.not_givesBack, fun seen => ?_⟩
    obtain ⟨event, member, misses⟩ := retains.missed
    exact absurd misses (Bool.eq_false_iff.mp (seen event member))

/-- What succeeds without retaining the strobe gives it back. -/
theorem givesBack_of_succeeds {succeeds : Prop} (either : Returns events ∨ ¬succeeds ∧ Retains events)
    (done : succeeds) : GivesBack events :=
  (either.resolve_right fun both => both.1 done).givesBack

/-- Samples between the two edges give the strobe back if none is missed. -/
theorem Returns.strobed (samples : ∀ event ∈ events, event.Samples)
    (seen : ∀ event ∈ events, event.misses = false) : Returns (edge false :: (events ++ [edge true])) where
  givesBack := by
    intro before after split
    cases before with
    | nil =>
      obtain ⟨-, rfl⟩ := List.cons.inj split
      exact ⟨events, [], rfl, fun event member => (samples event member).turnsOut_eq_false⟩
    | cons first before =>
      have lower : edge false ∈ events ++ [edge true] := by
        rw [(List.cons.inj split).2]
        exact List.mem_append_right before List.mem_cons_self
      rcases List.mem_append.mp lower with sampled | raised
      · exact absurd rfl ((samples _ sampled).ne_edge false)
      · cases List.mem_singleton.mp raised
  seen := by
    intro event member
    rcases List.mem_cons.mp member with rfl | later
    · rfl
    · rcases List.mem_append.mp later with sampled | raised
      · exact seen event sampled
      · rw [List.mem_singleton.mp raised]
        rfl

/-- Without the second edge it is retained. -/
theorem Retains.strobed (samples : ∀ event ∈ events, event.Samples)
    (missed : ∃ event ∈ events, event.misses = true) : Retains (edge false :: events) where
  missed := missed.imp fun _ both => ⟨List.mem_cons_of_mem _ both.1, both.2⟩
  kept := ⟨[], events, rfl, fun high => (samples _ high).ne_edge true rfl⟩

end Lists

/-! ### Uses of lines -/

/-- No use of the read strobe is planned to fail. -/
def Bench.StrobeWorks (bench : Bench) : Prop :=
  ∀ attempt, (bench.line .readStrobe).failsAt attempt = false

theorem Bench.Ran.strobeWorks {bench after : Bench} {events : List Event}
    (ran : bench.Ran after events) (works : bench.StrobeWorks) : after.StrobeWorks := by
  unfold StrobeWorks
  rw [(ran.plans .readStrobe).1]
  exact works

/-- A strobe that works is set. -/
theorem Bench.StrobeWorks.set {bench : Bench} (works : bench.StrobeWorks) (level : Bool) :
    ∃ after, (setLine .readStrobe level).run.run bench = (.ok (), after) ∧
      bench.Ran after [edge level] := by
  have accepted : bench.refuses [] (.line .readStrobe (.set level) .done) = false := works _
  have set := run_setLine bench .readStrobe level
  rw [accepted, if_neg Bool.false_ne_true] at set
  obtain ⟨after, ran, -⟩ := set
  rcases usesOnce_setLine .readStrobe level bench _ after ran with ⟨-, done⟩ | ⟨failed, -⟩
  · exact ⟨after, ran, done⟩
  · cases failed

/-- **Sampling misses a sample** exactly if it fails. -/
theorem sampleFrom_misses {count : Nat} : ∀ {bit : Nat} {bench after : Bench}
    {result : Except LineFailure Nat}, (sampleFrom bit count).run.run bench = (result, after) →
    ∃ events, bench.Ran after events ∧ (∀ event ∈ events, event.Samples) ∧
      ((∃ word, result = .ok word) ∧ (∀ event ∈ events, event.misses = false) ∨
        (∃ failure, result = .error failure) ∧ ∃ event ∈ events, event.misses = true) := by
  induction count with
  | zero =>
    intro bit bench after result ran
    cases ran
    exact ⟨[], Bench.Ran.refl bench, nofun, Or.inl ⟨⟨0, rfl⟩, nofun⟩⟩
  | succ count ih =>
    intro bit bench after result ran
    unfold sampleFrom at ran
    rcases sampled : (sampleLine bit).run.run bench with ⟨answer, middle⟩
    rcases usesOnce_sampleLine bit bench answer middle sampled with
      ⟨rfl, one⟩ | ⟨rfl, -, outcome, failed, one⟩
    · rw [run_bind_ok sampled] at ran
      have first : (Event.line (.data bit) .sample .done).misses = false := rfl
      rcases rest : (sampleFrom (bit + 1) count).run.run middle with ⟨others, last⟩
      obtain ⟨events, went, samples, ends⟩ := ih rest
      have all : ∀ event ∈ Event.line (.data bit) .sample .done :: events, event.Samples :=
        List.forall_mem_cons.mpr ⟨⟨bit, .done, rfl⟩, samples⟩
      rcases ends with ⟨⟨word, rfl⟩, seen⟩ | ⟨⟨failure, rfl⟩, missed⟩
      · rw [run_bind_ok rest] at ran
        cases ran
        exact ⟨_, one.trans went, all, Or.inl ⟨⟨_, rfl⟩, List.forall_mem_cons.mpr ⟨first, seen⟩⟩⟩
      · rw [run_bind_error rest] at ran
        cases ran
        refine ⟨_, one.trans went, all, Or.inr ⟨⟨failure, rfl⟩, ?_⟩⟩
        exact missed.imp fun _ both => ⟨List.mem_cons_of_mem _ both.1, both.2⟩
    · rw [run_bind_error sampled] at ran
      cases ran
      refine ⟨_, one, fun event member => ⟨bit, outcome, List.mem_singleton.mp member⟩, Or.inr ?_⟩
      exact ⟨⟨_, rfl⟩, _, List.mem_singleton_self _, bne_iff_ne.mpr failed⟩

/-! ### Actions with a memory -/

section Memory

variable {σ ε α β : Type}

/-- **Whatever comes of it, the action leaves allowed events only.** -/
def Confined (allowed : Event → Prop) (action : StateT σ BenchM α) : Prop :=
  ∀ memory bench value now after, (action.run memory).run bench = ((value, now), after) →
    ∃ events, bench.Ran after events ∧ ∀ event ∈ events, allowed event

namespace Confined

variable {allowed : Event → Prop}

theorem done (value : α) : Confined allowed (pure value : StateT σ BenchM α) := by
  intro memory bench result now after ran
  cases ran
  exact ⟨[], Bench.Ran.refl _, nofun⟩

theorem bind {first : StateT σ BenchM α} {next : α → StateT σ BenchM β}
    (confined : Confined allowed first) (confinedNext : ∀ value, Confined allowed (next value)) :
    Confined allowed (first >>= next) := by
  intro memory bench result now after ran
  rw [StateT.run_bind, StateT.run_bind] at ran
  match one : (first.run memory).run bench with
  | ((value, between), middle) =>
    rw [one] at ran
    obtain ⟨events, begun, all⟩ := confined _ _ _ _ _ one
    obtain ⟨later, ended, allLater⟩ := confinedNext value _ _ _ _ _ ran
    refine ⟨_, begun.trans ended, fun event member => ?_⟩
    exact (List.mem_append.mp member).elim (all event) (allLater event)

/-- Of two actions in a row the second one runs if the first one succeeds. -/
theorem andThen {first : ExceptT ε (StateT σ BenchM) α} {next : α → ExceptT ε (StateT σ BenchM) β}
    (confined : Confined allowed first.run)
    (confinedNext : ∀ value, Confined allowed (next value).run) :
    Confined allowed (first >>= next).run := by
  rw [ExceptT.run_bind]
  refine confined.bind fun outcome => ?_
  cases outcome with
  | ok value => exact confinedNext value
  | error error => exact done _

theorem forM {ι : Type} {action : ι → ExceptT ε (StateT σ BenchM) PUnit}
    (confined : ∀ item, Confined allowed (action item).run) (items : List ι) :
    Confined allowed (items.forM action).run := by
  induction items with
  | nil => exact done _
  | cons item items ih => exact (confined item).andThen fun _ => ih

/-- Looking at the memory changes nothing. -/
theorem peek {next : σ → ExceptT ε (StateT σ BenchM) β}
    (confined : ∀ memory, Confined allowed (next memory).run) :
    Confined allowed (get >>= next).run :=
  fun memory bench result now after ran => confined memory memory bench result now after ran

/-- What is remembered may change at any time. -/
theorem remember (change : σ → σ) :
    Confined allowed (modify change : ExceptT ε (StateT σ BenchM) PUnit).run := by
  intro memory bench result now after ran
  cases ran
  exact ⟨[], Bench.Ran.refl _, nofun⟩

theorem put (memory : σ) : Confined allowed (set memory : ExceptT ε (StateT σ BenchM) PUnit).run := by
  intro before bench result now after ran
  cases ran
  exact ⟨[], Bench.Ran.refl _, nofun⟩

/-- An argument that was checked before. -/
theorem checked (argument : Except ε α) :
    Confined allowed (liftM argument : ExceptT ε (StateT σ BenchM) α).run :=
  done argument

theorem use {action : LineM α} {tell : LineFailure → ε} (leaves : Leaves allowed action) :
    Confined allowed
      (ExceptT.mk (liftM (action.adapt tell).run) : ExceptT ε (StateT σ BenchM) α).run := by
  intro memory bench result now after ran
  match one : action.run.run bench with
  | (answer, last) =>
    rw [run_use one] at ran
    cases ran
    exact leaves bench answer _ one

/-- **Switching the data lines**, whatever is done about it afterwards. -/
theorem turn {lines : Nat} {direction : Direction} {cached : σ → Direction}
    (known : direction ≠ .unset)
    (turns : ∀ bit outcome, allowed (.line (.data bit) (.turn direction) outcome))
    {next : σ → Direction × Except LineFailure Bool → ExceptT ε (StateT σ BenchM) β}
    (confined : ∀ memory switched, Confined allowed (next memory switched).run) :
    Confined allowed
      (get >>= fun memory =>
        (switchLines lines (cached memory) direction : BenchM _) >>= next memory :
          ExceptT ε (StateT σ BenchM) β).run := by
  refine peek fun memory state bench result now after ran => ?_
  match asked : (switchLines lines (cached memory) direction).run bench with
  | ((turned, outcome), middle) =>
    rw [run_lift_then asked] at ran
    obtain ⟨later, ended, allLater⟩ := confined memory (turned, outcome) _ _ _ _ _ ran
    have switched : ∃ events, bench.Ran middle events ∧ ∀ event ∈ events, allowed event := by
      rcases switchLines_ran known asked with
        ⟨-, -, -, rfl⟩ | ⟨-, -, -, all⟩ | ⟨-, -, -, -, events, some, each⟩
      · exact ⟨[], Bench.Ran.refl _, nofun⟩
      · refine ⟨_, all, fun event member => ?_⟩
        obtain ⟨bit, -, rfl⟩ := List.mem_map.mp member
        exact turns bit .done
      · refine ⟨events, some, fun event member => ?_⟩
        obtain ⟨bit, outcome, rfl⟩ := each event member
        exact turns bit outcome
    obtain ⟨events, begun, all⟩ := switched
    refine ⟨_, begun.trans ended, fun event member => ?_⟩
    exact (List.mem_append.mp member).elim (all event) (allLater event)

end Confined

/-- **The action settles the strobe**, if it works: the strobe is returned, or the action fails and the
strobe is retained. -/
def Settles (succeeds : α → Prop) (action : StateT σ BenchM α) : Prop :=
  ∀ memory bench value now after, bench.StrobeWorks →
    (action.run memory).run bench = ((value, now), after) →
    ∃ events, bench.Ran after events ∧ (Returns events ∨ ¬succeeds value ∧ Retains events)

/-- The outcome is a success. -/
def Succeeded (outcome : Except ε α) : Prop :=
  ∃ value, outcome = .ok value

theorem not_succeeded (error : ε) : ¬Succeeded (.error error : Except ε α) :=
  fun ⟨_, impossible⟩ => nomatch impossible

/-- A read whose later step makes it a success was one before. -/
theorem Reading.ok_of_followedBy {reading : Reading ε} {next : Except ε Unit}
    (succeeded : (reading.followedBy next).outcome = .ok ()) : reading.outcome = .ok () := by
  match ended : reading.outcome with
  | .ok () => rfl
  | .error error =>
    rw [Reading.followedBy, ended] at succeeded
    cases succeeded

namespace Settles

variable {succeeds : α → Prop}

/-- An action that spares the strobe settles it. -/
theorem of_confined {action : StateT σ BenchM α} (confined : Confined Event.Spares action) :
    Settles succeeds action := by
  intro memory bench value now after works ran
  obtain ⟨events, went, spares⟩ := confined _ _ _ _ _ ran
  exact ⟨events, went, Or.inl (Returns.of_spares spares)⟩

theorem done (value : α) : Settles succeeds (pure value : StateT σ BenchM α) :=
  of_confined (Confined.done value)

/-- **Of two actions in a row** the second one has no part in it if the first one fails. -/
theorem bind {finishes : β → Prop} {first : StateT σ BenchM α} {next : α → StateT σ BenchM β}
    (settles : Settles succeeds first) (settlesNext : ∀ value, Settles finishes (next value))
    (fails : ∀ value, ¬succeeds value → ∃ result, next value = pure result ∧ ¬finishes result) :
    Settles finishes (first >>= next) := by
  intro memory bench result now after works ran
  rw [StateT.run_bind, StateT.run_bind] at ran
  match one : (first.run memory).run bench with
  | ((value, between), middle) =>
    rw [one] at ran
    obtain ⟨events, begun, returns | ⟨failed, retains⟩⟩ := settles _ _ _ _ _ works one
    · obtain ⟨later, ended, either⟩ := settlesNext value _ _ _ _ _ (begun.strobeWorks works) ran
      refine ⟨_, begun.trans ended, either.imp returns.append fun both => ?_⟩
      exact ⟨both.1, both.2.append_left events⟩
    · obtain ⟨answer, stops, unfinished⟩ := fails value failed
      change ((next value).run between).run middle = _ at ran
      rw [stops] at ran
      cases ran
      exact ⟨events, begun, Or.inr ⟨unfinished, retains⟩⟩

/-- What follows an action that spares the strobe settles it or not. -/
theorem after {finishes : β → Prop} {first : StateT σ BenchM α} {next : α → StateT σ BenchM β}
    (spares : Confined Event.Spares first) (settles : ∀ value, Settles finishes (next value)) :
    Settles finishes (first >>= next) :=
  have begins : Settles (fun _ => True) first := of_confined spares
  begins.bind settles fun _ failed => absurd trivial failed

/-- Of two actions in a row the second one runs if the first one succeeds. -/
theorem andThen {first : ExceptT ε (StateT σ BenchM) α} {next : α → ExceptT ε (StateT σ BenchM) β}
    (settles : Settles Succeeded first.run) (settlesNext : ∀ value, Settles Succeeded (next value).run) :
    Settles Succeeded (first >>= next).run := by
  rw [ExceptT.run_bind]
  refine settles.bind (fun outcome => ?_) fun outcome failed => ?_
  · cases outcome with
    | ok value => exact settlesNext value
    | error error => exact done _
  · cases outcome with
    | ok value => exact absurd ⟨value, rfl⟩ failed
    | error error => exact ⟨_, rfl, not_succeeded error⟩

/-- A read that ends at once if what comes before it fails. -/
theorem orFailed {first : ExceptT ε (StateT σ BenchM) α}
    {next : Except ε α → StateT σ BenchM (Reading ε)} (settles : Settles Succeeded first.run)
    (fails : ∀ error, next (.error error) = pure (.failed error))
    (settlesNext : ∀ value, Settles (·.outcome = .ok ()) (next (.ok value))) :
    Settles (·.outcome = .ok ()) (first.run >>= next) := by
  refine settles.bind (fun outcome => ?_) fun outcome failed => ?_
  · cases outcome with
    | ok value => exact settlesNext value
    | error error =>
      rw [fails]
      exact done _
  · cases outcome with
    | ok value => exact absurd ⟨value, rfl⟩ failed
    | error error => exact ⟨_, fails error, nofun⟩

/-- The outcome of a reading, in place of the reading. -/
theorem outcome {action : StateT σ BenchM (Reading ε)} (settles : Settles (·.outcome = .ok ()) action) :
    Settles Succeeded
      ((liftM action : ExceptT ε (StateT σ BenchM) (Reading ε)) >>= fun reading =>
        ExceptT.mk (pure reading.outcome)).run := by
  have same : ((liftM action : ExceptT ε (StateT σ BenchM) (Reading ε)) >>= fun reading =>
      ExceptT.mk (pure reading.outcome)).run = action >>= fun reading => pure reading.outcome := by
    rw [ExceptT.run_bind]
    exact bind_map_left Except.ok action _
  rw [same]
  refine settles.bind (fun reading => done _) fun reading failed => ⟨_, rfl, ?_⟩
  exact fun ⟨done, succeeded⟩ => failed succeeded

/-- **A read followed by a step** that spares the strobe, whether or not the read succeeds. -/
theorem followedBy {first : StateT σ BenchM (Reading ε)} {last : ExceptT ε (StateT σ BenchM) Unit}
    (settles : Settles (·.outcome = .ok ()) first) (spares : Confined Event.Spares last.run) :
    Settles (·.outcome = .ok ())
      (first >>= fun reading => last.run >>= fun ended => pure (reading.followedBy ended)) := by
  intro memory bench result now after works ran
  rw [StateT.run_bind, StateT.run_bind] at ran
  match one : (first.run memory).run bench with
  | ((reading, between), middle) =>
    rw [one] at ran
    obtain ⟨events, begun, either⟩ := settles _ _ _ _ _ works one
    change ((last.run >>= fun ended => pure (reading.followedBy ended)).run between).run middle = _ at ran
    rw [StateT.run_bind, StateT.run_bind] at ran
    match two : (last.run.run between).run middle with
    | ((ended, left), latest) =>
      rw [two] at ran
      cases ran
      obtain ⟨later, closed, spared⟩ := spares _ _ _ _ _ two
      refine ⟨_, begun.trans closed, ?_⟩
      rcases either with returns | ⟨failed, retains⟩
      · exact Or.inl (returns.append (Returns.of_spares spared))
      · exact Or.inr ⟨fun succeeded => failed (Reading.ok_of_followedBy succeeded),
          retains.append_right spared⟩

/-- **The reading of one word** between the edges of the strobe. -/
theorem strobed {lines : Nat} {tell : LineFailure → ε} :
    Settles Succeeded
      (do
        let use {β : Type} (action : LineM β) : ExceptT ε (StateT σ BenchM) β :=
          ExceptT.mk (liftM (action.adapt tell).run)
        use (setLine .readStrobe false)
        let word ← use (sampleLines lines)
        use (setLine .readStrobe true)
        return word : ExceptT ε (StateT σ BenchM) Nat).run := by
  intro memory bench result now after works ran
  -- Both edges are done, as the strobe works: only a sample between them can end the reading.
  obtain ⟨low, lowered, fell⟩ := works.set false
  rw [run_then_ok (run_use lowered)] at ran
  match sampling : (sampleLines lines).run.run low with
  | (answer, sampled) =>
    obtain ⟨events, went, samples, ends⟩ := sampleFrom_misses sampling
    have soFar : bench.Ran sampled (edge false :: events) := fell.trans went
    rcases ends with ⟨⟨word, rfl⟩, seen⟩ | ⟨⟨failure, rfl⟩, missed⟩
    · obtain ⟨high, raised, rose⟩ := (soFar.strobeWorks works).set true
      rw [run_then_ok (run_use sampling), run_then_ok (run_use raised)] at ran
      cases ran
      exact ⟨_, soFar.trans rose, Or.inl (Returns.strobed samples seen)⟩
    · rw [run_then_error (run_use sampling)] at ran
      cases ran
      exact ⟨_, soFar, Or.inr ⟨not_succeeded _, Retains.strobed samples missed⟩⟩

end Settles

end Memory

end PanelLink
