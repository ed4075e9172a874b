/-
**What the uses of lines leave behind, failures included.**

* `Bench.Went`: from one bench to a later one, exactly these events happened, and the levels are
  those that the events leave;
* `setLine_went`, `turnLine_went`, `sampleLine_went`: what a use of a line can do;
* `sampleLines_went`, `turnAll_went`, `switchLines_went`: the same for lines used together.
-/

import PanelLink.Bench.DataBus
import PanelLink.Proofs.Bench.Replay
import PanelLink.Proofs.Bench.Trace

namespace PanelLink

/-! ### Levels -/

/-- The levels of the lines of a bench. -/
def Bench.levels (bench : Bench) : Levels :=
  fun name => (bench.line name).level

namespace Levels

theorem afterAll_append (levels : Levels) (first later : List Event) :
    levels.afterAll (first ++ later) = (levels.afterAll first).afterAll later :=
  List.foldl_append

theorem afterAll_singleton (levels : Levels) (event : Event) :
    levels.afterAll [event] = levels.after event :=
  rfl

/-- Events that spare a line leave its level. -/
theorem afterAll_of_still {levels : Levels} {name : LineName} {events : List Event}
    (still : ∀ event ∈ events, ∀ level, event.levelAfter name level = level) :
    levels.afterAll events name = levels name := by
  induction events generalizing levels with
  | nil => rfl
  | cons event events ih =>
    have same : levels.after event name = levels name := still event List.mem_cons_self _
    rw [afterAll, List.foldl_cons]
    exact (ih fun other member => still other (List.mem_cons_of_mem event member)).trans same

end Levels

theorem Bench.levels_putLine (bench : Bench) (name : LineName) (line : Line) :
    (bench.putLine name line).levels =
      fun other => if other = name then line.level else bench.levels other := by
  funext other
  rw [levels, line_putLine]
  by_cases same : other = name
  · rw [if_pos same, if_pos same]
  · rw [if_neg same, if_neg same]
    rfl

theorem Bench.levels_record (bench : Bench) (event : Event) :
    (bench.record event).levels = bench.levels := by
  funext name
  cases name <;> rfl

theorem Bench.levels_strobed (bench : Bench) (name : LineName) (level : Bool) :
    (bench.strobed name level).levels = bench.levels := by
  unfold Bench.strobed
  split
  · funext other
    cases other <;> rfl
  · rfl

/-! ### What happened between two benches -/

/-- **Exactly these events** lead from one bench to another: they are what the log gained, and they
explain the levels. -/
structure Bench.Went (bench after : Bench) (events : List Event) : Prop where
  log : after.log = events.reverse ++ bench.log
  levels : after.levels = bench.levels.afterAll events

namespace Bench.Went

theorem refl (bench : Bench) : bench.Went bench [] :=
  ⟨rfl, rfl⟩

theorem trans {bench middle after : Bench} {first later : List Event}
    (went : bench.Went middle first) (wentOn : middle.Went after later) :
    bench.Went after (first ++ later) := by
  refine ⟨?_, ?_⟩
  · rw [wentOn.log, went.log, List.reverse_append, List.append_assoc]
  · rw [wentOn.levels, went.levels, Levels.afterAll_append]

end Bench.Went

/-! ### One line -/

/-- An attempt is logged, and it alone moves no line. -/
theorem attemptUse_went {name : LineName} {use : LineUse} {bench after : Bench}
    {result : Except LineFailure Unit}
    (ran : (attemptUse name use).run.run bench = (result, after)) :
    after.log = .line name use ((bench.line name).outcomeOf use) :: bench.log ∧
      after.levels = bench.levels ∧
      result = if (bench.line name).outcomeOf use = .done then .ok () else .error .refused := by
  cases ran
  refine ⟨?_, ?_, rfl⟩
  · exact congrArg (_ :: ·) (log_putLine bench name _)
  · show Bench.levels (Bench.record _ _) = _
    rw [Bench.levels_record, Bench.levels_putLine]
    funext other
    by_cases same : other = name
    · rw [if_pos same, same]
      rfl
    · rw [if_neg same]

theorem outcomeOf_set (line : Line) (level : Bool) :
    line.outcomeOf (.set level) = .done ∨ line.outcomeOf (.set level) = .refused := by
  unfold Line.outcomeOf
  by_cases fails : line.failsAt line.attempts
  · rw [if_pos fails]
    exact Or.inr rfl
  · rw [if_neg fails]
    exact Or.inl rfl

theorem outcomeOf_sample (line : Line) :
    line.outcomeOf .sample = .done ∨ line.outcomeOf .sample = .refused :=
  outcomeOf_set line true

/-- **Setting a line** either sets it or fails and changes nothing. -/
theorem setLine_went {name : LineName} {level : Bool} {bench after : Bench}
    {result : Except LineFailure Unit}
    (ran : (setLine name level).run.run bench = (result, after)) :
    (result = .ok () ∧ bench.Went after [.line name (.set level) .done]) ∨
      (result = .error .refused ∧ bench.Went after [.line name (.set level) .refused]) := by
  cases tried : (attemptUse name (.set level)).run.run bench with
  | mk outcome middle =>
    obtain ⟨log, levels, answer⟩ := attemptUse_went tried
    rcases outcomeOf_set (bench.line name) level with works | fails
    · rw [works, if_pos rfl] at answer
      subst answer
      unfold setLine at ran
      rw [run_bind_ok tried] at ran
      cases ran
      refine Or.inl ⟨rfl, ?_, ?_⟩
      · rw [log_strobed, log_putLine, log, works]
        rfl
      · rw [Bench.levels_strobed, Bench.levels_putLine, levels]
        funext other
        by_cases same : other = name
        · rw [if_pos same, same]
          exact (if_pos rfl).symm
        · rw [if_neg same]
          exact (if_neg fun back => same back.symm).symm
    · rw [fails, if_neg (by decide)] at answer
      subst answer
      unfold setLine at ran
      rw [run_bind_error tried] at ran
      cases ran
      refine Or.inr ⟨rfl, ?_, levels⟩
      rw [log, fails]
      rfl

/-- **Switching a line** either switches it, an output starting low, or fails and changes
nothing. -/
theorem turnLine_went {name : LineName} {direction : Direction} {bench after : Bench}
    {result : Except LineFailure Unit}
    (ran : (turnLine name direction).run.run bench = (result, after)) :
    (result = .ok () ∧ bench.Went after [.line name (.turn direction) .done]) ∨
      (result = .error .refused ∧ ∃ outcome, outcome ≠ .done ∧
        bench.Went after [.line name (.turn direction) outcome]) := by
  cases tried : (attemptUse name (.turn direction)).run.run bench with
  | mk outcome middle =>
    obtain ⟨log, levels, answer⟩ := attemptUse_went tried
    by_cases works : (bench.line name).outcomeOf (.turn direction) = .done
    · rw [if_pos works] at answer
      subst answer
      unfold turnLine at ran
      rw [run_bind_ok tried] at ran
      cases ran
      refine Or.inl ⟨rfl, ?_, ?_⟩
      · rw [log_putLine, log, works]
        rfl
      · have before : (middle.line name).level = (bench.line name).level := congrFun levels name
        rw [Bench.levels_putLine, levels]
        funext other
        by_cases same : other = name
        · rw [if_pos same, same]
          cases direction with
          | unset => exact before
          | input => exact before
          | output => exact (if_pos rfl).symm
        · rw [if_neg same]
          cases direction with
          | unset => rfl
          | input => rfl
          | output => exact (if_neg fun back => same back.symm).symm
    · rw [if_neg works] at answer
      subst answer
      unfold turnLine at ran
      rw [run_bind_error tried] at ran
      cases ran
      refine Or.inr ⟨rfl, _, works, ?_, ?_⟩
      · rw [log]
        rfl
      · rw [levels]
        funext other
        cases outcome : (bench.line name).outcomeOf (.turn direction) with
        | done => exact absurd outcome works
        | refused => cases direction <;> rfl
        | stuck => cases direction <;> rfl

/-- **Sampling a line** changes no level, whether or not it fails. -/
theorem sampleLine_went {bit : Nat} {bench after : Bench} {result : Except LineFailure Bool}
    (ran : (sampleLine bit).run.run bench = (result, after)) :
    ∃ outcome, bench.Went after [.line (.data bit) .sample outcome] := by
  cases tried : (attemptUse (.data bit) .sample).run.run bench with
  | mk outcome middle =>
    obtain ⟨log, levels, answer⟩ := attemptUse_went tried
    have went : bench.Went middle
        [.line (.data bit) .sample ((bench.line (.data bit)).outcomeOf .sample)] := by
      refine ⟨log, levels.trans ?_⟩
      funext other
      rcases outcomeOf_sample (bench.line (.data bit)) with works | fails
      · rw [works]
        rfl
      · rw [fails]
        rfl
    unfold sampleLine at ran
    cases outcome with
    | ok =>
      rw [run_bind_ok tried] at ran
      cases ran
      exact ⟨_, went⟩
    | error =>
      rw [run_bind_error tried] at ran
      cases ran
      exact ⟨_, went⟩

/-! ### Lines used together -/

variable {ε α β : Type}

/-- A use of lines as part of an action with a memory leaves the memory alone. -/
theorem run_use {σ : Type} {action : LineM α} {tell : LineFailure → ε} {memory : σ}
    {bench after : Bench} {answer : Except LineFailure α}
    (ran : action.run.run bench = (answer, after)) :
    ((ExceptT.mk (liftM (action.adapt tell).run) : ExceptT ε (StateT σ BenchM) α).run.run memory).run
      bench = ((answer.mapError tell, memory), after) := by
  have restated : (action.adapt tell).run.run bench = (answer.mapError tell, after) := by
    rw [ExceptT.run_adapt, StateT.run_map, ran]
    rfl
  change ((((action.adapt tell).run.run bench).1, memory),
    ((action.adapt tell).run.run bench).2) = _
  rw [restated]

/-- **Whatever comes of it, the action leaves allowed events** and nothing else. -/
def Within (allowed : Event → Prop) (action : ExceptT ε BenchM α) : Prop :=
  ∀ bench result after, action.run.run bench = (result, after) →
    ∃ events, bench.Went after events ∧ ∀ event ∈ events, allowed event

namespace Within

variable {allowed : Event → Prop}

theorem pure (value : α) : Within allowed (Pure.pure value : ExceptT ε BenchM α) := by
  intro bench result after ran
  cases ran
  exact ⟨[], Bench.Went.refl bench, fun _ member => absurd member List.not_mem_nil⟩

theorem bind {first : ExceptT ε BenchM α} {next : α → ExceptT ε BenchM β}
    (within : Within allowed first) (withinNext : ∀ value, Within allowed (next value)) :
    Within allowed (first >>= next) := by
  intro bench result after ran
  cases one : first.run.run bench with
  | mk outcome middle =>
    obtain ⟨events, went, all⟩ := within bench outcome middle one
    cases outcome with
    | error error =>
      rw [run_bind_error one] at ran
      cases ran
      exact ⟨events, went, all⟩
    | ok value =>
      rw [run_bind_ok one] at ran
      obtain ⟨later, wentOn, allLater⟩ := withinNext value middle result after ran
      refine ⟨events ++ later, went.trans wentOn, fun event member => ?_⟩
      rcases List.mem_append.mp member with early | late
      · exact all event early
      · exact allLater event late

theorem forM {ι : Type} {items : List ι} {action : ι → ExceptT ε BenchM PUnit}
    (within : ∀ item, Within allowed (action item)) : Within allowed (items.forM action) := by
  induction items with
  | nil => exact pure PUnit.unit
  | cons item items ih => exact (within item).bind fun _ => ih

end Within

/-- Sampling data lines is all that sampling does. -/
theorem within_sampleLines {allowed : Event → Prop}
    (samples : ∀ bit outcome, allowed (.line (.data bit) .sample outcome)) (count : Nat) :
    Within allowed (sampleLines count) := by
  have single (bit : Nat) : Within allowed (sampleLine bit) := by
    intro bench result after ran
    obtain ⟨outcome, went⟩ := sampleLine_went ran
    refine ⟨_, went, fun event member => ?_⟩
    rw [List.mem_singleton.mp member]
    exact samples bit outcome
  have row (count : Nat) : ∀ bit, Within allowed (sampleFrom bit count) := by
    induction count with
    | zero => exact fun bit => Within.pure 0
    | succ count ih =>
      exact fun bit => (single bit).bind fun level => (ih (bit + 1)).bind fun higher => Within.pure _
  exact row (min count 32) 0

/-- Switching data lines is all that a switch does. -/
theorem within_turnAll {allowed : Event → Prop} {direction : Direction}
    (turns : ∀ bit outcome, allowed (.line (.data bit) (.turn direction) outcome)) (count : Nat) :
    Within allowed ((List.range count).forM fun bit => turnLine (.data bit) direction) := by
  refine Within.forM fun bit bench result after ran => ?_
  rcases turnLine_went ran with ⟨-, went⟩ | ⟨-, outcome, -, went⟩
  · refine ⟨_, went, fun event member => ?_⟩
    rw [List.mem_singleton.mp member]
    exact turns bit .done
  · refine ⟨_, went, fun event member => ?_⟩
    rw [List.mem_singleton.mp member]
    exact turns bit outcome

/-- **A switch of the data lines** has nothing to do, or switches them all, or fails and forgets the
direction. -/
theorem switchLines_went {count : Nat} {cached direction now : Direction} {bench after : Bench}
    {result : Except LineFailure Bool}
    (ran : (switchLines count cached direction).run bench = ((now, result), after)) :
    (now = cached ∧ result = .ok false ∧ after = bench ∧
      (cached = direction ∨ direction = .unset)) ∨
    (cached ≠ direction ∧
      (now = direction ∧ result = .ok true ∨ now = .unset ∧ ∃ failure, result = .error failure) ∧
      ∃ events, bench.Went after events ∧
        ∀ event ∈ events, ∃ bit outcome, event = .line (.data bit) (.turn direction) outcome) := by
  unfold switchLines at ran
  by_cases still : cached = direction ∨ direction = .unset
  · rw [if_pos still] at ran
    cases ran
    exact Or.inl ⟨rfl, rfl, rfl, still⟩
  · rw [if_neg still] at ran
    refine Or.inr ⟨fun same => still (Or.inl same), ?_⟩
    cases turned : ((List.range count).forM fun bit => turnLine (.data bit) direction).run.run
        bench with
    | mk outcome middle =>
      have turns : Within
          (fun event => ∃ bit outcome, event = .line (.data bit) (.turn direction) outcome)
          ((List.range count).forM fun bit => turnLine (.data bit) direction) :=
        within_turnAll (fun bit outcome => ⟨bit, outcome, rfl⟩) count
      have went := turns bench outcome middle turned
      rw [StateT.run_bind, turned] at ran
      cases outcome with
      | ok =>
        cases ran
        exact ⟨Or.inl ⟨rfl, rfl⟩, went⟩
      | error failure =>
        cases ran
        exact ⟨Or.inr ⟨rfl, failure, rfl⟩, went⟩

end PanelLink
