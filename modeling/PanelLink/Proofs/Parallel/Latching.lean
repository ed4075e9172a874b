/-
**What latching a word can do.**

* `differs`: whether a data line is driven for a word, and `changes`: the events of the lines driven;
* `driveChanged_went`: the lines are driven in order, up to the first one that refuses;
* **`latchWord_went`**: the four ways in which a latch goes, as `Latched` lists them;
* `turnData_went`: the three ways in which a switch of the data lines goes.
-/

import Mathlib.Logic.Basic
import PanelLink.Proofs.Parallel.Leads

namespace PanelLink.Parallel

/-! ### Driving the data lines -/

/-- Whether a data line is driven for a word, given the word before. -/
def differs (before : Option Nat) (word bit : Nat) : Bool :=
  before.all fun shown => wordBit shown bit != wordBit word bit

theorem differs_some_iff {shown word bit : Nat} :
    differs (some shown) word bit = true ↔ wordBit shown bit ≠ wordBit word bit :=
  bne_iff_ne

/-- A line that is not driven carries its bit of the word before. -/
theorem eq_of_not_differs {shown word bit : Nat} (still : ¬differs (some shown) word bit = true) :
    wordBit shown bit = wordBit word bit :=
  not_ne_iff.mp fun apart => still (differs_some_iff.mpr apart)

/-- The event of a data line that is driven for a word. -/
def driven (word bit : Nat) (outcome : UseOutcome) : Event :=
  .line (.data bit) (.set (wordBit word bit)) outcome

/-- The events of the first data lines, driven for a word. -/
def changes (before : Option Nat) (word count : Nat) : List Event :=
  ((List.range count).filter (differs before word)).map (driven word · .done)

theorem changes_succ (before : Option Nat) (word count : Nat) :
    changes before word (count + 1) = changes before word count ++
      if differs before word count then [driven word count .done] else [] := by
  unfold changes
  rw [List.range_succ, List.filter_append, List.map_append]
  by_cases drives : differs before word count = true
  · rw [if_pos drives, List.filter_cons_of_pos drives]
    rfl
  · rw [if_neg drives, List.filter_cons_of_neg drives]
    rfl

/-- One more line to drive changes what was driven only at that line. -/
theorem drivenBelow_succ {before : Option Nat} {word count bit : Nat}
    (other : bit = count → ¬differs before word count = true) :
    (bit < count ∧ differs before word bit = true) ↔
      (bit < count + 1 ∧ differs before word bit = true) := by
  refine and_congr_left fun drives => ?_
  have apart : bit ≠ count := fun same => other same (same ▸ drives)
  omega

/-- The lines driven take their bits of the word; the others stay as they were. -/
theorem levels_changes (levels : Levels) (before : Option Nat) (word count bit : Nat) :
    levels.afterAll (changes before word count) (.data bit) =
      if bit < count ∧ differs before word bit = true then wordBit word bit
      else levels (.data bit) := by
  induction count with
  | zero => exact (if_neg fun within => Nat.not_lt_zero bit within.1).symm
  | succ count ih =>
    rw [changes_succ, Levels.afterAll_append]
    by_cases drives : differs before word count = true
    · rw [if_pos drives, Levels.afterAll_singleton]
      show (if LineName.data count = .data bit then _ else _) = _
      by_cases same : count = bit
      · subst same
        rw [if_pos rfl, if_pos ⟨Nat.lt_succ_self count, drives⟩]
      · rw [if_neg fun equal => same (LineName.data.inj equal), ih]
        exact if_congr (drivenBelow_succ fun equal => absurd equal.symm same) rfl rfl
    · rw [if_neg drives]
      exact Eq.trans ih (if_congr (drivenBelow_succ fun _ => drives) rfl rfl)

/-- One data line for a word. -/
def driveBit (before : Option Nat) (word bit : Nat) : LineM Unit :=
  if differs before word bit then setLine (.data bit) (wordBit word bit) else pure ()

theorem driveBit_went {before : Option Nat} {word bit : Nat} {bench after : Bench}
    {result : Except LineFailure Unit}
    (ran : (driveBit before word bit).run.run bench = (result, after)) :
    (result = .ok () ∧
      bench.Went after (if differs before word bit then [driven word bit .done] else [])) ∨
    (result = .error .refused ∧ differs before word bit = true ∧
      bench.Went after [driven word bit .refused]) := by
  unfold driveBit at ran
  by_cases drives : differs before word bit = true
  · rw [if_pos drives] at ran ⊢
    rcases setLine_went ran with ⟨rfl, went⟩ | ⟨rfl, went⟩
    · exact Or.inl ⟨rfl, went⟩
    · exact Or.inr ⟨rfl, drives, went⟩
  · rw [if_neg drives] at ran ⊢
    cases ran
    exact Or.inl ⟨rfl, Bench.Went.refl bench⟩

/-- **Driving lines for a word** drives those that differ, in order, up to the first one that
refuses. -/
theorem driveFirst_went {before : Option Nat} {word count : Nat} {bench after : Bench}
    {result : Except LineFailure Unit}
    (ran : ((List.range count).forM (driveBit before word)).run.run bench = (result, after)) :
    (result = .ok () ∧ bench.Went after (changes before word count)) ∨
      (result = .error .refused ∧ ∃ bit, bit < count ∧ differs before word bit = true ∧
        bench.Went after (changes before word bit ++ [driven word bit .refused])) := by
  induction count generalizing result after with
  | zero =>
    cases ran
    exact Or.inl ⟨rfl, Bench.Went.refl bench⟩
  | succ count ih =>
    have last : (List.range (count + 1)).forM (driveBit before word) =
        (List.range count).forM (driveBit before word) >>= fun _ => driveBit before word count := by
      rw [List.range_succ, List.forM_eq_forM, List.forM_append]
      refine congrArg _ (funext fun _ => ?_)
      exact bind_pure (driveBit before word count)
    rw [last] at ran
    cases earlier : ((List.range count).forM (driveBit before word)).run.run bench with
    | mk outcome middle =>
      rcases ih earlier with ⟨rfl, went⟩ | ⟨rfl, bit, inCount, drives, went⟩
      · rw [run_bind_ok earlier] at ran
        rcases driveBit_went ran with ⟨rfl, wentOn⟩ | ⟨rfl, drives, wentOn⟩
        · refine Or.inl ⟨rfl, ?_⟩
          rw [changes_succ]
          exact went.trans wentOn
        · exact Or.inr ⟨rfl, count, Nat.lt_succ_self count, drives, went.trans wentOn⟩
      · rw [run_bind_error earlier] at ran
        cases ran
        exact Or.inr ⟨rfl, bit, Nat.lt_succ_of_lt inCount, drives, went⟩

theorem driveChanged_eq (link : Link) (before : Option Nat) (word : Nat) :
    link.driveChanged before word = (List.range link.lines).forM (driveBit before word) :=
  rfl

/-! ### Latching a word -/

section Run

variable {ε α β : Type}

theorem run_andThen_ok {first : ExceptT ε LinkM α} {next : α → ExceptT ε LinkM β}
    {memory now : Memory} {bench middle : Bench} {value : α}
    (ran : (first.run.run memory).run bench = ((.ok value, now), middle)) :
    ((first >>= next).run.run memory).run bench = ((next value).run.run now).run middle := by
  rw [ExceptT.run_bind, StateT.run_bind, StateT.run_bind, ran]
  rfl

theorem run_andThen_error {first : ExceptT ε LinkM α} {next : α → ExceptT ε LinkM β}
    {memory now : Memory} {bench middle : Bench} {error : ε}
    (ran : (first.run.run memory).run bench = ((.error error, now), middle)) :
    ((first >>= next).run.run memory).run bench = ((.error error, now), middle) := by
  rw [ExceptT.run_bind, StateT.run_bind, StateT.run_bind, ran]
  rfl

end Run

/-- The write strobe set to a level. -/
def strobe (level : Bool) (outcome : UseOutcome) : Event :=
  .line .writeStrobe (.set level) outcome

/-- **How latching a word can go**, from a memory and a bench to an outcome, a memory and a bench. -/
inductive Latched (link : Link) (word : Nat) (memory : Memory) (bench : Bench) :
    Except AccessError Unit → Memory → Bench → Prop
  /-- The write strobe did not go low. -/
  | idle {after : Bench} (went : bench.Went after [strobe false .refused]) :
      Latched link word memory bench (.error (.linkFailed .gpio)) memory after
  /-- A data line refused, and the word before is still remembered. -/
  | torn {after : Bench} (bit : Nat) (inRow : bit < link.lines)
      (drives : differs memory.word word bit = true)
      (went : bench.Went after
        (strobe false .done :: (changes memory.word word bit ++ [driven word bit .refused]))) :
      Latched link word memory bench (.error (.linkFailed .gpio)) memory after
  /-- All data lines were driven, but the write strobe did not go high. -/
  | held {after : Bench} (went : bench.Went after
        (strobe false .done :: (changes memory.word word link.lines ++ [strobe true .refused]))) :
      Latched link word memory bench (.error (.linkFailed .gpio))
        { memory with word := some word } after
  | done {after : Bench} (went : bench.Went after
        (strobe false .done :: (changes memory.word word link.lines ++ [strobe true .done]))) :
      Latched link word memory bench (.ok ()) { memory with word := some word } after

theorem levels_strobe (levels : Levels) (level : Bool) (outcome : UseOutcome) (bit : Nat) :
    levels.after (strobe level outcome) (.data bit) = levels (.data bit) := by
  cases outcome with
  | done =>
    have other : LineName.writeStrobe ≠ .data bit := nofun
    show (if LineName.writeStrobe = .data bit then level else levels (.data bit)) = _
    exact if_neg other
  | refused => rfl
  | stuck => rfl

/-- The data lines while the write strobe of a word goes up. -/
theorem levels_latched (levels : Levels) (before : Option Nat) (word count bit : Nat)
    (outcome : UseOutcome) :
    levels.afterAll (strobe false .done :: (changes before word count ++ [strobe true outcome]))
        (.data bit) =
      if bit < count ∧ differs before word bit = true then wordBit word bit
      else levels (.data bit) := by
  have parts : levels.afterAll
      (strobe false .done :: (changes before word count ++ [strobe true outcome])) =
      ((levels.after (strobe false .done)).afterAll (changes before word count)).after
        (strobe true outcome) := by
    rw [← Levels.afterAll_singleton, ← Levels.afterAll_singleton, ← Levels.afterAll_append,
      ← Levels.afterAll_append]
    rfl
  rw [parts, levels_strobe, levels_changes, levels_strobe]

/-- The data lines after one of them refused. -/
theorem levels_cut (levels : Levels) (before : Option Nat) (word stop bit : Nat) :
    levels.afterAll (strobe false .done :: (changes before word stop ++ [driven word stop .refused]))
        (.data bit) =
      if bit < stop ∧ differs before word bit = true then wordBit word bit
      else levels (.data bit) := by
  have parts : levels.afterAll
      (strobe false .done :: (changes before word stop ++ [driven word stop .refused])) =
      (levels.after (strobe false .done)).afterAll (changes before word stop) := by
    rw [← Levels.afterAll_singleton, ← Levels.afterAll_append, List.singleton_append,
      ← List.cons_append, Levels.afterAll_append]
    rfl
  rw [parts, levels_changes, levels_strobe]

/-- **Latching a word goes in one of these ways.** -/
theorem latchWord_went {link : Link} {word : Nat} {memory now : Memory} {bench after : Bench}
    {result : Except AccessError Unit}
    (ran : ((link.latchWord word).run.run memory).run bench = ((result, now), after)) :
    Latched link word memory bench result now after := by
  unfold Link.latchWord at ran
  cases low : (setLine .writeStrobe false).run.run bench with
  | mk lowResult lowered =>
    have lowRan := run_useLines low memory
    rcases setLine_went low with ⟨rfl, went⟩ | ⟨rfl, went⟩
    · rw [run_andThen_ok lowRan] at ran
      change ((((Link.useLines (link.driveChanged memory.word word)) >>= fun _ =>
        (modify fun memory => { memory with word := some word }) >>= fun _ =>
          Link.useLines (setLine .writeStrobe true)).run.run memory).run lowered) = _ at ran
      cases drive : (link.driveChanged memory.word word).run.run lowered with
      | mk driveResult drawn =>
        have driveRan := run_useLines drive memory
        rw [driveChanged_eq] at drive
        rcases driveFirst_went drive with ⟨rfl, wentOn⟩ | ⟨rfl, bit, inRow, drives, wentOn⟩
        · rw [run_andThen_ok driveRan] at ran
          change ((Link.useLines (setLine .writeStrobe true)).run.run
            { memory with word := some word }).run drawn = _ at ran
          cases high : (setLine .writeStrobe true).run.run drawn with
          | mk highResult raised =>
            rw [run_useLines high] at ran
            rcases setLine_went high with ⟨rfl, wentLast⟩ | ⟨rfl, wentLast⟩
            · cases ran
              exact .done (went.trans (wentOn.trans wentLast))
            · cases ran
              exact .held (went.trans (wentOn.trans wentLast))
        · rw [run_andThen_error driveRan] at ran
          cases ran
          exact .torn bit inRow drives (went.trans wentOn)
    · rw [run_andThen_error lowRan] at ran
      cases ran
      exact .idle went

/-! ### Switching the data lines -/

/-- An event of a data line that is switched. -/
def Turns (event : Event) : Prop :=
  ∃ bit direction outcome, event = .line (.data bit) (.turn direction) outcome

/-- **A switch of the data lines** has nothing to do, or it forgets the word and succeeds only if
the lines are switched. -/
theorem turnData_went {link : Link} {direction : Direction} (known : direction ≠ .unset)
    {memory now : Memory} {bench after : Bench} {result : Except AccessError Unit}
    (ran : ((link.turnData direction).run.run memory).run bench = ((result, now), after)) :
    (result = .ok () ∧ now = memory ∧ after = bench ∧ memory.direction = direction) ∨
      (memory.direction ≠ direction ∧ now.word = none ∧
        (result = .ok () → now.direction = direction) ∧
        ∃ events, bench.Went after events ∧ ∀ event ∈ events, Turns event) := by
  cases switched : (switchLines link.lines memory.direction direction).run bench with
  | mk answer middle =>
    obtain ⟨cached, outcome⟩ := answer
    have remembered : ((get : ExceptT AccessError LinkM Memory).run.run memory).run bench =
        ((.ok memory, memory), bench) := rfl
    have asked : ((liftM (switchLines link.lines memory.direction direction) :
        ExceptT AccessError LinkM (Direction × Except LineFailure Bool)).run.run memory).run bench =
        ((.ok (cached, outcome), memory), middle) := by
      change ((Except.ok ((switchLines link.lines memory.direction direction).run bench).1, memory),
        ((switchLines link.lines memory.direction direction).run bench).2) = _
      rw [switched]
    unfold Link.turnData at ran
    rw [run_andThen_ok remembered, run_andThen_ok asked] at ran
    rcases switchLines_went switched with ⟨rfl, rfl, rfl, still⟩ | ⟨other, ended, events, went, all⟩
    · cases ran
      exact Or.inl ⟨rfl, rfl, rfl, still.resolve_right known⟩
    · have turns (event : Event) (member : event ∈ events) : Turns event := by
        obtain ⟨bit, outcome, rfl⟩ := all event member
        exact ⟨bit, direction, outcome, rfl⟩
      rcases ended with ⟨rfl, rfl⟩ | ⟨rfl, failure, rfl⟩
      · cases ran
        exact Or.inr ⟨other, rfl, fun _ => rfl, events, went, turns⟩
      · cases ran
        exact Or.inr ⟨other, rfl, (fun succeeded => by cases succeeded), events, went, turns⟩

end PanelLink.Parallel
