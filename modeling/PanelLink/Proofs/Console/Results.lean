/-
**What the console shows.**

A console is told at which width to read, to write a line or to read a line. What it shows afterwards
depends on the reads of registers that this makes and on nothing else.

* `Command` and `attendAll`: what a console is told, and the console afterwards;
* `Sample`: a read of a register at a width, and `samples`: those that commands make, in order;
* `shownAfter`: the text of the last value read, unless its read failed or there was none;
* **`result_of_attendAll`**: that is what a console shows, after all commands and whatever its bank does.
-/

import PanelLink.Proofs.Console.Commands
import PanelLink.Spi.Link

namespace PanelLink.Console

inductive Command where
  | readAt (width : Option Width)
  /-- A line to write, whose numbers are put together at a place in memory. -/
  | write (address : Nat) (line : String)
  | read (line : String)
  deriving DecidableEq, Repr

/-- A read of a register. -/
structure Sample where
  /-- The width at which it was read. -/
  width : Width
  reading : Reading AccessError

namespace Sample

/-- The value that was read, as an element of its width holds it. -/
def value (sample : Sample) : Nat :=
  sample.width.element.truncate (sample.reading.values.headD 0)

/-- The text of the value, unless the read failed. -/
def text? (sample : Sample) : Option String :=
  match sample.reading.outcome with
  | .ok () => some (resultText sample.width sample.value)
  | .error _ => none

end Sample

/-- What is shown after these reads. -/
def shownAfter (samples : List Sample) : Option String :=
  samples.getLast?.bind Sample.text?

/-- **The result is that of the last read**: nothing if there was none or it failed, and else a text that
shows its value. -/
def Shows (result : Option String) (samples : List Sample) : Prop :=
  match samples.getLast? with
  | none => result = none
  | some sample =>
    match sample.reading.outcome with
    | .error _ => result = none
    | .ok () => ∃ text, result = some text ∧ ShowsValue text sample.width sample.value

/-- The register that a line lists, if it is parsed as exactly one number. -/
def alone? (line : String) : Option Nat :=
  match parseLine line with
  | .ok (register, []) => some register
  | _ => none

variable {m : Type → Type} [Monad m] (bank : RegisterBank m)

/-- The console after one command. -/
def attend (console : Console) : Command → m Console
  | .readAt width => pure { console with readWidth := width }
  | .write address line => (writeLine bank address line).run >>= fun _ => pure console
  | .read line => Prod.fst <$> readLine console bank line

/-- The console after commands. -/
def attendAll (console : Console) (commands : List Command) : m Console :=
  commands.foldlM (attend bank) console

/-- **The reads of registers that commands make**, for a console that reads at some width. -/
def samples : Option Width → List Command → m (List Sample)
  | _, [] => pure []
  | _, .readAt width :: rest => samples width rest
  | readWidth, .write address line :: rest =>
    (writeLine bank address line).run >>= fun _ => samples readWidth rest
  | readWidth, .read line :: rest =>
    match alone? line with
    | none => samples readWidth rest
    | some register => do
      let console : Console := { readWidth }
      let reading ← bank.read register (console.request bank)
      return ⟨console.effectiveWidth bank, reading⟩ :: (← samples readWidth rest)

/-! ### One command -/

variable {bank} {console : Console} {line : String}

theorem alone?_eq_some_iff {register : Nat} :
    alone? line = some register ↔ parseLine line = .ok (register, []) := by
  unfold alone?
  split <;> simp_all

section Lawful

variable [LawfulMonad m]

/-- A line that is not one number leaves the console as it was, and reads nothing. -/
theorem attend_read_of_none (several : alone? line = none) :
    attend bank console (.read line) = pure console := by
  show Prod.fst <$> readLine console bank line = _
  cases parsed : parseLine line with
  | error error => rw [readLine_of_refused console bank parsed, map_pure]
  | ok numbers =>
    obtain ⟨register, _ | ⟨first, others⟩⟩ := numbers
    · rw [alone?_eq_some_iff.mpr parsed] at several
      cases several
    · rw [readLine_of_several console bank parsed, map_pure]

/-- A line that is one number reads a register, and its result is what was read. -/
theorem attend_read_of_some {register : Nat} (single : alone? line = some register) :
    attend bank console (.read line) =
      bank.read register (console.request bank) >>= fun reading =>
        pure { console with result := Sample.text? ⟨console.effectiveWidth bank, reading⟩ } := by
  show Prod.fst <$> readLine console bank line = _
  rw [readLine_of_single console bank (alone?_eq_some_iff.mp single), map_bind]
  refine bind_congr fun reading => ?_
  rw [map_pure]
  rfl

/-- **It ends as the read of the register ends**, so there is always room for the result. -/
theorem outcome_readLine_of_some {register : Nat} (single : alone? line = some register) :
    Prod.snd <$> readLine console bank line =
      Reading.outcome <$> bank.read register (console.request bank) := by
  rw [readLine_of_single console bank (alone?_eq_some_iff.mp single), map_bind,
    ← bind_pure_comp]
  refine bind_congr fun reading => ?_
  rw [map_pure]

/-- **A command that reads no register** leaves the result as it was. -/
theorem result_attend {command : Command}
    (other : ∀ line, command = .read line → alone? line = none) :
    Console.result <$> attend bank console command =
      (fun _ => console.result) <$> attend bank console command := by
  cases command with
  | readAt width => simp [attend]
  | write line => simp [attend]
  | read line => simp [attend_read_of_none (other line rfl)]

end Lawful

/-! ### All commands -/

theorem showsValue_sample (sample : Sample) :
    ShowsValue (resultText sample.width sample.value) sample.width sample.value :=
  showsValue_resultText (Element.truncate_lt _ _)

theorem shows_shownAfter (samples : List Sample) : Shows (shownAfter samples) samples := by
  unfold Shows shownAfter
  cases samples.getLast? with
  | none => rfl
  | some sample =>
    cases outcome : sample.reading.outcome with
    | error error => simp only [outcome, Option.bind_some, Sample.text?]
    | ok _ =>
      have text : sample.text? = some (resultText sample.width sample.value) := by
        simp only [Sample.text?, outcome]
      simp only [outcome]
      exact ⟨_, text, showsValue_sample sample⟩

/-- After one more read in front, the result of the others or else of that read is shown. -/
theorem shown_cons (start : Option String) (sample : Sample) (later : List Sample) :
    ((sample :: later).getLast?.map Sample.text?).getD start =
      (later.getLast?.map Sample.text?).getD sample.text? := by
  rw [List.getLast?_cons, Option.map_some, Option.getD_some, Option.getD_map]

variable (bank) [LawfulMonad m]

/-- From any console on, the result of the last read or else the result so far is shown. -/
theorem result_of_attendAll_from (commands : List Command) (console : Console) :
    Console.result <$> attendAll bank console commands =
      (fun samples => (samples.getLast?.map Sample.text?).getD console.result) <$>
        samples bank console.readWidth commands := by
  induction commands generalizing console with
  | nil => simp [attendAll, samples]
  | cons command rest ih =>
    have after : attendAll bank console (command :: rest) =
        attend bank console command >>= fun console => attendAll bank console rest :=
      List.foldlM_cons
    rw [after, map_bind]
    cases command with
    | readAt width =>
      rw [attend, pure_bind, ih]
      rfl
    | write line =>
      rw [attend, bind_assoc, samples, map_bind]
      refine bind_congr fun _ => ?_
      rw [pure_bind, ih]
    | read line =>
      rw [samples]
      cases single : alone? line with
      | none =>
        rw [attend_read_of_none single, pure_bind, ih]
      | some register =>
        rw [attend_read_of_some single, bind_assoc]
        show _ = _ <$> (bank.read register (console.request bank) >>= _)
        rw [map_bind]
        refine bind_congr fun reading => ?_
        simp only [pure_bind, ih, map_bind, map_pure, shown_cons]
        exact (bind_pure_comp _ _).symm

/-- **What a console shows after any commands.** On any bank over any channel it is the result of the
last read of a register that the commands make: nothing if they make none or it failed, and else a text
that shows the value read, for which there is room and which a line may consist of. Every command that
reads no register leaves the result as it was, and one that does ends as its read ends. -/
theorem result_of_attendAll (commands : List Command) :
    Console.result <$> attendAll bank {} commands = shownAfter <$> samples bank none commands ∧
      (∀ samples, Shows (shownAfter samples) samples) ∧
      (∀ (console : Console) (command : Command),
        (∀ line, command = .read line → alone? line = none) →
          Console.result <$> attend bank console command =
            (fun _ => console.result) <$> attend bank console command) ∧
      ∀ (console : Console) (line : String) (register : Nat), alone? line = some register →
        Prod.snd <$> readLine console bank line =
          Reading.outcome <$> bank.read register (console.request bank) := by
  refine ⟨?_, shows_shownAfter, fun console command => result_attend,
    fun console line register => outcome_readLine_of_some⟩
  rw [result_of_attendAll_from]
  refine congrArg (· <$> samples bank none commands) (funext fun samples => ?_)
  show (samples.getLast?.map Sample.text?).getD none = samples.getLast?.bind Sample.text?
  cases samples.getLast? <;> rfl

/-- A bank of 8 bits over four wires. -/
def fourWireBank : RegisterBank BenchM where
  channel := Spi.Link.channel
    { mode := .fourWire, selectorLine := .line .selector, reset := .absent, config := {}
      mask := .bytesOnly, clock := 10000000, canMap := false
      handleOf := Slice.inPlace, layout := .paged }
  config := { readable := true }

/-- Of two reads the second is shown, also after a line that is no read; at another width the link does
not read, and nothing is shown. -/
theorem result_of_attendAll_twoReads :
    let bench : Bench := { incoming := [0x9C, 0x0E] }
    let commands : List Command := [.write 0 "2c 1", .read "0a", .read "0X0A", .read "0a 0b"]
    ((Console.result <$> attendAll fourWireBank {} commands).run bench).1 = some "0e\n" ∧
      ((Console.result <$> attendAll fourWireBank {}
        (commands ++ [.readAt (some .bits16), .read "0a"])).run bench).1 = none := by
  intro bench commands
  rw [(result_of_attendAll fourWireBank commands).1, (result_of_attendAll fourWireBank _).1]
  exact ⟨by decide +kernel, by decide +kernel⟩

end PanelLink.Console
