/-
**Conditions carried through the actions of a parallel link.**

A condition speaks of what the link remembers and of the bench. An access may fail at any use of a
line, so an action leads to one condition if it succeeds and to another one if it fails.

* `Leads`: what holds after an action if something holds before it;
* `Leads.bind`, `Leads.andThen`, `Leads.forM`: conditions follow the structure of the action;
* `leads_whileSelected`: a phase keeps what its two control lines do not touch;
* **`Tracks.leads_write`**: a condition that every latched word carries on is carried through a
  whole write.
-/

import PanelLink.Parallel
import PanelLink.Proofs.Bench.LineUses

namespace PanelLink.Parallel

variable {ε α β : Type}

/-- What may hold of the memory of a link and of its bench. -/
abbrev Condition :=
  Memory → Bench → Prop

/-- **What the action leads to**: from the first condition it ends in the second one, which may
depend on the result. -/
def Leads (before : Condition) (action : LinkM α) (after : α → Condition) : Prop :=
  ∀ memory bench, before memory bench →
    after ((action.run memory).run bench).1.1 ((action.run memory).run bench).1.2
      ((action.run memory).run bench).2

/-- One condition for a success and another one for a failure. -/
def Ends (done : α → Condition) (failed : Condition) : Except ε α → Condition
  | .ok value => done value
  | .error _ => failed

theorem ends_same {condition : Condition} {memory : Memory} {bench : Bench}
    (outcome : Except ε α) :
    Ends (fun _ => condition) condition outcome memory bench ↔ condition memory bench := by
  cases outcome <;> exact Iff.rfl

namespace Leads

/-- What an action leads to, read off its runs. -/
theorem of_run {before : Condition} {after : α → Condition} {action : LinkM α}
    (ends : ∀ {memory now bench later value}, before memory bench →
      (action.run memory).run bench = ((value, now), later) → after value now later) :
    Leads before action after :=
  fun _ _ holds => ends holds rfl

theorem bind {before : Condition} {middle : α → Condition} {after : β → Condition}
    {first : LinkM α} {next : α → LinkM β} (leads : Leads before first middle)
    (leadsNext : ∀ value, Leads (middle value) (next value) after) :
    Leads before (first >>= next) after :=
  fun memory bench holds => leadsNext _ _ _ (leads memory bench holds)

theorem weaken {before stronger : Condition} {after weaker : α → Condition} {action : LinkM α}
    (leads : Leads before action after) (enough : ∀ memory bench, stronger memory bench →
      before memory bench)
    (follows : ∀ value memory bench, after value memory bench → weaker value memory bench) :
    Leads stronger action weaker :=
  fun memory bench holds => follows _ _ _ (leads memory bench (enough memory bench holds))

/-- Of two actions in a row the second one runs if the first one succeeds. -/
theorem andThen {before : Condition} {middle : α → Condition} {done : β → Condition}
    {failed : Condition} {first : ExceptT ε LinkM α} {next : α → ExceptT ε LinkM β}
    (leads : Leads before first.run (Ends middle failed))
    (leadsNext : ∀ value, Leads (middle value) (next value).run (Ends done failed)) :
    Leads before (first >>= next).run (Ends done failed) := by
  rw [ExceptT.run_bind]
  refine leads.bind fun outcome => ?_
  cases outcome with
  | ok value => exact leadsNext value
  | error error => exact fun _ _ holds => holds

/-- An action for each item, from a condition on all items to the condition on none. -/
theorem forM {ι : Type} (state : List ι → Condition) {failed : Condition}
    {action : ι → ExceptT ε LinkM PUnit}
    (leads : ∀ item rest, Leads (state (item :: rest)) (action item).run
      (Ends (fun _ => state rest) failed)) (items rest : List ι) :
    Leads (state (items ++ rest)) (items.forM action).run (Ends (fun _ => state rest) failed) := by
  induction items with
  | nil => exact fun _ _ holds => holds
  | cons item items ih => exact (leads item (items ++ rest)).andThen fun _ => ih

/-- An action that cannot fail, as part of one that can. -/
theorem lift {before : Condition} {after : α → Condition} {failed : Condition} {action : LinkM α}
    (leads : Leads before action after) :
    Leads before (ExceptT.lift action : ExceptT ε LinkM α).run (Ends after failed) :=
  fun memory bench holds => leads memory bench holds

end Leads

/-! ### Line uses that a condition does not notice -/

/-- The condition outlasts allowed events. -/
def Spared (allowed : Event → Prop) (condition : Condition) : Prop :=
  ∀ memory bench after events, bench.Went after events → (∀ event ∈ events, allowed event) →
    condition memory bench → condition memory after

/-- A use of lines leaves the memory of the link alone. -/
theorem run_useLines {action : LineM α} {bench after : Bench} {result : Except LineFailure α}
    (ran : action.run.run bench = (result, after)) (memory : Memory) :
    ((Link.useLines action).run.run memory).run bench =
      ((result.mapError fun _ => .linkFailed .gpio, memory), after) :=
  run_use ran

/-- A use of lines that leaves allowed events only. -/
theorem leads_useLines {allowed : Event → Prop} {before done failed : Condition}
    (sparedDone : Spared allowed done) (sparedFailed : Spared allowed failed)
    (begins : ∀ memory bench, before memory bench → done memory bench)
    (fails : ∀ memory bench, before memory bench → failed memory bench) {action : LineM α}
    (within : Within allowed action) :
    Leads before (Link.useLines action).run (Ends (fun _ => done) failed) := by
  intro memory bench holds
  cases ran : action.run.run bench with
  | mk result after =>
    obtain ⟨events, went, all⟩ := within bench result after ran
    rw [run_useLines ran]
    cases result with
    | ok value => exact sparedDone memory bench after events went all (begins memory bench holds)
    | error error => exact sparedFailed memory bench after events went all (fails memory bench holds)

/-- An event of the lines that frame a phase. -/
def Frames (event : Event) : Prop :=
  ∃ name level outcome, event = .line name (.set level) outcome ∧
    (name = .chipSelect ∨ name = .selector)

theorem within_setLine {allowed : Event → Prop} {name : LineName} {level : Bool}
    (sets : ∀ outcome, allowed (.line name (.set level) outcome)) :
    Within allowed (setLine name level) := by
  intro bench result after ran
  rcases setLine_went ran with ⟨-, went⟩ | ⟨-, went⟩
  · exact ⟨_, went, fun event member => List.mem_singleton.mp member ▸ sets .done⟩
  · exact ⟨_, went, fun event member => List.mem_singleton.mp member ▸ sets .refused⟩

/-- **A phase between the edges of the chip select** leads where its body leads. -/
theorem leads_whileSelected (link : Link) (selector : Selector) {ready done failed : Condition}
    (sparedReady : Spared Frames ready) (sparedDone : Spared Frames done)
    (sparedFailed : Spared Frames failed)
    (readyFails : ∀ memory bench, ready memory bench → failed memory bench)
    (doneFails : ∀ memory bench, done memory bench → failed memory bench)
    {body : LinkM (Reading AccessError)}
    (leads : Leads ready body fun reading => Ends (fun _ => done) failed reading.outcome) :
    Leads ready (link.whileSelected selector body)
      fun reading => Ends (fun _ => done) failed reading.outcome := by
  have chipSelect (active : Bool) {condition : Condition} (spared : Spared Frames condition)
      (fails : ∀ memory bench, condition memory bench → failed memory bench) :
      Leads condition (link.driveChipSelect active).run (Ends (fun _ => condition) failed) := by
    unfold Link.driveChipSelect
    split
    · exact leads_useLines spared sparedFailed (fun _ _ => id) fails
        (within_setLine fun outcome => ⟨_, _, outcome, rfl, Or.inl rfl⟩)
    · exact fun _ _ holds => holds
  have selects : Leads ready (Link.useLines (setLine .selector selector.isData)).run
      (Ends (fun _ => ready) failed) :=
    leads_useLines sparedReady sparedFailed (fun _ _ => id) readyFails
      (within_setLine fun outcome => ⟨_, _, outcome, rfl, Or.inr rfl⟩)
  have release (reading : Reading AccessError) :
      Leads (Ends (fun _ => done) failed reading.outcome)
        ((link.driveChipSelect false).run >>= fun released => pure (reading.followedBy released))
        fun reading => Ends (fun _ => done) failed reading.outcome := by
    obtain ⟨values, outcome⟩ := reading
    cases outcome with
    | ok =>
      refine (chipSelect false sparedDone doneFails).bind fun released => ?_
      cases released with
      | ok => exact fun _ _ holds => holds
      | error error => exact fun _ _ holds => holds
    | error error =>
      refine (chipSelect false sparedFailed fun _ _ => id).bind fun released => ?_
      cases released with
      | ok => exact fun _ _ holds => holds
      | error later => exact fun _ _ holds => holds
  unfold Link.whileSelected
  refine (chipSelect true sparedReady readyFails).bind fun chosen => ?_
  cases chosen with
  | error error => exact fun _ _ holds => holds
  | ok =>
    refine selects.bind fun selected => ?_
    cases selected with
    | error error => exact release (Reading.failed error)
    | ok => exact leads.bind release

/-! ### Writes -/

namespace Link

/-- The bus words of a phase, in the order in which they are latched. -/
def phaseWords (link : Link) (words : Words) (width : Width) : List Nat :=
  match piecesPerElement width link.lines with
  | .ok count => words.values.flatMap (piecesOf count link.lines)
  | .error _ => []

/-- The bus words of a write: those of its register number and then those of its payload. -/
def writeWords (link : Link) (context : Context) (register : Nat)
    (request : Option WriteRequest) : List Nat :=
  link.phaseWords (registerWord register context.width) context.width ++
    match WriteRequest.nonempty? request with
    | some present => link.phaseWords present.words (present.effectiveWidth context.width)
    | none => []

end Link

/-- The condition with the data lines switched to outputs. -/
def Condition.driving (condition : Condition) : Condition :=
  fun memory bench => condition memory bench ∧ memory.direction = .output

/-- **A condition on the words that are still to be latched**, carried on by every step of a write. -/
structure Tracks (link : Link) (state : List Nat → Condition) (failed : Condition) : Prop where
  /-- The lines that frame a phase do not matter. -/
  spared : ∀ words, Spared Frames (state words)
  sparedFailed : Spared Frames failed
  /-- A write may end at any word. -/
  fails : ∀ words memory bench, state words memory bench → failed memory bench
  turn : ∀ words, Leads (state words) (link.turnData .output).run
    (Ends (fun _ => (state words).driving) failed)
  latch : ∀ word words, Leads (state (word :: words)).driving (link.latchWord word).run
    (Ends (fun _ => (state words).driving) failed)

namespace Tracks

variable {link : Link} {state : List Nat → Condition} {failed : Condition}

theorem spared_driving (tracks : Tracks link state failed) (words : List Nat) :
    Spared Frames (state words).driving := by
  intro memory bench after events went all holds
  exact ⟨tracks.spared words memory bench after events went all holds.1, holds.2⟩

theorem leads_sendPhase (tracks : Tracks link state failed) (selector : Selector) (words : Words)
    (width : Width) (rest : List Nat) :
    Leads (state (link.phaseWords words width ++ rest))
      (link.sendPhase selector words width).run (Ends (fun _ => state rest) failed) := by
  unfold Link.sendPhase Link.phaseWords
  cases pieces : piecesPerElement width link.lines with
  | error misuse => exact fun memory bench holds => tracks.fails _ memory bench holds
  | ok count =>
    let pieceWords := words.values.flatMap (piecesOf count link.lines)
    have latches : Leads (state (pieceWords ++ rest)).driving (pieceWords.forM link.latchWord).run
        (Ends (fun _ => (state rest).driving) failed) :=
      Leads.forM (fun words => (state words).driving) tracks.latch pieceWords rest
    have body : Leads (state (pieceWords ++ rest)).driving
        ((pieceWords.forM link.latchWord).run >>= fun outcome =>
          pure (⟨[], outcome⟩ : Reading AccessError))
        fun reading => Ends (fun _ => (state rest).driving) failed reading.outcome :=
      latches.bind fun outcome => fun _ _ holds => holds
    have phase : Leads (state (pieceWords ++ rest)).driving
        (link.whileSelected selector ((pieceWords.forM link.latchWord).run >>= fun outcome =>
          pure (⟨[], outcome⟩ : Reading AccessError)))
        fun reading => Ends (fun _ => (state rest).driving) failed reading.outcome :=
      leads_whileSelected link selector (tracks.spared_driving _) (tracks.spared_driving rest)
        tracks.sparedFailed (fun memory bench holds => tracks.fails _ memory bench holds.1)
        (fun memory bench holds => tracks.fails rest memory bench holds.1) body
    refine (tracks.turn (pieceWords ++ rest)).andThen fun _ => phase.lift.andThen fun reading => ?_
    obtain ⟨values, outcome⟩ := reading
    cases outcome with
    | ok => exact fun memory bench holds => holds.1
    | error error => exact fun memory bench holds => holds

/-- **A write** carries the condition on all its bus words to the condition on none. -/
theorem leads_write (tracks : Tracks link state failed) (context : Context) (register : Nat)
    (request : Option WriteRequest) (rest : List Nat) :
    Leads (state (link.writeWords context register request ++ rest))
      (link.write context register request).run (Ends (fun _ => state rest) failed) := by
  unfold Link.writeWords Link.write
  rw [List.append_assoc]
  refine (tracks.leads_sendPhase _ _ _ _).andThen fun _ => ?_
  cases WriteRequest.nonempty? request with
  | none => exact fun memory bench holds => holds
  | some present => exact tracks.leads_sendPhase _ _ _ _

end Tracks

end PanelLink.Parallel
