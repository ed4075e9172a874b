/-
**The chip select of a parallel link, whichever uses of lines fail.**

Every phase of an access is framed by the chip select, and data lines are switched before and after
phases only. An access ends at the first use of a line that fails, but for what it gives back then: the
chip select and the direction of the data lines.

* `Noted`: how far the link is with the chip select, and which fault was the first;
* `leads_phase`: a phase, from the chip select set low to its being released on every path;
* `outside_write`, `leads_read_noted`: a write and a read, and `settled_perform`: any access;
* **`chip_select_brackets`**: what this says of the events of an access and of its error.
-/

import PanelLink.Proofs.Bench.Brackets
import PanelLink.Proofs.Parallel.Observed

namespace PanelLink

/-- The fault of a line that an error tells of. -/
def AccessError.fault? : AccessError → Option LinkFault
  | linkFailed fault => some fault
  | _ => none

namespace Parallel

variable {α β : Type}

/-! ### Conditions that depend on the error -/

/-- One condition for a success, and one for each error. -/
def EndsWith (done : Condition) (failed : AccessError → Condition) :
    Except AccessError α → Condition
  | .ok _ => done
  | .error error => failed error

/-- Of two actions in a row the second one runs if the first one succeeds, and otherwise the error
stands. -/
theorem Leads.followed {before middle done : Condition} {stopped failed : AccessError → Condition}
    {first : ExceptT AccessError LinkM α} {next : α → ExceptT AccessError LinkM β}
    (leads : Leads before first.run (EndsWith middle stopped))
    (stops : ∀ error memory bench, stopped error memory bench → failed error memory bench)
    (leadsNext : ∀ value, Leads middle (next value).run (EndsWith done failed)) :
    Leads before (first >>= next).run (EndsWith done failed) := by
  rw [ExceptT.run_bind]
  refine leads.bind fun outcome => ?_
  cases outcome with
  | ok value => exact leadsNext value
  | error error => exact fun memory bench holds => stops error memory bench holds

theorem EndsWith.weaken {done : Condition} {stopped failed : AccessError → Condition}
    (stops : ∀ error memory bench, stopped error memory bench → failed error memory bench)
    {outcome : Except AccessError α} {memory : Memory} {bench : Bench}
    (ends : EndsWith done stopped outcome memory bench) :
    EndsWith done failed outcome memory bench := by
  cases outcome with
  | ok => exact ends
  | error error => exact stops error memory bench ends

/-- The outcome of a reading, in place of the reading. -/
theorem Leads.outcome {before : Condition} {after : Except AccessError Unit → Condition}
    {action : LinkM (Reading AccessError)}
    (leads : Leads before action fun reading => after reading.outcome) :
    Leads before ((liftM action : ExceptT AccessError LinkM (Reading AccessError)) >>= fun reading =>
      ExceptT.mk (pure reading.outcome)).run after :=
  fun memory bench holds => leads memory bench holds

/-! ### How far an access is -/

/-- **Since an access began**, the events led to this state of the chip select, and this was the first
fault. -/
def Noted (start : Bench) (state : ChipState) (fault : Option LinkFault) : Condition :=
  fun _ bench => ∃ events, start.Ran bench events ∧ ChipState.Runs .free events state ∧
    events.findSome? Event.lineFault? = fault

theorem Noted.after {start : Bench} {state last : ChipState} {fault : Option LinkFault}
    {memory : Memory} {bench later : Bench} {events : List Event}
    (noted : Noted start state fault memory bench) (now : Memory) (ran : bench.Ran later events)
    (runs : ChipState.Runs state events last) :
    Noted start last (fault.or (events.findSome? Event.lineFault?)) now later := by
  obtain ⟨earlier, begun, runsTo, rfl⟩ := noted
  exact ⟨earlier ++ events, begun.trans ran, runsTo.append runs, List.findSome?_append⟩

/-- A use of a line failed first, and the access is in this state of the chip select. -/
def Broken (start : Bench) (state : ChipState) (error : AccessError) : Condition :=
  fun memory bench => ∃ fault, error = .linkFailed fault ∧ Noted start state (some fault) memory bench

/-- A phase has ended with an error. -/
def PhaseFailed (start : Bench) (error : AccessError) : Condition :=
  fun memory bench => ∃ state, state ≠ .chosen ∧ Broken start state error memory bench

/-- An access has ended outside of its phases, and its outcome tells of the first fault. -/
def Settled (start : Bench) (outcome : Except AccessError α) : Condition :=
  fun memory bench => ∃ state, state ≠ .chosen ∧
    Noted start state (faultTold AccessError.fault? outcome) memory bench

/-- An access has ended with an error, which may be that of a line. -/
def AccessFailed (start : Bench) (error : AccessError) : Condition :=
  Settled start (.error error : Except AccessError Unit)

theorem PhaseFailed.access {start : Bench} {error : AccessError} {memory : Memory} {bench : Bench}
    (failed : PhaseFailed start error memory bench) : AccessFailed start error memory bench := by
  obtain ⟨state, outside, fault, rfl, noted⟩ := failed
  exact ⟨state, outside, noted⟩

theorem EndsWith.settled {start : Bench} {outcome : Except AccessError α} {memory : Memory}
    {bench : Bench}
    (ends : EndsWith (Noted start .free none) (AccessFailed start) outcome memory bench) :
    Settled start outcome memory bench := by
  cases outcome with
  | ok => exact ⟨.free, nofun, ends⟩
  | error error => exact ends

/-- **What is given back on every path**: the step leads to another state of the chip select whatever
came before it, and if it fails this is its fault. -/
def Restores (start : Bench) (state last : ChipState) (own : LinkFault)
    (action : ExceptT AccessError LinkM Unit) : Prop :=
  ∀ fault, Leads (Noted start state fault) action.run fun outcome memory bench =>
    outcome = .ok () ∧ Noted start last fault memory bench ∨
      outcome = .error (.linkFailed own) ∧ Noted start last (fault.or (some own)) memory bench

/-- Of two errors the one that came before what is given back stands, and it is that of the first
fault. -/
theorem Restores.followedBy {start : Bench} {state last : ChipState} {own : LinkFault}
    {action : ExceptT AccessError LinkM Unit} (restores : Restores start state last own action)
    (reading : Reading AccessError) :
    Leads (EndsWith (Noted start state none) (Broken start state) reading.outcome)
      (action.run >>= fun ended => pure (reading.followedBy ended)) fun reading =>
        EndsWith (Noted start last none) (Broken start last) reading.outcome := by
  obtain ⟨values, outcome⟩ := reading
  cases outcome with
  | ok =>
    refine (restores none).bind fun ended => ?_
    rintro memory bench (⟨rfl, noted⟩ | ⟨rfl, noted⟩)
    · exact noted
    · exact ⟨own, rfl, noted⟩
  | error error =>
    rintro memory bench ⟨fault, rfl, noted⟩
    have ends : Leads (Noted start state (some fault))
        (action.run >>= fun ended => pure
          ((⟨values, .error (.linkFailed fault)⟩ : Reading AccessError).followedBy ended))
        fun reading => EndsWith (Noted start last none) (Broken start last) reading.outcome := by
      refine (restores (some fault)).bind fun ended => ?_
      rintro memory bench (⟨-, noted⟩ | ⟨-, noted⟩) <;> exact ⟨fault, rfl, noted⟩
    exact ends memory bench noted

/-! ### Within a phase -/

/-- **The action keeps within a phase**: it stops at the first use of a line that fails. -/
def Inside (start : Bench) (action : ExceptT AccessError LinkM α) : Prop :=
  Leads (Noted start .chosen none) action.run
    (EndsWith (Noted start .chosen none) (Broken start .chosen))

namespace Inside

variable {start : Bench}

theorem done (value : α) : Inside start (pure value) :=
  fun _ _ noted => noted

theorem andThen {first : ExceptT AccessError LinkM α} {next : α → ExceptT AccessError LinkM β}
    (inside : Inside start first) (insideNext : ∀ value, Inside start (next value)) :
    Inside start (first >>= next) :=
  Leads.followed inside (fun _ _ _ => id) insideNext

theorem forM {ι : Type} {action : ι → ExceptT AccessError LinkM PUnit}
    (inside : ∀ item, Inside start (action item)) (items : List ι) :
    Inside start (items.forM action) := by
  induction items with
  | nil => exact done _
  | cons item items ih => exact (inside item).andThen fun _ => ih

theorem peek {next : Memory → ExceptT AccessError LinkM β}
    (inside : ∀ memory, Inside start (next memory)) : Inside start (get >>= next) :=
  fun memory bench noted => inside memory memory bench noted

theorem remember (change : Memory → Memory) :
    Inside start (modify change : ExceptT AccessError LinkM PUnit) :=
  fun _ _ noted => noted

/-- Uses of lines that belong to a phase. -/
theorem uses {action : LineM α} (stops : Stops (ChipState.Step .chosen · .chosen) .gpio action) :
    Inside start (Link.useLines action) := by
  intro memory bench noted
  match one : action.run.run bench with
  | (result, after) =>
    obtain ⟨events, ran, inside, told⟩ := stops bench result after one
    have now := noted.after memory ran (.stay inside)
    rw [told] at now
    rw [run_useLines one]
    cases result with
    | ok value => exact now
    | error error => exact ⟨.gpio, rfl, now⟩

theorem set (name : LineName) (other : name ≠ .chipSelect) (level : Bool) :
    Inside start (Link.useLines (setLine name level)) :=
  uses (Stops.set fun _ => .inside (Event.inner_set name other))

theorem latchWord (link : Link) (word : Nat) : Inside start (link.latchWord word) := by
  have drives (before : Option Nat) :
      Stops (ChipState.Step .chosen · .chosen) .gpio (link.driveChanged before word) := by
    refine Stops.forM (fun bit => ?_) _
    split
    · exact Stops.set fun _ => .inside (Event.inner_set (.data bit) nofun)
    · exact Stops.done ()
  have strobes (level : Bool) : Inside start (Link.useLines (setLine .writeStrobe level)) :=
    set .writeStrobe nofun level
  unfold Link.latchWord
  exact (strobes false).andThen fun _ => peek fun memory =>
    (uses (drives memory.word)).andThen fun _ => (remember _).andThen fun _ => strobes true

theorem readWord (link : Link) : Inside start link.readWord := by
  have strobes (level : Bool) : Inside start (Link.useLines (setLine .readStrobe level)) :=
    set .readStrobe nofun level
  unfold Link.readWord
  exact (strobes false).andThen fun _ =>
    (uses (Stops.sample (fun _ _ => .inside ⟨rfl, rfl⟩) link.lines)).andThen fun word =>
      (strobes true).andThen fun _ => done word

theorem readWords (link : Link) (count : Nat) : Inside start (link.readWords count) := by
  induction count with
  | zero => exact done _
  | succ count ih => exact (readWord link).andThen fun word => ih.andThen fun words => done _

end Inside

/-! ### A phase -/

/-- A reading within a phase. -/
def ReadsInside (start : Bench) (body : LinkM (Reading AccessError)) : Prop :=
  Leads (Noted start .chosen none) body fun reading =>
    EndsWith (Noted start .chosen none) (Broken start .chosen) reading.outcome

section Phase

variable {start : Bench}

theorem Inside.reads {action : ExceptT AccessError LinkM Unit} (inside : Inside start action) :
    ReadsInside start (action.run >>= fun outcome => pure ⟨[], outcome⟩) :=
  Leads.bind inside fun _ _ _ holds => holds

theorem readsInside_readElements (link : Link) (pieces count : Nat) :
    ReadsInside start (link.readElements pieces count) := by
  induction count with
  | zero => exact fun _ _ noted => noted
  | succ count ih =>
    unfold Link.readElements
    refine Leads.bind (Inside.readWords link pieces) fun outcome => ?_
    cases outcome with
    | error error => exact fun _ _ broken => broken
    | ok words => exact Leads.bind ih fun reading _ _ holds => holds

variable {link : Link} (wired : link.hasChipSelect = true)

include wired

/-- **A use of the chip select** leads to one state if it is done and to another one if it fails. -/
theorem leads_driveChipSelect {state last stopped : ChipState} {active : Bool}
    (done : ChipState.Step state (.line .chipSelect (.set !active) .done) last)
    (failed : ∀ outcome, outcome ≠ .done →
      ChipState.Step state (.line .chipSelect (.set !active) outcome) stopped)
    (fault : Option LinkFault) :
    Leads (Noted start state fault) (link.driveChipSelect active).run fun outcome memory bench =>
      outcome = .ok () ∧ Noted start last fault memory bench ∨
        outcome = .error (.linkFailed .gpio) ∧
          Noted start stopped (fault.or (some .gpio)) memory bench := by
  intro memory bench noted
  rw [Link.driveChipSelect, if_pos wired]
  match one : (setLine .chipSelect (!active)).run.run bench with
  | (result, after) =>
    rw [run_useLines one]
    rcases usesOnce_setLine .chipSelect (!active) bench result after one with
      ⟨rfl, ran⟩ | ⟨rfl, -, outcome, broken, ran⟩
    · have now := noted.after memory ran (.one done)
      exact .inl ⟨rfl, (Option.or_none (o := fault)) ▸ now⟩
    · have now := noted.after memory ran (.one (failed outcome broken))
      rw [List.findSome?_singleton, Event.lineFault?_set broken] at now
      exact .inr ⟨rfl, now⟩

/-- The chip select is set low, or that fails. -/
theorem leads_choose : Leads (Noted start .free none) (link.driveChipSelect true).run
    (EndsWith (Noted start .chosen none) (Broken start .refused)) := by
  refine (leads_driveChipSelect wired .choose (fun _ => .refuse) none).weaken (fun _ _ => id) ?_
  rintro chosen memory bench (⟨rfl, noted⟩ | ⟨rfl, noted⟩)
  · exact noted
  · exact ⟨.gpio, rfl, noted⟩

/-- The chip select is set high, or that fails. -/
theorem restores_chipSelect : Restores start .chosen .free .gpio (link.driveChipSelect false) :=
  leads_driveChipSelect wired (.release .done) fun outcome _ => .release outcome

/-- **A phase**: the chip select is set low before it and released after it, on every path, and of two
errors the one of the phase stands. -/
theorem leads_phase (selector : Selector) {body : LinkM (Reading AccessError)}
    (inside : ReadsInside start body) :
    Leads (Noted start .free none) (link.whileSelected selector body) fun reading =>
      EndsWith (Noted start .free none) (PhaseFailed start) reading.outcome := by
  have release (reading : Reading AccessError) :
      Leads (EndsWith (Noted start .chosen none) (Broken start .chosen) reading.outcome)
        ((link.driveChipSelect false).run >>= fun released => pure (reading.followedBy released))
        fun reading => EndsWith (Noted start .free none) (PhaseFailed start) reading.outcome :=
    ((restores_chipSelect wired).followedBy reading).weaken (fun _ _ => id) fun reading _ _ =>
      EndsWith.weaken fun error _ _ broken => ⟨.free, nofun, broken⟩
  unfold Link.whileSelected
  refine (leads_choose wired).bind fun chosen => ?_
  cases chosen with
  | error error => exact fun _ _ broken => ⟨.refused, nofun, broken⟩
  | ok =>
    refine Leads.bind (Inside.set .selector nofun selector.isData) fun selected => ?_
    cases selected with
    | error error => exact release (Reading.failed error)
    | ok => exact inside.bind release

end Phase

/-! ### An access -/

section Access

variable {start : Bench} {link : Link}

/-- **Switching the data lines** outside a phase. -/
theorem restores_turnData (link : Link) {state : ChipState} (outside : state ≠ .chosen)
    (direction : Direction) :
    Restores start state state .directionSwitch (link.turnData direction) := by
  refine fun fault => Leads.of_run fun {memory now bench later turned} noted ran => ?_
  match asked : (switchLines link.lines memory.direction direction).run bench with
  | ((cached, result), after) =>
    obtain ⟨events, went, all, told⟩ := switchLines_stops (ChipState.Step state · state)
      (fun bit outcome => .turn outside bit direction outcome) asked
    have next := noted.after now went (.stay all)
    rw [told] at next
    unfold Link.turnData at ran
    rw [run_get_then, run_lift_then asked] at ran
    match result with
    | .ok changed =>
      have done : turned = .ok () ∧ later = after := by
        cases changed <;> cases ran <;> exact ⟨rfl, rfl⟩
      obtain ⟨rfl, rfl⟩ := done
      exact .inl ⟨rfl, (Option.or_none (o := fault)) ▸ next⟩
    | .error error =>
      cases ran
      exact .inr ⟨rfl, next⟩

/-- **The action keeps outside of phases**, or has whole ones. -/
def Outside (start : Bench) (action : ExceptT AccessError LinkM α) : Prop :=
  Leads (Noted start .free none) action.run
    (EndsWith (Noted start .free none) (AccessFailed start))

namespace Outside

theorem done (value : α) : Outside start (pure value) :=
  fun _ _ noted => noted

theorem andThen {first : ExceptT AccessError LinkM α} {next : α → ExceptT AccessError LinkM β}
    (outside : Outside start first) (outsideNext : ∀ value, Outside start (next value)) :
    Outside start (first >>= next) :=
  Leads.followed outside (fun _ _ _ => id) outsideNext

/-- An error that is none of a line. -/
theorem checked (argument : Except Misuse α) :
    Outside start (liftM (checked argument) : ExceptT AccessError LinkM α) := by
  cases argument with
  | ok value => exact fun _ _ noted => noted
  | error misuse => exact fun _ _ noted => ⟨.free, nofun, noted⟩

theorem turnData (link : Link) (direction : Direction) : Outside start (link.turnData direction) := by
  have outside : ChipState.free ≠ .chosen := nofun
  refine (restores_turnData link outside direction none).weaken (fun _ _ => id) ?_
  rintro turned memory bench (⟨rfl, noted⟩ | ⟨rfl, noted⟩)
  · exact noted
  · exact ⟨.free, outside, noted⟩

end Outside

variable (wired : link.hasChipSelect = true)

include wired

/-- A phase in which words are sent. -/
theorem outside_sendPhase (selector : Selector) (words : Words) (width : Width) :
    Outside start (link.sendPhase selector words width) := by
  unfold Link.sendPhase
  refine (Outside.checked _).andThen fun count => (Outside.turnData link .output).andThen fun _ => ?_
  have latches : Inside start
      ((words.values.flatMap (piecesOf count link.lines)).forM link.latchWord) :=
    Inside.forM (Inside.latchWord link) _
  refine Leads.outcome ((leads_phase wired selector latches.reads).weaken (fun _ _ => id) ?_)
  exact fun reading _ _ => EndsWith.weaken fun _ _ _ => PhaseFailed.access

/-- **A write.** -/
theorem outside_write (context : Context) (register : Nat) (request : Option WriteRequest) :
    Outside start (link.write context register request) := by
  unfold Link.write
  refine (outside_sendPhase wired .command _ _).andThen fun _ => ?_
  cases WriteRequest.nonempty? request with
  | none => exact Outside.done _
  | some present => exact outside_sendPhase wired _ _ _

/-- **A read**, with the data lines switched back whether or not they were sampled. -/
theorem leads_read_noted (context : Context) (register : Nat) (request : ReadRequest) :
    Leads (Noted start .free none) (link.read context register request) fun reading =>
      Settled start reading.outcome := by
  have prepares : Outside start
      (do
        if !link.hasReadStrobe then
          throw .notReadable
        let count ← checked (piecesPerElement (request.effectiveWidth context.width) link.lines)
        link.selectRegister context register
        link.turnData .input
        return count : ExceptT AccessError LinkM Nat) := by
    split
    · exact fun _ _ noted => ⟨.free, nofun, noted⟩
    · exact (Outside.checked _).andThen fun count =>
        (outside_sendPhase wired _ _ _).andThen fun _ =>
          (Outside.turnData link .input).andThen fun _ => Outside.done count
  unfold Link.read
  refine Leads.bind prepares fun outcome => ?_
  cases outcome with
  | error error => exact fun _ _ failed => failed
  | ok pieces =>
    refine (leads_phase wired request.selector
      (readsInside_readElements link pieces request.count)).bind fun reading => ?_
    have restored {state : ChipState} (outside : state ≠ .chosen) :
        Leads (EndsWith (Noted start state none) (Broken start state) reading.outcome)
          ((link.turnData .output).run >>= fun ended => pure (reading.followedBy ended))
          fun reading => Settled start reading.outcome := by
      refine ((restores_turnData link outside .output).followedBy reading).weaken (fun _ _ => id) ?_
      intro reading memory bench ends
      refine ⟨state, outside, ?_⟩
      match reading.outcome, ends with
      | .ok (), noted => exact noted
      | .error _, ⟨fault, rfl, noted⟩ => exact noted
    intro memory bench ends
    match ended : reading.outcome, ends with
    | .ok (), noted =>
      rw [ended] at restored
      exact @restored .free nofun memory bench noted
    | .error error, ⟨state, outside, broken⟩ =>
      rw [ended] at restored
      exact restored outside memory bench broken

/-- **An access.** -/
theorem settled_perform (memory : Memory) (bench : Bench) (access : Access) :
    ∃ events state, bench.Ran (link.perform (memory, bench) access).2 events ∧
      ChipState.Runs .free events state ∧ state ≠ .chosen ∧
      events.findSome? Event.lineFault? =
        faultTold AccessError.fault? (link.answer (memory, bench) access) := by
  have begun : Noted bench .free none memory bench := ⟨[], Bench.Ran.refl bench, .done _, rfl⟩
  cases access with
  | write context register request =>
    obtain ⟨state, outside, events, ran, runs, told⟩ :=
      (outside_write wired context register request memory bench begun).settled
    exact ⟨events, state, ran, runs, outside, told⟩
  | read context register request =>
    obtain ⟨state, outside, events, ran, runs, told⟩ :=
      leads_read_noted wired context register request memory bench begun
    exact ⟨events, state, ran, runs, outside, told⟩

/-- **The chip select brackets the phases of every access**, whatever the link remembers and whichever
uses of lines fail. If it was used and never fails, it is high afterwards; and the access fails with the
error of a line exactly if a line fails, which is then the first one. -/
theorem chip_select_brackets (memory : Memory) (bench : Bench) (access : Access) :
    let after := (link.perform (memory, bench) access).2
    ∃ events, bench.Ran after events ∧ Bracketed events ∧
      ((∃ event ∈ events, event.chipLevel? ≠ none) →
        (∀ level outcome, .line .chipSelect (.set level) outcome ∈ events → outcome = .done) →
          (after.line .chipSelect).level = true) ∧
      ∀ fault, link.answer (memory, bench) access = .error (.linkFailed fault) ↔
        events.findSome? Event.lineFault? = some fault := by
  intro after
  obtain ⟨events, state, ran, runs, outside, told⟩ := settled_perform wired memory bench access
  refine ⟨events, ran, runs.bracketed outside, fun used works => ?_, fun fault => ?_⟩
  · have level := runs.level_of_works outside used works bench.wires
    rw [← ran.wires] at level
    exact level
  · rw [told]
    match link.answer (memory, bench) access with
    | .ok () => exact iff_of_false nofun nofun
    | .error error => cases error <;> simp [faultTold, AccessError.fault?]

end Access

/-- Three failures in a read: a data line cannot be sampled, the chip select cannot be set high, and the
data line cannot be switched back. The first one is reported, and every step was still tried. -/
theorem chip_select_brackets_three_failures :
    let bench : Bench :=
      { data := [{}, { failsAt := (3 ≤ ·) }], chipSelect := { failsAt := (· == 3) } }
    let link : Link := ⟨2, true, true, .absent⟩
    let access := Access.read ⟨.bits8, ⟨0⟩⟩ 0 { element := .byte, count := 1 }
    let after := (link.perform ({}, bench) access).2
    link.answer ({}, bench) access = .error (.linkFailed .gpio) ∧
      after.log.reverse.drop 17 =
        [Event.selects, .line .selector (.set true) .done, .line .readStrobe (.set false) .done,
          .line (.data 0) .sample .done, .line (.data 1) .sample .refused,
          Event.releases .refused, .line (.data 0) (.turn .output) .done,
          .line (.data 1) (.turn .output) .refused] ∧
      Bracketed after.log.reverse := by
  intro bench link access after
  have wired : link.hasChipSelect = true := rfl
  obtain ⟨events, ran, bracketed, -, -⟩ := chip_select_brackets wired {} bench access
  have all : events = after.log.reverse := by
    rw [ran.log, List.reverse_append, List.reverse_reverse]
    exact (List.nil_append _).symm
  rw [all] at bracketed
  exact ⟨by decide +kernel, by decide +kernel, bracketed⟩

end Parallel

end PanelLink
