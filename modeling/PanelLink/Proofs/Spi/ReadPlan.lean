/-
**The plan of a read.**

A read that is not refused at once leads up to one message, and that message alone receives. What it
does before follows from the link, the settings and the request, as a write does.

* `ReadPlan`: the moves up to the last message, that message, and what the read makes of its elements;
* `Link.readPlan`: the plan of a read, or the reason why there is none;
* **`Link.read_eq`**: a read is its plan;
* **`ReadPlan.run_of_accepts`**: on a bench that accepts all that it shows, a plan comes to its verdict.
-/

import PanelLink.Proofs.Spi.WriteScript

namespace PanelLink.Spi

/-! ### Plans -/

/-- **What a read does** that is not refused at once. -/
structure ReadPlan where
  /-- Everything up to the last message. -/
  lead : Script AccessError
  /-- What the last message sends before it receives. -/
  opening : Option Segment
  /-- The stretch that receives. -/
  receiving : Segment
  /-- What the read makes of the elements that it receives. -/
  gives : List Nat → List Nat

namespace ReadPlan

def last (plan : ReadPlan) : List Segment :=
  plan.opening.toList ++ [plan.receiving]

def carryOut (plan : ReadPlan) : ExceptT AccessError BenchM (List Nat) := do
  plan.lead.play .linkFailed
  return plan.gives (← Link.exchangeRead plan.last)

/-- A read obtains all elements or none. -/
def reading : Except AccessError (List Nat) → Reading AccessError
  | .ok values => .complete values
  | .error error => .failed error

def read (plan : ReadPlan) : BenchM (Reading AccessError) := do
  return reading (← plan.carryOut.run)

theorem run_read {plan : ReadPlan} {bench after : Bench} {outcome : Except AccessError (List Nat)}
    (ran : plan.carryOut.run.run bench = (outcome, after)) :
    plan.read.run bench = (reading outcome, after) := by
  unfold read
  rw [StateT.run_bind, ran]
  rfl

end ReadPlan

namespace Link

variable (link : Link)

/-- The move of the selector line, if there is one. -/
def lineMoves (selector : Selector) : List Move :=
  link.selectorLine.line?.toList.map (.drive · selector.isData)

/-- Whether elements of a width are received as pairs of bytes. -/
def JoinsPairs (width : Width) : Prop :=
  width = .bits16 ∧ link.mask.contains .bits16 = false

instance (width : Width) : Decidable (link.JoinsPairs width) :=
  inferInstanceAs (Decidable (_ ∧ _))

/-- The stretch in which elements are received. -/
def stretch (request : ReadRequest) (width : Width) : Segment where
  payload :=
    if link.JoinsPairs width then .receive .byte (request.count * 2)
    else .receive request.element request.count
  bits := if link.JoinsPairs width then 8 else width.bits
  clock := some (slowClock link.clock)

/-- The moves that select a register and turn to the data phase, if the elements come in that. -/
def selectMoves (selector : Selector) (select : Segment) : List Move :=
  link.lineMoves .command ++ match selector with
    | .data => .transfer [{ select with changesSelect := true }] [] :: link.lineMoves .data
    | .command => []

theorem mem_selectMoves {selector : Selector} {select : Segment} {move : Move}
    (member : move ∈ link.selectMoves selector select) :
    (∃ name level, move = .drive name level) ∨
      move = .transfer [{ select with changesSelect := true }] [] := by
  have line (selector : Selector) (inLine : move ∈ link.lineMoves selector) :
      ∃ name level, move = .drive name level := by
    obtain ⟨name, -, rfl⟩ := List.mem_map.mp inLine
    exact ⟨name, _, rfl⟩
  rcases List.mem_append.mp member with first | turns
  · exact Or.inl (line _ first)
  · cases selector with
    | command => cases turns
    | data =>
      rcases List.mem_cons.mp turns with rfl | last
      · exact Or.inr rfl
      · exact Or.inl (line _ last)

/-- A read whose elements follow their register number directly. -/
def plainRead (request : ReadRequest) (width : Width) (select : Segment) : ReadPlan where
  lead := { moves := link.selectMoves request.selector select, verdict := .ok () }
  opening := match request.selector with
    | .data => none
    | .command => some select
  receiving := link.stretch request width
  gives := if link.JoinsPairs width then joinReceived request else id

def plainPlan (context : Context) (register : Nat) (request : ReadRequest) :
    Except AccessError ReadPlan :=
  let width := request.effectiveWidth context.width
  if width ≠ context.width then .error (.invalidArgument .readWidthDiffers)
  else if width ≠ .bits8 ∧ width ≠ .bits16 then .error (.invalidArgument .unreadableElements)
  else (link.selectSegment context.width register).map (link.plainRead request width)

/-- A read in a message that opens with a byte and answers with a dummy byte first. -/
def openedRead (layout : OpeningByte) (context : Context) (register : Nat) (request : ReadRequest) :
    ReadPlan where
  lead := link.phaseScript .command (context.writeClock .command link.clock)
    (registerWord register context.width) context.width link.selectPlaces
  opening := some
    { payload := .transmit (Words.ofList .byte [layout.value request.selector true])
      bits := 8, clock := some (slowClock link.clock) }
  receiving :=
    { payload := .receive .byte (request.count * 2 + 1)
      bits := 8, clock := some (slowClock link.clock) }
  gives := fun received => joinBytePairs.all (received.drop 1)

def openedPlan (layout : OpeningByte) (context : Context) (register : Nat) (request : ReadRequest) :
    Except AccessError ReadPlan :=
  if request.effectiveWidth context.width ≠ .bits16 then
    .error (.invalidArgument .startByteReadWidth)
  else if request.element ≠ .half then .error (.invalidArgument .elementMismatch)
  else .ok (link.openedRead layout context register request)

/-- **The plan of a read**, or the reason why there is none. -/
def readPlan (context : Context) (register : Nat) (request : ReadRequest) :
    Except AccessError ReadPlan :=
  match link.mode with
  | .opened layout => link.openedPlan layout context register request
  | _ => link.plainPlan context register request

/-! ### A read is its plan -/

theorem driveSelector_eq_moves (selector : Selector) :
    link.driveSelector selector = (link.lineMoves selector).forM (Move.perform .linkFailed) := by
  unfold driveSelector lineMoves
  cases link.selectorLine with
  | absent => rfl
  | unconnected => rfl
  | line name => exact (bind_pure _).symm

/-- A message of which nothing is received, and moves that follow it. -/
theorem exchangeRead_then {α : Type} (segments : List Segment) (moves : List Move)
    (next : ExceptT AccessError BenchM α) :
    (exchangeRead segments >>= fun _ => moves.forM (Move.perform .linkFailed) >>= fun _ => next) =
      (.transfer segments [] :: moves).forM (Move.perform .linkFailed) >>= fun _ => next := by
  have alone : (Move.transfer segments []).perform AccessError.linkFailed =
      ((exchange segments).adapt fun _ => .linkFailed .bus) >>= fun _ => pure () :=
    (bind_pure _).symm.trans (exchange_eq segments).symm
  have first : (Move.transfer segments [] :: moves).forM (Move.perform AccessError.linkFailed) =
      (Move.transfer segments []).perform .linkFailed >>= fun _ =>
        moves.forM (Move.perform .linkFailed) := rfl
  rw [first, alone, exchangeRead, bind_assoc, bind_assoc, bind_assoc]
  rfl

/-- The register is selected, and the last message follows. -/
theorem selectMoves_then {α : Type} (selector : Selector) (select receiving : Segment)
    (finish : List Nat → ExceptT AccessError BenchM α) :
    (link.driveSelector .command >>= fun _ =>
      match selector with
      | .data =>
        exchangeRead [{ select with changesSelect := true }] >>= fun _ =>
          link.driveSelector .data >>= fun _ => exchangeRead [receiving] >>= finish
      | .command => exchangeRead [select, receiving] >>= finish) =
      (link.selectMoves selector select).forM (Move.perform .linkFailed) >>= fun _ =>
        exchangeRead
          ((match selector with
            | .data => none
            | .command => some select).toList ++ [receiving]) >>= finish := by
  have joined (first later : List Move) :
      (first ++ later).forM (Move.perform AccessError.linkFailed) =
        first.forM (Move.perform .linkFailed) >>= fun _ => later.forM (Move.perform .linkFailed) :=
    List.forM_append
  unfold selectMoves
  rw [driveSelector_eq_moves, joined, bind_assoc]
  refine bind_congr fun _ => ?_
  cases selector with
  | command => exact (pure_bind _ _).symm
  | data =>
    dsimp only
    rw [← exchangeRead_then, driveSelector_eq_moves]
    rfl

theorem readPlain_eq (context : Context) (register : Nat) (request : ReadRequest) :
    link.readPlain context register request =
      match link.plainPlan context register request with
      | .error error => throw error
      | .ok plan => plan.carryOut := by
  unfold readPlain plainPlan
  dsimp only
  generalize request.effectiveWidth context.width = width
  by_cases differs : width ≠ context.width
  · rw [if_pos differs, if_pos differs]
    rfl
  by_cases odd : width ≠ .bits8 ∧ width ≠ .bits16
  · rw [if_neg differs, if_neg differs, if_pos odd, if_pos odd]
    rfl
  rw [if_neg differs, if_neg differs, if_neg odd, if_neg odd]
  cases link.selectSegment context.width register with
  | error error => rfl
  | ok select =>
    have pairs : width = .bits16 ∧ (!link.mask.contains .bits16) = true ↔ link.JoinsPairs width := by
      simp [JoinsPairs]
    have receiving : (if link.JoinsPairs width then
          { payload := .receive .byte (request.count * 2), bits := 8
            clock := some (slowClock link.clock) }
        else
          { payload := .receive request.element request.count, bits := width.bits
            clock := some (slowClock link.clock) }) = link.stretch request width := by
      unfold stretch
      split <;> rfl
    have gives (received : List Nat) :
        (if link.JoinsPairs width then joinReceived request received else received) =
          (if link.JoinsPairs width then joinReceived request else id) received := by
      split <;> rfl
    simp only [pairs, receiving, gives]
    have selected := link.selectMoves_then request.selector select (link.stretch request width)
      fun received => pure ((if link.JoinsPairs width then joinReceived request else id) received)
    refine Eq.trans ?_ (selected.trans ?_)
    · cases request.selector <;> rfl
    · show _ = (_ >>= fun _ => ExceptT.mk (pure (Except.ok ()))) >>= _
      rw [bind_assoc]
      rfl

theorem readOpened_eq (layout : OpeningByte) (context : Context) (register : Nat)
    (request : ReadRequest) :
    link.readOpened layout context register request =
      match link.openedPlan layout context register request with
      | .error error => throw error
      | .ok plan => plan.carryOut := by
  unfold readOpened openedPlan
  by_cases odd : request.effectiveWidth context.width ≠ .bits16
  · rw [if_pos odd, if_pos odd]
    rfl
  by_cases misfit : request.element ≠ .half
  · rw [if_neg odd, if_neg odd, if_pos misfit, if_pos misfit]
    rfl
  rw [if_neg odd, if_neg odd, if_neg misfit, if_neg misfit, selectRegister, sendPhase_eq_play]
  rfl

/-- **A read is its plan**, and without one it is refused at once. -/
theorem read_eq (context : Context) (register : Nat) (request : ReadRequest) :
    link.read context register request =
      match link.readPlan context register request with
      | .error error => pure (.failed error)
      | .ok plan => plan.read := by
  unfold read readPlan
  cases link.mode with
  | opened layout =>
    dsimp only
    rw [readOpened_eq]
    cases link.openedPlan layout context register request <;> rfl
  | fourWire =>
    dsimp only
    rw [readPlain_eq]
    cases link.plainPlan context register request <;> rfl
  | threeWire =>
    dsimp only
    rw [readPlain_eq]
    cases link.plainPlan context register request <;> rfl

variable {link} {context : Context} {register : Nat} {request : ReadRequest} {plan : ReadPlan}

/-- A plain read has a plan exactly if it is one of bytes or 16-bit elements at the width of the
register. -/
theorem plainPlan_eq_ok :
    link.plainPlan context register request = .ok plan ↔
      request.effectiveWidth context.width = context.width ∧
        (context.width = .bits8 ∨ context.width = .bits16) ∧
        ∃ select, link.selectSegment context.width register = .ok select ∧
          plan = link.plainRead request context.width select := by
  unfold plainPlan
  dsimp only
  by_cases same : request.effectiveWidth context.width = context.width
  · rw [same, if_neg (not_not_intro rfl)]
    by_cases even : context.width = .bits8 ∨ context.width = .bits16
    · rw [if_neg (by tauto)]
      cases link.selectSegment context.width register with
      | error error => simp [Except.map]
      | ok select =>
        refine ⟨fun planned => ⟨rfl, even, select, rfl, (Except.ok.inj planned).symm⟩, ?_⟩
        rintro ⟨-, -, other, selected, rfl⟩
        cases selected
        rfl
    · rw [if_pos (by tauto)]
      simp [even]
  · rw [if_pos same]
    simp [same]

theorem openedPlan_eq_ok {layout : OpeningByte} :
    link.openedPlan layout context register request = .ok plan ↔
      request.effectiveWidth context.width = .bits16 ∧ request.element = .half ∧
        plan = link.openedRead layout context register request := by
  unfold openedPlan
  by_cases wide : request.effectiveWidth context.width = .bits16
  · rw [if_neg (not_not_intro wide)]
    by_cases halves : request.element = .half
    · rw [if_neg (not_not_intro halves)]
      simp [wide, halves, eq_comm]
    · rw [if_pos halves]
      simp [halves]
  · rw [if_pos wide]
    simp [wide]

end Link

/-! ### How a plan ends -/

namespace ReadPlan

/-- What the plan shows when nothing is refused. -/
def events (plan : ReadPlan) : List Event :=
  plan.lead.events ++ match plan.lead.verdict with
    | .ok () => [.message plan.last]
    | .error _ => []

/-- **On a bench that accepts all of it** a plan comes to its verdict. -/
theorem run_of_accepts (plan : ReadPlan) {bench : Bench} (accepts : bench.Accepts plan.events) :
    ∃ outcome after, plan.carryOut.run.run bench = (outcome, after) ∧
      outcome.map (fun _ => ()) = plan.lead.verdict ∧ bench.Tried after plan.events := by
  obtain ⟨middle, led, tried⟩ := Script.run_of_accepts AccessError.linkFailed plan.lead accepts.left
  unfold events at accepts ⊢
  cases verdict : plan.lead.verdict with
  | error error =>
    rw [verdict] at led
    refine ⟨_, middle, run_bind_error led, rfl, ?_⟩
    rw [List.append_nil]
    exact tried
  | ok done =>
    rw [verdict] at led accepts
    have last := run_exchange_tried middle plan.last
    have accepted : middle.refuses [] (.message plan.last) = false := by
      rw [tried.refuses_eq, List.append_nil]
      exact accepts _ _ [] rfl
    rw [accepted, if_neg Bool.false_ne_true] at last
    obtain ⟨received, after, sent, triedLast⟩ := last
    refine ⟨.ok (plan.gives received.flatten), after, ?_, rfl, tried.trans triedLast⟩
    have adapted : ((exchange plan.last).adapt fun _ => AccessError.linkFailed .bus).run.run middle =
        (.ok received, after) := by
      rw [ExceptT.run_adapt, StateT.run_map, sent]
      rfl
    unfold carryOut Link.exchangeRead
    rw [run_bind_ok led, bind_assoc, run_bind_ok adapted]
    rfl

end ReadPlan

end PanelLink.Spi
