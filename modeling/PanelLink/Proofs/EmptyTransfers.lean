/-
**No transfer is empty.**

A payload may be empty, a scratch buffer, a group of tagged words, a message or a stage may end exactly
with the payload, and any attempt may fail. Still nothing is ever sent or received that has no element.

* `RegisterBank.make` and `Channel.serve`: calls of banks in a row, whatever comes of each;
* `RegisterBank.hands_make`: a bank refuses a call, or it hands it to its channel, a read only if there
  are elements to read, and `Channel.holds_serve`: so calls in a row keep what writes and reads keep;
* `Spi.Link.sendsOnly_serve`, `Parallel.usesLine_serve`, `Addressed.attemptsFilled_serve`: what calls
  in a row send over each kind of link;
* **`no_empty_transfers`**: all of it at once.
-/

import PanelLink.Proofs.Addressed.Attempts
import PanelLink.Proofs.BankWrites
import PanelLink.Proofs.ReadStrobe
import PanelLink.Proofs.Spi.MappingRounds
import PanelLink.Proofs.Spi.ReadLimits

namespace PanelLink

/-! ### Calls of a bank -/

section Calls

variable {m : Type → Type} [Monad m]

/-- One call of a bank, whatever comes of it. -/
def RegisterBank.make (bank : RegisterBank m) : Spi.Access → m Unit
  | .write register request => do
    let _ ← (bank.write register request).run
  | .writeNumbers address register numbers => do
    let _ ← (bank.writeNumbers address register numbers).run
  | .read register request => do
    let _ ← bank.read register request
  | .readNumbers register count => do
    let _ ← bank.readNumbers register count

/-- Calls of banks over one channel, in a row. -/
def Channel.serve (channel : Channel m) (calls : List (BankSettings × Spi.Access)) : m Unit :=
  calls.forM fun call => RegisterBank.make ⟨channel, call.1⟩ call.2

variable [LawfulMonad m]

/-- The bank does nothing, or it hands a write or a read of elements to its channel. -/
def RegisterBank.Hands (bank : RegisterBank m) (action : m Unit) : Prop :=
  action = pure () ∨
    (∃ register request, action =
      (bank.channel.write bank.context register request).run >>= fun _ => pure ()) ∨
    ∃ register request, request.count ≠ 0 ∧ action =
      bank.channel.read bank.context register request >>= fun _ => pure ()

theorem RegisterBank.hands_write (bank : RegisterBank m) (register : Nat)
    (request : Option WriteRequest) :
    bank.Hands ((bank.write register request).run >>= fun _ => pure ()) := by
  rw [run_write]
  cases bank.resolve request with
  | error error => exact Or.inl (pure_bind _ _)
  | ok resolved => exact Or.inr (Or.inl ⟨register, resolved, rfl⟩)

theorem RegisterBank.hands_read (bank : RegisterBank m) (register : Nat) (request : ReadRequest) :
    bank.Hands (bank.read register request >>= fun _ => pure ()) := by
  unfold read
  dsimp only
  split
  · exact Or.inl (pure_bind _ _)
  split
  · exact Or.inl (pure_bind _ _)
  split
  · exact Or.inl (pure_bind _ _)
  rename_i filled _
  exact Or.inr (Or.inr ⟨register, { request with width := some _ }, filled, rfl⟩)

/-- **A bank refuses a call**, or it hands it to its channel. -/
theorem RegisterBank.hands_make (bank : RegisterBank m) (access : Spi.Access) :
    bank.Hands (bank.make access) := by
  cases access with
  | write register request => exact bank.hands_write register request
  | read register request => exact bank.hands_read register request
  | writeNumbers address register numbers =>
    show bank.Hands ((bank.writeNumbers address register numbers).run >>= fun _ => pure ())
    unfold writeNumbers
    by_cases many : maxNumbers < numbers.length
    · rw [if_pos many]
      exact Or.inl (by simp)
    · rw [if_neg many]
      exact bank.hands_write register _
  | readNumbers register count =>
    show bank.Hands (bank.readNumbers register count >>= fun _ => pure ())
    unfold readNumbers
    by_cases many : maxNumbers < count
    · rw [if_pos many]
      exact Or.inl (pure_bind _ _)
    · rw [if_neg many]
      -- The numbers are narrowed once they are read, and nothing more is asked of the channel.
      dsimp only
      rw [bind_assoc]
      refine Eq.mpr (congrArg bank.Hands (bind_congr fun reading => ?_)) (bank.hands_read register _)
      split <;> exact pure_bind _ _

/-- **What holds of a channel holds of calls in a row**: it holds of doing nothing, of a write, of a
read of elements, and of two actions one after the other. -/
theorem Channel.holds_serve (channel : Channel m) {holds : m Unit → Prop} (idle : holds (pure ()))
    (inTurn : ∀ {first next}, holds first → holds next → holds (first >>= fun _ => next))
    (writes : ∀ context register request,
      holds ((channel.write context register request).run >>= fun _ => pure ()))
    (reads : ∀ context register request, request.count ≠ 0 →
      holds (channel.read context register request >>= fun _ => pure ()))
    (calls : List (BankSettings × Spi.Access)) : holds (channel.serve calls) := by
  unfold serve
  induction calls with
  | nil => exact idle
  | cons call calls ih =>
    refine inTurn ?_ ih
    show holds (RegisterBank.make ⟨channel, call.1⟩ call.2)
    rcases RegisterBank.hands_make ⟨channel, call.1⟩ call.2 with
      nothing | ⟨register, request, handed⟩ | ⟨register, request, filled, handed⟩
    · exact nothing ▸ idle
    · exact handed ▸ writes _ register request
    · exact handed ▸ reads _ register request filled

end Calls

/-! ### Messages -/

/-- The segment sends or receives an element. -/
def Segment.Filled (segment : Segment) : Prop :=
  match segment.payload with
  | .transmit words => words.values ≠ []
  | .receive _ count => count ≠ 0

/-- **No segment of the message is empty**, and there is one besides the byte that opens it. -/
def Spi.Mode.Filled (mode : Spi.Mode) (message : List Segment) : Prop :=
  (∀ segment ∈ message, segment.Filled) ∧ mode.payload message ≠ []

/-- Whatever comes of it, the action sends messages of a kind only. -/
def SendsOnly {α : Type} (kind : List Segment → Prop) (action : BenchM α) : Prop :=
  ∀ bench, ∃ sent, (action.run bench).2.messages = bench.messages ++ sent ∧
    ∀ message ∈ sent, kind message

namespace SendsOnly

variable {kind : List Segment → Prop} {α β ε : Type}

theorem done (value : α) : SendsOnly kind (pure value : BenchM α) :=
  fun _ => ⟨[], (List.append_nil _).symm, nofun⟩

theorem bind {first : BenchM α} {next : α → BenchM β} (sends : SendsOnly kind first)
    (sendsNext : ∀ value, SendsOnly kind (next value)) : SendsOnly kind (first >>= next) := by
  intro bench
  obtain ⟨sent, messages, all⟩ := sends bench
  obtain ⟨later, messagesNext, allLater⟩ := sendsNext (first.run bench).1 (first.run bench).2
  refine ⟨sent ++ later, ?_, fun message member => ?_⟩
  · rw [← List.append_assoc, ← messages, ← messagesNext]
    rfl
  · exact (List.mem_append.mp member).elim (all message) (allLater message)

/-- Of two actions in a row the second one runs if the first one succeeds. -/
theorem andThen {first : ExceptT ε BenchM α} {next : α → ExceptT ε BenchM β}
    (sends : SendsOnly kind first.run) (sendsNext : ∀ value, SendsOnly kind (next value).run) :
    SendsOnly kind (first >>= next).run := by
  rw [ExceptT.run_bind]
  refine sends.bind fun outcome => ?_
  cases outcome with
  | ok value => exact sendsNext value
  | error error => exact done _

end SendsOnly

namespace Spi

/-- A script sends what it shows. -/
theorem sendsOnly_play {ε : Type} {kind : List Segment → Prop} (restate : LinkFault → ε)
    {script : Script ε} (all : ∀ message ∈ messagesIn script.events, kind message) :
    SendsOnly kind (script.play restate).run := by
  intro bench
  obtain ⟨outcome, after, sent, ran, messages, begins, -⟩ := script.messages_of_run restate bench
  rw [ran]
  exact ⟨sent, messages, fun message member => all message (begins.subset member)⟩

theorem sendsOnly_planRead {kind : List Segment → Prop} {plan : ReadPlan}
    (all : ∀ message ∈ messagesIn plan.events, kind message) : SendsOnly kind plan.read := by
  intro bench
  obtain ⟨outcome, after, sent, ran, messages, begins, -⟩ := plan.messages_of_run bench
  rw [ReadPlan.run_read ran]
  exact ⟨sent, messages, fun message member => all message (begins.subset member)⟩

/-- A plan has the messages up to the last one, and the last one. -/
theorem ReadPlan.mem_messagesIn_events {plan : ReadPlan} {message : List Segment}
    (member : message ∈ messagesIn plan.events) :
    message ∈ messagesIn plan.lead.events ∨ message = plan.last := by
  unfold events at member
  rw [messagesIn_append] at member
  refine (List.mem_append.mp member).imp_right fun late => ?_
  split at late
  · exact List.mem_singleton.mp late
  · cases late

namespace Link

variable {link : Link}

/-- The messages of a block are not empty. -/
theorem filled_segments (roomy : 4 ≤ link.config.segmentLimit) {selector : Selector}
    {clock : Option Nat} {block : Block} {slices : List Slice}
    (message : slices ∈ link.cutter.messages (link.opening selector false clock).isSome block) :
    link.mode.Filled (link.segments { selector, clock, block, slices }) := by
  have carries : ∀ slice ∈ slices, slice.words.values ≠ [] := fun slice member =>
    List.ne_nil_of_length_pos ((Cutter.cuts_runs roomy block).nonempty slice.words
      (Cutter.mem_runs_of_mem_messages message member))
  have some_slice : slices ≠ [] := ne_nil_of_mem_portions message
  refine ⟨fun segment member => ?_, ?_⟩
  · rcases List.mem_append.mp member with first | carrying
    · obtain ⟨layout, -, rfl⟩ := Option.map_eq_some_iff.mp (Option.mem_toList.mp first)
      exact List.cons_ne_nil _ _
    · obtain ⟨slice, inMessage, rfl⟩ := List.mem_map.mp carrying
      exact carries slice inMessage
  · unfold Mode.payload segments opening
    cases link.mode.opening? <;> simpa using some_slice

theorem filled_phaseScript (roomy : 4 ≤ link.config.segmentLimit) {selector : Selector}
    {clock : Option Nat} {words : Words} {width : Width} {places : Places} {message : List Segment}
    (member : message ∈ messagesIn (link.phaseScript selector clock words width places).events) :
    link.mode.Filled message := by
  rw [messagesIn_phaseScript] at member
  obtain ⟨outgoing, planned, rfl⟩ := List.mem_map.mp member
  obtain ⟨block, slices, rfl, inBlock⟩ := exists_of_mem_planned planned
  exact filled_segments roomy inBlock

theorem sendsOnly_sendPhase (roomy : 4 ≤ link.config.segmentLimit) (selector : Selector)
    (clock : Option Nat) (words : Words) (width : Width) (places : Places) :
    SendsOnly link.mode.Filled (link.sendPhase selector clock words width places).run := by
  rw [sendPhase_eq_play]
  exact sendsOnly_play _ fun _ => filled_phaseScript roomy

theorem sendsOnly_write (roomy : 4 ≤ link.config.segmentLimit) (context : Context) (register : Nat)
    (request : Option WriteRequest) :
    SendsOnly link.mode.Filled (link.write context register request).run := by
  unfold write selectRegister
  refine (sendsOnly_sendPhase roomy _ _ _ _ _).andThen fun _ => ?_
  cases WriteRequest.nonempty? request with
  | none => exact SendsOnly.done _
  | some present => exact sendsOnly_sendPhase roomy _ _ _ _ _

variable {context : Context} {register : Nat} {request : ReadRequest}

/-- The segment that selects a register for reading is not empty. -/
theorem filled_selectSegment {width : Width} {select : Segment}
    (selected : link.selectSegment width register = .ok select) : select.Filled := by
  unfold selectSegment at selected
  split at selected
  · split at selected <;> cases selected <;> simp [Segment.Filled]
  · split at selected
    · cases selected
      simp [Segment.Filled]
    · split at selected <;> cases selected <;> simp [Segment.Filled, bigEndian]
    · cases selected

theorem filled_stretch (filled : request.count ≠ 0) (width : Width) :
    (link.stretch request width).Filled := by
  unfold stretch Segment.Filled
  by_cases pairs : link.JoinsPairs width
  · rw [if_pos pairs]
    exact Nat.mul_ne_zero filled (by decide)
  · rw [if_neg pairs]
    exact filled

/-- **The messages of a read** of elements are not empty. -/
theorem filled_readPlan (roomy : 4 ≤ link.config.segmentLimit) (filled : request.count ≠ 0)
    {plan : ReadPlan} (planned : link.readPlan context register request = .ok plan) :
    ∀ message ∈ messagesIn plan.events, link.mode.Filled message := by
  have plain (direct : link.mode.opening? = none)
      (planned : link.plainPlan context register request = .ok plan) :
      ∀ message ∈ messagesIn plan.events, link.mode.Filled message := by
    obtain ⟨-, -, select, selected, rfl⟩ := plainPlan_eq_ok.mp planned
    have selects : select.Filled := filled_selectSegment selected
    have still : ({ select with changesSelect := true } : Segment).Filled := selects
    have receives : (link.stretch request context.width).Filled := filled_stretch filled _
    have whole (message : List Segment) : link.mode.payload message = message := by
      rw [Mode.payload, direct]
      rfl
    rw [messagesIn_plainRead]
    cases request.selector <;> simp [Mode.Filled, whole, selects, still, receives]
  unfold readPlan at planned
  cases mode : link.mode with
  | fourWire => exact mode ▸ plain (by rw [mode]; rfl) (by rwa [mode] at planned)
  | threeWire => exact mode ▸ plain (by rw [mode]; rfl) (by rwa [mode] at planned)
  | opened layout =>
    rw [mode] at planned
    obtain ⟨-, -, rfl⟩ := openedPlan_eq_ok.mp planned
    intro message member
    rcases ReadPlan.mem_messagesIn_events member with leads | rfl
    · exact mode ▸ filled_phaseScript roomy leads
    · simp [Mode.Filled, Mode.payload, Mode.opening?, ReadPlan.last, openedRead, Segment.Filled]

theorem sendsOnly_read (roomy : 4 ≤ link.config.segmentLimit) (filled : request.count ≠ 0) :
    SendsOnly link.mode.Filled (link.read context register request) := by
  rw [read_eq]
  cases planned : link.readPlan context register request with
  | error error => exact SendsOnly.done _
  | ok plan => exact sendsOnly_planRead (filled_readPlan roomy filled planned)

/-- **Calls in a row over SPI** send no empty message, and no message with an empty segment. -/
theorem sendsOnly_serve (roomy : 4 ≤ link.config.segmentLimit)
    (calls : List (BankSettings × Access)) :
    SendsOnly link.mode.Filled (link.channel.serve calls) :=
  link.channel.holds_serve (SendsOnly.done _) (fun sends sendsNext => sends.bind fun _ => sendsNext)
    (fun context register request =>
      (sendsOnly_write roomy context register request).bind fun _ => SendsOnly.done _)
    (fun _ _ _ filled => (sendsOnly_read roomy filled).bind fun _ => SendsOnly.done _) calls

end Link

end Spi

/-! ### Lines in parallel -/

namespace Parallel

/-- The event is a use of a line. -/
def UsesLine (event : Event) : Prop :=
  ∃ name use outcome, event = .line name use outcome

section Steps

variable (link : Link)

theorem usesLine_line (name : LineName) (use : LineUse) (outcome : UseOutcome) :
    UsesLine (.line name use outcome) :=
  ⟨name, use, outcome, rfl⟩

theorem usesLine_set (name : LineName) (level : Bool) :
    Confined UsesLine (Link.useLines (setLine name level)).run :=
  confined_set (usesLine_line name _)

theorem usesLine_turnData {direction : Direction} (known : direction ≠ .unset) :
    Confined UsesLine (link.turnData direction).run :=
  confined_turnData link known fun _ => usesLine_line _ _

theorem usesLine_whileSelected (selector : Selector) {body : LinkM (Reading AccessError)}
    (confined : Confined UsesLine body) : Confined UsesLine (link.whileSelected selector body) := by
  have chipSelect := confined_driveChipSelect link fun _ => usesLine_line _ _
  unfold Link.whileSelected
  refine (chipSelect true).bind fun chosen => ?_
  cases chosen with
  | error error => exact Confined.done _
  | ok =>
    refine (usesLine_set _ _).bind fun selected => ?_
    cases selected with
    | error error => exact (chipSelect false).bind fun released => Confined.done _
    | ok => exact confined.bind fun reading => (chipSelect false).bind fun released => Confined.done _

theorem usesLine_sendPhase (selector : Selector) (words : Words) (width : Width) :
    Confined UsesLine (link.sendPhase selector words width).run := by
  unfold Link.sendPhase
  refine (Confined.checked _).andThen fun count =>
    (usesLine_turnData link (by decide)).andThen fun _ => ?_
  have latches := (Confined.forM
    (confined_latchWord link (fun _ => usesLine_line _ _) fun _ _ => usesLine_line _ _)
    (words.values.flatMap (piecesOf count link.lines))).bind fun outcome =>
      Confined.done ({ values := [], outcome } : Reading AccessError)
  exact (usesLine_whileSelected link selector latches).bind fun reading => Confined.done _

theorem usesLine_write (context : Context) (register : Nat) (request : Option WriteRequest) :
    Confined UsesLine (link.write context register request).run := by
  unfold Link.write Link.selectRegister
  refine (usesLine_sendPhase link _ _ _).andThen fun _ => ?_
  cases WriteRequest.nonempty? request with
  | none => exact Confined.done _
  | some present => exact usesLine_sendPhase link _ _ _

theorem usesLine_readWord : Confined UsesLine link.readWord.run := by
  unfold Link.readWord
  exact (usesLine_set _ _).andThen fun _ =>
    (Confined.use (Leaves.sample fun bit outcome _ => usesLine_line _ _ outcome)).andThen fun word =>
      (usesLine_set _ _).andThen fun _ => Confined.done _

theorem usesLine_readWords (count : Nat) : Confined UsesLine (link.readWords count).run := by
  induction count with
  | zero => exact Confined.done _
  | succ count ih =>
    exact (usesLine_readWord link).andThen fun word => ih.andThen fun words => Confined.done _

theorem usesLine_readElements (pieces count : Nat) :
    Confined UsesLine (link.readElements pieces count) := by
  induction count with
  | zero => exact Confined.done _
  | succ count ih =>
    unfold Link.readElements
    refine (usesLine_readWords link pieces).bind fun outcome => ?_
    cases outcome with
    | error error => exact Confined.done _
    | ok words => exact ih.bind fun reading => Confined.done _

theorem usesLine_read (context : Context) (register : Nat) (request : ReadRequest) :
    Confined UsesLine (link.read context register request) := by
  have prepares : Confined UsesLine
      (do
        if !link.hasReadStrobe then
          throw .notReadable
        let count ← checked (piecesPerElement (request.effectiveWidth context.width) link.lines)
        link.selectRegister context register
        link.turnData .input
        return count : ExceptT AccessError LinkM Nat).run := by
    split
    · exact Confined.done _
    · exact (Confined.checked _).andThen fun count =>
        (usesLine_sendPhase link _ _ _).andThen fun _ =>
          (usesLine_turnData link (by decide)).andThen fun _ => Confined.done _
  unfold Link.read
  refine prepares.bind fun prepared => ?_
  cases prepared with
  | error error => exact Confined.done _
  | ok pieces =>
    exact (usesLine_whileSelected link _ (usesLine_readElements link pieces request.count)).bind
      fun reading => (usesLine_turnData link (by decide)).bind fun restored => Confined.done _

/-- **Calls in a row over parallel lines** use lines and do nothing else. -/
theorem usesLine_serve (calls : List (BankSettings × Spi.Access)) :
    Confined UsesLine (link.channel.serve calls) :=
  link.channel.holds_serve (Confined.done _) (fun confined next => confined.bind fun _ => next)
    (fun context register request =>
      (usesLine_write link context register request).bind fun _ => Confined.done _)
    (fun context register request _ =>
      (usesLine_read link context register request).bind fun _ => Confined.done _) calls

end Steps

end Parallel

/-! ### Calls of a master -/

/-- The call moves a word, if it moves words. -/
def MasterCall.Filled : MasterCall → Prop
  | .latch _ => True
  | .write words => words.values ≠ []
  | .read _ count => count ≠ 0

namespace Addressed

/-- The access moves elements if it reads. -/
def asksForElements : Parallel.Access → Prop
  | .write _ _ _ => True
  | .read _ _ request => request.count ≠ 0

section Agendas

variable {dataWidth : Nat} {window : Window}

theorem filled_of_mem_chunked {selector : Selector} {chunks : List MasterCall}
    (filled : ∀ chunk ∈ chunks, chunk.Filled) :
    ∀ call ∈ window.chunked selector chunks, call.Filled := by
  intro call member
  obtain ⟨chunk, among, latches⟩ := List.mem_flatMap.mp member
  rcases List.mem_cons.mp latches with rfl | moves
  · trivial
  · rw [List.mem_singleton.mp moves]
    exact filled chunk among

theorem values_registerRun_ne_nil (dataWidth register : Nat) (width : Width) :
    (registerRun dataWidth register width).values ≠ [] := by
  have pieces := digitCount_pos width dataWidth
  unfold registerRun
  split
  · simp [registerWord]
  · refine List.ne_nil_of_length_pos ?_
    simpa [piecesOf] using pieces

theorem filled_of_mem_readChunks {request : ReadRequest} (filled : request.count ≠ 0) (width : Width) :
    ∀ call ∈ readChunks dataWidth request width, call.Filled := by
  intro call member
  unfold readChunks at member
  split at member
  · rw [List.mem_singleton.mp member]
    exact filled
  · obtain ⟨count, stage, rfl⟩ := List.mem_map.mp member
    obtain ⟨portion, inStages, rfl⟩ := List.mem_map.mp stage
    have some_elements : portion.length ≠ 0 :=
      mt List.length_eq_zero_iff.mp (ne_nil_of_mem_portions inStages)
    exact Nat.mul_ne_zero some_elements (Nat.ne_of_gt (digitCount_pos width dataWidth))

/-- **No call of an agenda is empty.** -/
theorem filled_of_mem_agenda {access : Parallel.Access} (asks : asksForElements access) :
    ∀ call ∈ (agenda dataWidth window access).calls, call.Filled := by
  have selects (register : Nat) (width : Width) :
      ∀ call ∈ (selection dataWidth window register width).calls, call.Filled := by
    intro call member
    rcases List.mem_cons.mp (Agenda.mem_calls_ofPhase member) with rfl | writes
    · trivial
    · rw [List.mem_singleton.mp writes]
      exact values_registerRun_ne_nil dataWidth register width
  intro call member
  cases access with
  | write context register request =>
    rcases Agenda.mem_calls_andThen member with first | next
    · exact selects register context.width call first
    · split at next
      · cases next
      · rename_i present payload
        refine filled_of_mem_chunked ?_ call (Agenda.mem_calls_ofPhase next)
        intro chunk among
        obtain ⟨run, inPhase, rfl⟩ := List.mem_map.mp among
        exact (run_of_mem_phaseWrites inPhase).1 (Spi.payload_ne_nil payload)
  | read context register request =>
    rcases Agenda.mem_calls_andThen member with first | next
    · exact selects register context.width call first
    · exact filled_of_mem_chunked (filled_of_mem_readChunks asks _) call
        (Agenda.mem_calls_ofPhase next)

end Agendas

section Attempting

variable {m : Type → Type} [Monad m] {σ α β : Type} {execution : Execution m σ}
  {registry : Registry}

/-- Whatever comes of it, the action attempts no empty call of its master and keeps the registry. -/
def AttemptsFilled (execution : Execution m σ) (registry : Registry)
    (action : RegistryT (StateT Journal m) α) : Prop :=
  ∀ journal state, ∃ value attempts after,
    execution.run ((action.run registry).run journal) state =
      (((value, registry), journal ++ attempts), after) ∧
    ∀ attempt ∈ attempts, attempt.call.Filled

namespace AttemptsFilled

theorem done (value : α) : AttemptsFilled execution registry (pure value) := fun journal state =>
  ⟨value, [], state, (execution.run_pure _ _).trans (by rw [List.append_nil]), nofun⟩

theorem bind {first : RegistryT (StateT Journal m) α} {next : α → RegistryT (StateT Journal m) β}
    (attempts : AttemptsFilled execution registry first)
    (attemptsNext : ∀ value, AttemptsFilled execution registry (next value)) :
    AttemptsFilled execution registry (first >>= next) := by
  intro journal state
  obtain ⟨value, made, middle, ran, filled⟩ := attempts journal state
  obtain ⟨result, later, after, ranNext, filledLater⟩ := attemptsNext value (journal ++ made) middle
  refine ⟨result, made ++ later, after, ?_, fun attempt member => ?_⟩
  · rw [StateT.run_bind, StateT.run_bind, execution.run_bind, ran, ← List.append_assoc]
    exact ranNext
  · exact (List.mem_append.mp member).elim (filled attempt) (filledLater attempt)

end AttemptsFilled

variable [LawfulMonad m] {master : Master m} {link : Link}

/-- **An access** through a link that was bound attempts no empty call, whether or not the device is
still there. -/
theorem attemptsFilled_attend {earlier : Registry} {slot : Nat} {reset : Connection}
    (bound : Link.bind earlier master slot reset = .ok link) (calls : List RegistryCall)
    {access : Parallel.Access} (asks : asksForElements access) (served : master.Serves access) :
    AttemptsFilled execution (Registry.afterAll master.addressWidth calls)
      (link.attend master.journaled access) := by
  obtain ⟨rfl, writable, wired, narrow, -⟩ := Link.bind_eq_ok bound
  intro journal state
  cases live : (Registry.afterAll master.addressWidth calls).window? slot with
  | none =>
    refine ⟨.error BusError.noSuchDevice.toAccess, [], state, ?_, nofun⟩
    rw [attend_of_absent (m := StateT Journal m) live rfl served, List.append_nil]
    exact execution.run_pure _ _
  | some window =>
    obtain ⟨attempts, outcome, closing, ending, after, follows, -, -, noted⟩ :=
      execution.run_attend master (agenda master.dataWidth window access) journal state
    refine ⟨ending, attempts ++ [⟨.latch 0, closing⟩], after, ?_, fun attempt member => ?_⟩
    · rw [attend_eq (m := StateT Journal m) writable wired narrow
        (Registry.holdsOffset_of_afterAll live) rfl live served, StateT.run_map, execution.run_map,
        ← List.append_assoc]
      exact congrArg (fun ended : _ × σ => (((ended.1.1, _), ended.1.2), ended.2)) noted
    · rcases List.mem_append.mp member with within | closes
      · exact filled_of_mem_agenda asks _
          (follows.begins.subset (List.mem_map.mpr ⟨attempt, within, rfl⟩))
      · rw [List.mem_singleton.mp closes]
        trivial

/-- **Calls in a row over an addressed bus** attempt no empty call of the master. -/
theorem attemptsFilled_serve [MonadLiftT BenchM m] {earlier : Registry} {slot : Nat}
    {reset : Connection} (bound : Link.bind earlier master slot reset = .ok link)
    (history : List RegistryCall) (calls : List (BankSettings × Spi.Access)) :
    AttemptsFilled execution (Registry.afterAll master.addressWidth history)
      ((link.channel master.journaled).serve calls) := by
  have linked : link.readable = master.readable := (Link.bind_eq_ok bound).1 ▸ rfl
  have attends (access : Parallel.Access) (asks : asksForElements access) :
      AttemptsFilled execution (Registry.afterAll master.addressWidth history)
        (link.attend master.journaled access) := by
    by_cases served : master.Serves access
    · exact attemptsFilled_attend bound history asks served
    · rw [show link.attend master.journaled access = pure (.error .notReadable) from
        attend_of_not_served linked served]
      exact AttemptsFilled.done _
  refine (link.channel master.journaled).holds_serve (AttemptsFilled.done _)
    (fun attempts attemptsNext => attempts.bind fun _ => attemptsNext)
    (fun context register request => (attends (.write context register request) trivial).bind
      fun _ => AttemptsFilled.done _) (fun context register request filled => ?_) calls
  have reading := (attends (.read context register request) filled).bind fun _ =>
    AttemptsFilled.done ()
  simp only [Link.attend, bind_assoc, pure_bind] at reading
  exact reading

end Attempting

end Addressed

/-! ### All links -/

/-- **No transfer is empty**, whatever is asked of the banks of a link, in whatever order, and whatever
fails. A message that is refused counts as well: another bench, which does not refuse it, shows it.
Parallel lines carry nothing but levels, so nothing can be empty there. Over an addressed bus the
device may be gone, and the calls that fail are attempts too. A write without elements is one without
a payload, to the last step. -/
theorem no_empty_transfers :
    (∀ {advertised : Spi.Advertised} {layout : Spi.Layout} {mode : Spi.Mode}
        {selectorLine reset : Connection} {config : Spi.Config} {link : Spi.Link},
      Spi.Link.create advertised layout mode selectorLine reset config = .ok link →
        ∀ (calls : List (BankSettings × Spi.Access)) (bench : Bench), ∃ sent,
          ((link.channel.serve calls).run bench).2.messages = bench.messages ++ sent ∧
          ∀ message ∈ sent, (∀ segment ∈ message, segment.Filled) ∧ link.mode.payload message ≠ []) ∧
    (∀ (link : Parallel.Link) (calls : List (BankSettings × Spi.Access)) (memory : Parallel.Memory)
        (bench : Bench), ∃ events : List Event,
      (((link.channel.serve calls).run memory).run bench).2.log = events.reverse ++ bench.log ∧
      ∀ event ∈ events, Parallel.UsesLine event) ∧
    (∀ {m : Type → Type} [Monad m] [LawfulMonad m] [MonadLiftT BenchM m] {σ : Type}
        (execution : Addressed.Execution m σ) {master : Addressed.Master m}
        {earlier : Addressed.Registry} {slot : Nat} {reset : Connection} {link : Addressed.Link},
      Addressed.Link.bind earlier master slot reset = .ok link →
        ∀ (history : List Addressed.RegistryCall) (calls : List (BankSettings × Spi.Access))
          (journal : Addressed.Journal) (state : σ),
        let registry := Addressed.Registry.afterAll master.addressWidth history
        ∃ attempts after,
          execution.run ((((link.channel master.journaled).serve calls).run registry).run journal)
            state = ((((), registry), journal ++ attempts), after) ∧
          ∀ attempt ∈ attempts, attempt.call.Filled) ∧
    ∀ {m : Type → Type} [Monad m] (bank : RegisterBank m) (register : Nat) {request : WriteRequest},
      request.words.values = [] → bank.write register (some request) = bank.write register none := by
  refine ⟨fun created calls bench => ?_, fun link calls memory bench => ?_,
    fun execution _ _ _ _ _ bound history calls journal state => ?_, fun bank register _ empty => ?_⟩
  · exact Spi.Link.sendsOnly_serve (Spi.Link.checked_of_create created).2.1 calls bench
  · obtain ⟨events, ran, uses⟩ := Parallel.usesLine_serve link calls memory bench _ _ _ rfl
    exact ⟨events, ran.log, uses⟩
  · have serves : Addressed.AttemptsFilled execution _ _ :=
      Addressed.attemptsFilled_serve bound history calls
    obtain ⟨_, attempts, after, ran, filled⟩ := serves journal state
    exact ⟨attempts, after, ran, filled⟩
  · exact bank.write_of_empty register empty

/-- Calls with a payload, with an empty one and for two elements that are read, over the tightest SPI
link, whose fourth message is refused, and over an addressed bus of eight data lines. -/
theorem no_empty_transfers_tightLink :
    let bank : BankSettings := { readable := true }
    let nothing : WriteRequest := { words := .ofList .word [], width := some .bits9, address := 0 }
    let calls : List (BankSettings × Spi.Access) :=
      [(bank, .write 34 (some Spi.threeHalves)), (bank, .write 35 (some nothing)),
        (bank, .read 36 { element := .half, count := 2, width := some .bits16 })]
    let bench : Bench := { messageFails := fun attempt => attempt == 3 }
    let recorder : Addressed.Recorder := ⟨8, 8, true, true⟩
    let registry := Addressed.Registry.afterAll 8 [.enlist 16 4]
    let link : Addressed.Link := ⟨0, .absent, 8, true⟩
    (∃ sent, ((Spi.tightLink.channel.serve calls).run bench).2.messages = sent ∧ sent.length = 3 ∧
      ∀ message ∈ sent, (∀ segment ∈ message, segment.Filled) ∧
        Spi.tightLink.mode.payload message ≠ []) ∧
    Addressed.Link.bind registry recorder.master 0 .absent = .ok link ∧
    (∃ attempts after,
      Addressed.Execution.plain.withState.run
          ((((link.channel recorder.master.journaled).serve calls).run registry).run [])
          (bench, ()) = ((((), registry), attempts), after) ∧
        attempts.length = 13 ∧ ∀ attempt ∈ attempts, attempt.call.Filled) ∧
    (⟨Spi.tightLink.channel, bank⟩ : RegisterBank BenchM).write 35 (some nothing) =
      (⟨Spi.tightLink.channel, bank⟩ : RegisterBank BenchM).write 35 none := by
  intro bank nothing calls bench recorder registry link
  have created : Spi.Link.create { clock := 8000000, mask := .bytesOnly, canMap := true } .paged
      Spi.tightLink.mode .absent .absent Spi.tightLink.config = .ok Spi.tightLink := rfl
  have bound : Addressed.Link.bind registry recorder.master 0 .absent = .ok link := by
    decide +kernel
  obtain ⟨spi, -, addressed, empty⟩ := no_empty_transfers
  obtain ⟨sent, messages, filled⟩ := spi created calls bench
  obtain ⟨attempts, after, ran, filledToo⟩ :=
    addressed Addressed.Execution.plain.withState bound [.enlist 16 4] calls [] (bench, ())
  refine ⟨⟨sent, messages, ?_, filled⟩, bound, ⟨attempts, after, ran, ?_, filledToo⟩,
    empty _ 35 (show nothing.words.values = [] from rfl)⟩
  · have counted := congrArg List.length messages
    exact counted.symm.trans (by decide +kernel)
  · have counted := congrArg (fun ended => ended.1.2.length) ran
    exact counted.symm.trans (by decide +kernel)

end PanelLink
