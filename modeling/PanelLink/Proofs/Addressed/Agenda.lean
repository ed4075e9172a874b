/-
**What an access asks of the master of an addressed bus.**

An access selects its register and then moves its elements chunk by chunk, latching the address of
the phase before each chunk. A width that the bus does not carry is refused before its phase.

* `Agenda`: calls in order, and how an access ends if they all succeed;
* `agenda`: the agenda of an access, from its widths, its elements and the window alone;
* `Session.write_eq`, `sendPhase_agenda`, `receivePhase_agenda`: sessions and phases carry out their
  agendas, one lemma each;
* **`attend_eq`**: whatever the master does, an access carries out its agenda up to the first call
  that fails, and then latches address 0;
* `attend_of_absent`, `attend_of_not_served`: the accesses that make no call.
-/

import PanelLink.Proofs.Addressed.PhaseReads
import PanelLink.Proofs.Parallel.Coherence
import PanelLink.Proofs.Spi.WriteScript

namespace PanelLink

/-- What an access makes of a call that fails. -/
def MasterCall.fault : MasterCall → LinkFault
  | .latch _ => .addressLatch
  | .write _ => .bus
  | .read _ _ => .bus

namespace Addressed

open Parallel (Access)

/-! ### Errors told in other words -/

section Telling

variable {m : Type → Type} [Monad m] [LawfulMonad m] {ε ε' ε'' α β : Type}

theorem adapt_then (tell : ε → ε') (first : ExceptT ε m α) (next : α → ExceptT ε m β) :
    (first >>= next).adapt tell = first.adapt tell >>= fun value => (next value).adapt tell := by
  apply ExceptT.ext
  simp only [ExceptT.run_adapt, ExceptT.run_bind, map_bind, bind_map_left]
  congr 1
  funext outcome
  cases outcome with
  | ok value => rfl
  | error error => simp [Except.mapError]

theorem adapt_adapt (tell : ε → ε') (retell : ε' → ε'') (action : ExceptT ε m α) :
    (action.adapt tell).adapt retell = action.adapt fun error => retell (tell error) := by
  apply ExceptT.ext
  simp only [ExceptT.run_adapt, Functor.map_map]
  congr 1
  funext outcome
  cases outcome <;> rfl

theorem throw_then (error : ε) (next : α → ExceptT ε m β) :
    (throw error >>= next : ExceptT ε m β) = throw error := by
  apply ExceptT.ext
  simp

end Telling

/-! ### Agendas -/

/-- **What an access asks of a master**: calls in order, and how the access ends if they all
succeed. -/
structure Agenda where
  calls : List MasterCall
  ending : Except AccessError Unit

namespace Agenda

/-- An agenda and then another one, unless the first ends in an error. -/
def andThen (first next : Agenda) : Agenda :=
  match first.ending with
  | .ok () => ⟨first.calls ++ next.calls, next.ending⟩
  | .error _ => first

/-- The agenda of a phase that makes these calls, provided that the bus carries its width. -/
def ofPhase (dataWidth : Nat) (width : Width) (calls : List MasterCall) : Agenda :=
  if width.Carried dataWidth then ⟨calls, .ok ()⟩
  else ⟨[], .error (.invalidArgument .widthNotDivisible)⟩

theorem ofPhase_andThen {dataWidth : Nat} {width : Width} (carried : width.Carried dataWidth)
    (calls : List MasterCall) (next : Agenda) :
    (ofPhase dataWidth width calls).andThen next = ⟨calls ++ next.calls, next.ending⟩ := by
  rw [ofPhase, if_pos carried]
  rfl

theorem ofPhase_andThen_of_not_carried {dataWidth : Nat} {width : Width}
    (apart : ¬width.Carried dataWidth) (calls : List MasterCall) (next : Agenda) :
    (ofPhase dataWidth width calls).andThen next =
      ⟨[], .error (.invalidArgument .widthNotDivisible)⟩ := by
  rw [ofPhase, if_neg apart]
  rfl

end Agenda

/-- The calls of a phase: the address of the phase is latched before each chunk. -/
def Window.chunked (window : Window) (selector : Selector) (chunks : List MasterCall) :
    List MasterCall :=
  chunks.flatMap fun chunk => [.latch (window.latched (phaseOffset selector)), chunk]

/-- The run of words that selects a register. -/
def registerRun (dataWidth register : Nat) (width : Width) : Words :=
  if goesAsIs width.element width dataWidth then registerWord register width
  else Words.ofList (busElement dataWidth)
    (piecesOf (digitCount width dataWidth) dataWidth (width.element.truncate register))

/-- The chunks in which elements are read. -/
def readChunks (dataWidth : Nat) (request : ReadRequest) (width : Width) : List MasterCall :=
  if goesAsIs request.element width dataWidth then [.read request.element request.count]
  else (stageCounts (max (stageLength / digitCount width dataWidth) 1) request.count).map fun count =>
    .read (busElement dataWidth) (count * digitCount width dataWidth)

/-- The agenda of selecting a register: the first address of the window, and the register number. -/
def selection (dataWidth : Nat) (window : Window) (register : Nat) (width : Width) : Agenda :=
  .ofPhase dataWidth width [.latch window.address, .write (registerRun dataWidth register width)]

/-- **The agenda of an access.** -/
def agenda (dataWidth : Nat) (window : Window) : Access → Agenda
  | .write context register request =>
    (selection dataWidth window register context.width).andThen <|
      match WriteRequest.nonempty? request with
      | none => ⟨[], .ok ()⟩
      | some present =>
        let width := present.effectiveWidth context.width
        .ofPhase dataWidth width
          (window.chunked present.selector ((phaseWrites dataWidth present.words width).map .write))
  | .read context register request =>
    (selection dataWidth window register context.width).andThen <|
      let width := request.effectiveWidth context.width
      .ofPhase dataWidth width
        (window.chunked request.selector (readChunks dataWidth request width))

/-- The number of a register goes out as one run of words. -/
theorem phaseWrites_registerWord {dataWidth : Nat} (wired : 0 < dataWidth) (narrow : dataWidth ≤ 32)
    (register : Nat) (width : Width) :
    phaseWrites dataWidth (registerWord register width) width =
      [registerRun dataWidth register width] := by
  unfold phaseWrites registerRun
  by_cases native : goesAsIs width.element width dataWidth = true
  · rw [if_pos native]
    exact if_pos native
  · rw [if_neg native]
    refine (if_neg native).trans ?_
    -- The digits of one element fit the stage.
    have few : digitCount width dataWidth ≤ stageLength := by
      have bits := mul_digitCount_le width narrow
      have := Nat.le_mul_of_pos_left (digitCount width dataWidth) wired
      unfold stageLength
      omega
    have length : (piecesOf (digitCount width dataWidth) dataWidth
        (width.element.truncate register)).length = digitCount width dataWidth := by
      simp [piecesOf]
    have filled := List.ne_nil_of_length_pos (length ▸ digitCount_pos width dataWidth)
    have whole : portions stageLength ((registerWord register width).values.flatMap
          (piecesOf (digitCount width dataWidth) dataWidth)) =
        [piecesOf (digitCount width dataWidth) dataWidth (width.element.truncate register)] := by
      have fits := length.le.trans (few.trans (Nat.le_max_left stageLength 1))
      rw [registerWord, Words.values_ofList, List.map_singleton, List.flatMap_singleton,
        portions_of_ne_nil _ filled, List.take_of_length_le fits, List.drop_of_length_le fits,
        portions_nil]
    rw [stagedWrites, whole]
    rfl

@[simp] theorem Window.latched_command (window : Window) :
    window.latched (phaseOffset .command) = window.address := by
  simp [latched, phaseOffset]

/-! ### Carrying out an agenda -/

section Carrying

variable {m : Type → Type} [Monad m]

namespace Master

/-- One call, without the words that it reads. -/
def attempt (master : Master m) : MasterCall → m (Except MasterFailure Unit)
  | .latch address => (master.latchAddress address).run
  | .write words => (master.write words).run
  | .read element count => do
    let reading ← master.read element count
    return reading.outcome

/-- One call as part of an access. -/
def make (master : Master m) (call : MasterCall) : ExceptT AccessError m Unit :=
  (ExceptT.mk (master.attempt call)).adapt fun _ => .linkFailed call.fault

theorem run_make (master : Master m) (call : MasterCall) :
    (master.make call).run =
      Except.mapError (fun _ => .linkFailed call.fault) <$> master.attempt call :=
  ExceptT.run_adapt _ _

end Master

namespace Agenda

def carryOut (agenda : Agenda) (master : Master m) : ExceptT AccessError m Unit := do
  agenda.calls.forM master.make
  ExceptT.mk (pure agenda.ending)

/-- An agenda within a session, which ends by latching address 0. Of two errors the one of the agenda
stands. -/
def attend (agenda : Agenda) (master : Master m) : m (Except AccessError Unit) := do
  let outcome ← (agenda.carryOut master).run
  let closed ← (master.make (.latch 0)).run
  return outcome.bind fun _ => closed

end Agenda

/-- A master serves every write, and the reads if it can read. -/
def Master.Serves (master : Master m) : Access → Prop
  | .write _ _ _ => True
  | .read _ _ _ => master.readable = true

/-- How an access through a link ends. -/
def Link.attend (link : Link) (master : Master m) : Access → RegistryT m (Except AccessError Unit)
  | .write context register request => (link.write master context register request).run
  | .read context register request => do
    let reading ← link.read master context register request
    return reading.outcome

variable [LawfulMonad m] {master : Master m} {window : Window}

theorem Agenda.carryOut_andThen (first next : Agenda) (master : Master m) :
    (first.andThen next).carryOut master =
      first.carryOut master >>= fun _ => next.carryOut master := by
  obtain ⟨calls, ending⟩ := first
  cases ending with
  | ok =>
    have joined : (calls ++ next.calls).forM master.make =
        calls.forM master.make >>= fun _ => next.calls.forM master.make := List.forM_append
    show ((calls ++ next.calls).forM master.make >>= fun _ => _) =
      (calls.forM master.make >>= fun _ => pure ()) >>= fun _ => _
    rw [joined, bind_assoc, bind_pure]
    rfl
  | error error =>
    show (calls.forM master.make >>= fun _ => throw error) =
      (calls.forM master.make >>= fun _ => throw error) >>= fun _ => _
    rw [bind_assoc]
    simp only [throw_then]

theorem Agenda.run_carryOut (agenda : Agenda) (master : Master m) :
    (agenda.carryOut master).run =
      (fun outcome => outcome.bind fun _ => agenda.ending) <$>
        (agenda.calls.forM master.make).run := by
  unfold carryOut
  rw [ExceptT.run_bind, map_eq_pure_bind]
  refine bind_congr fun outcome => ?_
  cases outcome <;> rfl

theorem Agenda.carryOut_done (master : Master m) :
    (⟨[], .ok ()⟩ : Agenda).carryOut master = pure () :=
  pure_bind (m := ExceptT AccessError m) () _

/-- A phase whose width the bus carries makes its calls, chunk by chunk. -/
theorem carryOut_chunked {dataWidth : Nat} {width : Width} (carried : width.Carried dataWidth)
    (master : Master m) (selector : Selector) (chunks : List MasterCall) :
    (Agenda.ofPhase dataWidth width (window.chunked selector chunks)).carryOut master =
      chunks.forM fun chunk =>
        [.latch (window.latched (phaseOffset selector)), chunk].forM master.make := by
  rw [Agenda.ofPhase, if_pos carried, Agenda.carryOut, Window.chunked, forM_flatMap]
  exact bind_pure _

/-- A phase of any other width is refused. -/
theorem carryOut_of_not_carried {dataWidth : Nat} {width : Width} (apart : ¬width.Carried dataWidth)
    (master : Master m) (calls : List MasterCall) :
    (Agenda.ofPhase dataWidth width calls).carryOut master =
      throw (.invalidArgument .widthNotDivisible) := by
  rw [Agenda.ofPhase, if_neg apart]
  exact pure_bind () _

/-! ### Sessions -/

section Session

variable {offset : Nat}

theorem latchOffset_eq (held : window.holdsOffset offset = true) :
    onBus (Session.latchOffset ⟨master, window⟩ offset) =
      master.make (.latch (window.latched offset)) := by
  unfold Session.latchOffset
  rw [held]
  exact adapt_adapt _ _ _

/-- **Words written in a session** are two calls. -/
theorem Session.write_eq (writable : master.writable = true)
    (held : window.holdsOffset offset = true) (words : Words) :
    onBus (Session.write ⟨master, window⟩ offset words) =
      [.latch (window.latched offset), .write words].forM master.make := by
  unfold Session.write
  rw [show (Session.mk master window).master.writable = true from writable]
  have second : onBus ((master.write words).adapt fun _ => BusError.transferFailed) =
      master.make (.write words) := adapt_adapt _ _ _
  show onBus (Session.latchOffset ⟨master, window⟩ offset >>= fun _ => _) = _
  rw [onBus, adapt_then]
  show (onBus (Session.latchOffset ⟨master, window⟩ offset) >>= fun _ => onBus _) = _
  rw [latchOffset_eq held, second]
  show _ = master.make _ >>= fun _ => master.make (.write words) >>= fun _ => pure ()
  rw [bind_pure]

/-- **Words read in a session** are two calls. -/
theorem Session.read_eq (readable : master.readable = true)
    (held : window.holdsOffset offset = true) (element : Element) (count : Nat) :
    (fun reading => reading.outcome.mapError BusError.toAccess) <$>
        Session.read ⟨master, window⟩ offset element count =
      ([.latch (window.latched offset), .read element count].forM master.make).run := by
  have reads : (fun reading : Reading BusError => reading.outcome.mapError BusError.toAccess) <$>
      (master.read element count >>= fun reading =>
        pure (reading.mapError fun _ => .transferFailed)) =
      (master.make (.read element count)).run := by
    simp only [Master.make, Master.attempt, ExceptT.run_adapt, ExceptT.run_mk, map_bind, map_pure]
    refine bind_congr fun reading => ?_
    obtain ⟨values, outcome⟩ := reading
    cases outcome <;> rfl
  unfold Session.read
  rw [show (Session.mk master window).master.readable = true from readable]
  show _ = (master.make (.latch _) >>= fun _ => master.make (.read element count) >>= fun _ =>
    pure ()).run
  rw [bind_pure, ← latchOffset_eq held, ExceptT.run_bind, onBus, ExceptT.run_adapt, bind_map_left]
  show _ <$> ((Session.latchOffset ⟨master, window⟩ offset).run >>= _) = _
  rw [map_bind]
  refine bind_congr fun latched => ?_
  cases latched with
  | error error => exact map_pure _ _
  | ok => exact reads

end Session

/-! ### Phases -/

section Phases

/-- **A phase that is written** carries out its agenda. -/
theorem sendPhase_agenda (writable : master.writable = true) (wired : 0 < master.dataWidth)
    (held : ∀ selector, window.holdsOffset (phaseOffset selector) = true) (selector : Selector)
    (words : Words) (width : Width) :
    sendPhase ⟨master, window⟩ selector words width =
      (Agenda.ofPhase master.dataWidth width (window.chunked selector
        ((phaseWrites master.dataWidth words width).map .write))).carryOut master := by
  by_cases carried : width.Carried master.dataWidth
  · rw [sendPhase_eq ⟨master, window⟩ wired selector words carried, carryOut_chunked carried]
    simp only [Session.write_eq writable (held selector)]
    rw [List.forM_eq_forM, List.forM_eq_forM, List.forM_map]
  · have staged : ¬goesAsIs words.element width master.dataWidth = true :=
      fun native => carried (Or.inl (goesAsIs_iff.mp native).1)
    rw [carryOut_of_not_carried carried]
    unfold sendPhase
    dsimp only
    rw [if_neg staged, piecesPerElement_of_not_carried wired carried]
    show (throw _ >>= fun _ => _ : ExceptT AccessError m Unit) = _
    rw [throw_then]

/-- Reading stage by stage makes the calls of the stages. -/
theorem readStages_eq (readable : master.readable = true) {offset : Nat}
    (held : window.holdsOffset offset = true) (pieces : Nat) (counts : List Nat) :
    Reading.outcome <$> readStages ⟨master, window⟩ offset pieces counts =
      (counts.forM fun count => [.latch (window.latched offset),
        .read (busElement master.dataWidth) (count * pieces)].forM master.make).run := by
  induction counts with
  | nil => exact map_pure _ _
  | cons count counts ih =>
    refine Eq.trans ?_ (ExceptT.run_bind _ _).symm
    rw [← Session.read_eq readable held, bind_map_left]
    unfold readStages
    rw [map_bind]
    refine bind_congr fun stage => ?_
    obtain ⟨values, outcome⟩ := stage
    cases outcome with
    | error error => exact map_pure _ _
    | ok =>
      refine Eq.trans ?_ ih
      dsimp only
      rw [map_bind]
      simp only [map_pure]
      exact bind_pure_comp _ _

/-- **A phase that is read** carries out its agenda. -/
theorem receivePhase_agenda (readable : master.readable = true) (wired : 0 < master.dataWidth)
    (held : ∀ selector, window.holdsOffset (phaseOffset selector) = true) (request : ReadRequest)
    (width : Width) :
    Reading.outcome <$> receivePhase ⟨master, window⟩ request width =
      ((Agenda.ofPhase master.dataWidth width (window.chunked request.selector
        (readChunks master.dataWidth request width))).carryOut master).run := by
  by_cases native : goesAsIs request.element width master.dataWidth = true
  · rw [carryOut_chunked (Or.inl (goesAsIs_iff.mp native).1), receivePhase_native _ _ native,
      readChunks, if_pos native]
    show _ = ([MasterCall.latch _, _].forM master.make >>= fun _ => pure ()).run
    rw [bind_pure, ← Session.read_eq readable (held request.selector), map_bind]
    simp only [map_pure]
    exact bind_pure_comp _ _
  · by_cases carried : width.Carried master.dataWidth
    · rw [carryOut_chunked carried, receivePhase_staged _ _ wired carried native, readChunks,
        if_neg native, readStages_eq readable (held request.selector)]
      rw [List.forM_eq_forM, List.forM_eq_forM, List.forM_map]
    · rw [carryOut_of_not_carried carried]
      unfold receivePhase
      dsimp only
      rw [if_neg native, piecesPerElement_of_not_carried wired carried]
      exact map_pure _ _

end Phases

/-! ### Accesses -/

section Accesses

variable (writable : master.writable = true) (wired : 0 < master.dataWidth)
  (narrow : master.dataWidth ≤ 32)
  (held : ∀ selector, window.holdsOffset (phaseOffset selector) = true) (context : Context)
  (register : Nat)

include writable wired narrow held

/-- The phases that are written carry out their agendas. -/
theorem writePhases_agenda (request : Option WriteRequest) :
    Link.writePhases ⟨master, window⟩ context register request =
      (agenda master.dataWidth window (.write context register request)).carryOut master := by
  have selects : sendPhase ⟨master, window⟩ .command (registerWord register context.width)
      context.width = (selection master.dataWidth window register context.width).carryOut master := by
    rw [sendPhase_agenda writable wired held, phaseWrites_registerWord wired narrow, Window.chunked,
      List.map_singleton, List.flatMap_singleton, Window.latched_command]
    rfl
  unfold Link.writePhases
  dsimp only [agenda]
  rw [Agenda.carryOut_andThen, selects]
  refine bind_congr fun _ => ?_
  cases WriteRequest.nonempty? request with
  | none => exact (Agenda.carryOut_done master).symm
  | some present => exact sendPhase_agenda writable wired held _ _ _

/-- So do the phases of a read. -/
theorem readPhases_agenda (readable : master.readable = true) (request : ReadRequest) :
    Reading.outcome <$> readPhases context register request ⟨master, window⟩ =
      ((agenda master.dataWidth window (.read context register request)).carryOut master).run := by
  have selects : Link.writePhases ⟨master, window⟩ context register none =
      (selection master.dataWidth window register context.width).carryOut master := by
    rw [writePhases_agenda writable wired narrow held, agenda, Agenda.carryOut_andThen]
    exact (bind_congr fun _ => Agenda.carryOut_done master).trans (bind_pure _)
  rw [readPhases, selects, agenda, Agenda.carryOut_andThen, ExceptT.run_bind, map_bind]
  refine bind_congr fun selected => ?_
  cases selected with
  | error error => exact map_pure _ _
  | ok => exact receivePhase_agenda readable wired held request _

omit writable wired narrow held context register in
/-- A session is opened on the device in the slot of a link, if there is one. -/
theorem run_openSession (link : Link) (master : Master m) (registry : Registry) :
    (link.openSession master).run.run registry =
      pure ((registry.openSession master link.slot).mapError BusError.toAccess, registry) := by
  unfold Link.openSession
  show ((Except.ok <$> (get : RegistryT m Registry)) >>= _ : RegistryT m _).run registry = _
  rw [StateT.run_bind, StateT.run_map, StateT.run_get, map_pure, pure_bind]
  simp only [ExceptT.bindCont]
  cases registry.openSession master link.slot <;> rfl

omit writable wired narrow held in
/-- **An action in a session**, and the latch that ends it. -/
theorem inSession_eq (link : Link) {registry : Registry}
    (live : registry.window? link.slot = some window)
    (body : Session m → m (Reading AccessError)) :
    (link.inSession master body).run registry = (do
      let reading ← body ⟨master, window⟩
      let closed ← (master.make (.latch 0)).run
      return (reading.followedBy closed, registry)) := by
  have found : registry.openSession master link.slot = .ok ⟨master, window⟩ := by
    rw [Registry.openSession, live]
  have closes : onBus (Session.close ⟨master, window⟩) = master.make (.latch 0) := adapt_adapt _ _ _
  unfold Link.inSession
  rw [StateT.run_bind, run_openSession, found, pure_bind]
  dsimp only [Except.mapError]
  rw [closes]
  simp

omit [LawfulMonad m] writable wired narrow held in
theorem outcome_followedBy {ε : Type} (reading : Reading ε) (next : Except ε Unit) :
    (reading.followedBy next).outcome = reading.outcome.bind fun _ => next := by
  obtain ⟨values, outcome⟩ := reading
  cases outcome <;> rfl

omit writable wired narrow held in
/-- An action in a session that ends like an agenda attends to it. -/
theorem inSession_attend (link : Link) {registry : Registry}
    (live : registry.window? link.slot = some window) (body : Session m → m (Reading AccessError))
    {agenda : Agenda}
    (carries : Reading.outcome <$> body ⟨master, window⟩ = (agenda.carryOut master).run) :
    (link.inSession master body >>= fun reading => pure reading.outcome).run registry =
      (·, registry) <$> agenda.attend master := by
  rw [StateT.run_bind, inSession_eq link live, Agenda.attend, ← carries]
  simp [outcome_followedBy]

omit context register in
/-- **An access carries out its agenda**, whatever the master does, and then latches address 0. The
registry stays as it is. -/
theorem attend_eq {link : Link} (linked : link.readable = master.readable) {registry : Registry}
    (live : registry.window? link.slot = some window) {access : Access}
    (served : master.Serves access) :
    (link.attend master access).run registry =
      (·, registry) <$> (agenda master.dataWidth window access).attend master := by
  cases access with
  | write context register request =>
    refine inSession_attend link live _ ?_
    rw [writePhases_agenda writable wired narrow held context register request]
    simp
  | read context register request =>
    show (link.read master context register request >>= fun reading => pure reading.outcome).run
      registry = _
    rw [read_eq_inSession (linked.trans served)]
    exact inSession_attend link live _
      (readPhases_agenda writable wired narrow held context register served request)

end Accesses

/-! ### Accesses that make no call -/

section Refusals

variable {link : Link} {registry : Registry}

/-- In a slot without a device there is no session. -/
theorem run_inSession_of_absent (gone : registry.window? link.slot = none)
    (body : Session m → m (Reading AccessError)) :
    (link.inSession master body).run registry =
      pure (.failed BusError.noSuchDevice.toAccess, registry) := by
  have missing : registry.openSession master link.slot = .error .noSuchDevice := by
    rw [Registry.openSession, gone]
  unfold Link.inSession
  rw [StateT.run_bind, run_openSession, missing, pure_bind]
  rfl

/-- Nor is anything attempted there. -/
theorem attend_of_absent (gone : registry.window? link.slot = none) {access : Parallel.Access}
    (linked : link.readable = master.readable) (served : master.Serves access) :
    (link.attend master access).run registry =
      pure (.error BusError.noSuchDevice.toAccess, registry) := by
  have ended (body : Session m → m (Reading AccessError)) :
      (link.inSession master body >>= fun reading => pure reading.outcome).run registry =
        pure (.error BusError.noSuchDevice.toAccess, registry) := by
    rw [StateT.run_bind, run_inSession_of_absent gone, pure_bind]
    rfl
  cases access with
  | write context register request => exact ended _
  | read context register request =>
    show (link.read master context register request >>= fun reading => pure reading.outcome).run
      registry = _
    rw [read_eq_inSession (linked.trans served)]
    exact ended _

/-- A link over a master that cannot read refuses reads itself. -/
theorem attend_of_not_served {access : Parallel.Access} (linked : link.readable = master.readable)
    (refused : ¬master.Serves access) : link.attend master access = pure (.error .notReadable) := by
  cases access with
  | write context register request => exact absurd trivial refused
  | read context register request =>
    have deaf : link.readable = false := linked.trans (Bool.eq_false_of_not_eq_true refused)
    show (link.read master context register request >>= fun reading => pure reading.outcome) = _
    unfold Link.read
    rw [deaf]
    exact pure_bind _ _

end Refusals

end Carrying

end Addressed

end PanelLink
