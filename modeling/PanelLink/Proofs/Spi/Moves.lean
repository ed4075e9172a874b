/-
**A write as a list of moves.**

Nothing that the bench answers changes what a write does next, except that the first refusal ends it.
So a write is a list of moves and the verdict to which it comes when they all succeed.

* `Move`: one thing done to the bench, and what is let go of if it is refused;
* `Script`: moves and a verdict, and `Script.play`: the action that they make;
* `Script.run_of_accepts`: on a bench that accepts all its events a script comes to its verdict;
* `Script.run_of_refuses`: at its first refusal a script ends with the fault of that move, and nothing
  but releases follows.
-/

import PanelLink.Proofs.Bench.Refusals
import PanelLink.Spi.Link

namespace PanelLink.Spi

variable {ε ε' : Type}

/-! ### Moves -/

/-- One thing that a write does to the bench. A mapping or a message that is refused first lets go of
the mappings that are held by then. -/
inductive Move where
  | drive (name : LineName) (level : Bool)
  | map (slice : Slice) (handle : Handle) (held : List Handle)
  | transfer (segments : List Segment) (held : List Handle)
  | release (handle : Handle)

namespace Move

/-- What the move shows when it succeeds. -/
def event : Move → Event
  | drive name level => .line name (.set level) .done
  | map slice handle _ => .mapped slice (some handle)
  | transfer segments _ => .message segments
  | release handle => .unmapped handle

/-- The mappings that are let go of when the move is refused, in order. -/
def held : Move → List Handle
  | map _ _ held => held
  | transfer _ held => held
  | _ => []

/-- What the refusal itself shows. -/
def refusal (bench : Bench) : Move → List Event
  | drive name level => [.line name (.set level) .refused]
  | map slice _ _ => bench.refusedMapping slice
  | transfer _ _ => [.messageFailed]
  | release _ => []

end Move

/-- Releases mappings in order and ends with an error. -/
def abandon (held : List Handle) (error : ε) : ExceptT ε BenchM Unit := do
  held.forM fun handle => ExceptT.lift (unmapBuffer handle)
  throw error

/-- Goes on after a success, and releases what is held after a failure. -/
def orAbandon {α φ : Type} (held : List Handle) (error : ε) : Except φ α → ExceptT ε BenchM Unit
  | .ok _ => pure ()
  | .error _ => abandon held error

/-- Makes a move. A mapping or a message that is refused ends the write once everything held is
released. -/
def Move.perform (restate : LinkFault → ε) : Move → ExceptT ε BenchM Unit
  | drive name level => (setLine name level).adapt fun _ => restate .gpio
  | map slice handle held =>
    ExceptT.lift (mapBuffer (fun _ => handle) slice).run >>= orAbandon held (restate .dmaMapping)
  | transfer segments held =>
    ExceptT.lift (exchange segments).run >>= orAbandon held (restate .bus)
  | release handle => ExceptT.lift (unmapBuffer handle)

/-- Abandoning shows one release for each mapping held. -/
theorem run_abandon (held : List Handle) (error : ε) (bench : Bench) :
    ∃ after, (abandon held error).run.run bench = (.error error, after) ∧
      bench.Tried after (held.map .unmapped) := by
  induction held generalizing bench with
  | nil => exact ⟨bench, rfl, Bench.Tried.refl bench⟩
  | cons handle held ih =>
    obtain ⟨after, ran, tried⟩ := ih (bench.record (.unmapped handle))
    exact ⟨after, ran, (tried_unmap bench handle).trans tried⟩

/-- An action that cannot fail, as the first of two. -/
theorem run_lift_bind {α β : Type} (action : BenchM α) (next : α → ExceptT ε BenchM β)
    (bench : Bench) :
    (ExceptT.lift action >>= next).run.run bench =
      (next (action.run bench).1).run.run (action.run bench).2 := by
  rw [ExceptT.run_bind, StateT.run_bind]
  rfl

namespace Move

/-- **A move** succeeds and shows its event, or it is refused: then it shows the refusal, releases what
is held and ends with its fault. -/
theorem run_perform (restate : LinkFault → ε) (move : Move) (bench : Bench) :
    if bench.refuses [] move.event then
      ∃ after, (move.perform restate).run.run bench = (.error (restate move.event.fault), after) ∧
        bench.Tried after (move.refusal bench ++ move.held.map .unmapped)
    else
      ∃ after, (move.perform restate).run.run bench = (.ok (), after) ∧
        bench.Tried after [move.event] := by
  cases move with
  | drive name level =>
    have set := run_setLine bench name level
    show if bench.refuses [] (.line name (.set level) .done) then _ else _
    split at set
    · rename_i refused
      obtain ⟨after, ran, tried⟩ := set
      rw [if_pos refused]
      refine ⟨after, ?_, tried⟩
      rw [perform, ExceptT.run_adapt, StateT.run_map, ran]
      rfl
    · rename_i works
      obtain ⟨after, ran, tried⟩ := set
      rw [if_neg works]
      refine ⟨after, ?_, tried⟩
      rw [perform, ExceptT.run_adapt, StateT.run_map, ran]
      rfl
  | map slice handle held =>
    have mapped := run_mapBuffer_tried (fun _ => handle) bench slice
    show if bench.refuses [] (.mapped slice (some handle)) then _ else _
    split at mapped
    · rename_i refused
      obtain ⟨failure, middle, ran, tried⟩ := mapped
      obtain ⟨after, abandoned, triedToo⟩ := run_abandon held (restate _) middle
      rw [if_pos refused]
      refine ⟨after, ?_, tried.trans triedToo⟩
      rw [perform, run_lift_bind, ran]
      exact abandoned
    · rename_i works
      obtain ⟨after, ran, tried⟩ := mapped
      rw [if_neg works]
      refine ⟨after, ?_, tried⟩
      rw [perform, run_lift_bind, ran]
      rfl
  | transfer segments held =>
    have sent := run_exchange_tried bench segments
    show if bench.refuses [] (.message segments) then _ else _
    split at sent
    · rename_i refused
      obtain ⟨middle, ran, tried⟩ := sent
      obtain ⟨after, abandoned, triedToo⟩ := run_abandon held (restate _) middle
      rw [if_pos refused]
      refine ⟨after, ?_, tried.trans triedToo⟩
      rw [perform, run_lift_bind, ran]
      exact abandoned
    · rename_i works
      obtain ⟨received, after, ran, tried⟩ := sent
      rw [if_neg works]
      refine ⟨after, ?_, tried⟩
      rw [perform, run_lift_bind, ran]
      rfl
  | release handle => exact ⟨_, rfl, tried_unmap bench handle⟩

end Move

/-! ### Scripts -/

/-- Moves and the verdict to which they come when they all succeed. -/
structure Script (ε : Type) where
  moves : List Move
  verdict : Except ε Unit

namespace Script

/-- What the script shows when nothing is refused. -/
def events (script : Script ε) : List Event :=
  script.moves.map Move.event

/-- Makes the moves in order and then comes to the verdict. -/
def play (restate : LinkFault → ε) (script : Script ε) : ExceptT ε BenchM Unit := do
  script.moves.forM (Move.perform restate)
  ExceptT.mk (pure script.verdict)

/-- The second script after the first one, unless the first one's verdict is an error. -/
def andThen (script next : Script ε) : Script ε :=
  match script.verdict with
  | .ok () => { moves := script.moves ++ next.moves, verdict := next.verdict }
  | .error error => { moves := script.moves, verdict := .error error }

def mapError (restate : ε → ε') (script : Script ε) : Script ε' where
  moves := script.moves
  verdict := script.verdict.mapError restate

/-- The script with no moves. -/
def settled (verdict : Except ε Unit) : Script ε where
  moves := []
  verdict

/-- **On a bench that accepts all its events** a script comes to its verdict. -/
theorem run_of_accepts (restate : LinkFault → ε) (script : Script ε) {bench : Bench}
    (accepts : bench.Accepts script.events) :
    ∃ after, (script.play restate).run.run bench = (script.verdict, after) ∧
      bench.Tried after script.events := by
  obtain ⟨moves, verdict⟩ := script
  -- The later moves are made on the bench that the first one leaves, which accepts theirs.
  induction moves generalizing bench with
  | nil => exact ⟨bench, rfl, Bench.Tried.refl bench⟩
  | cons move moves ih =>
    have first := move.run_perform restate bench
    rw [accepts [] move.event (moves.map Move.event) rfl, if_neg Bool.false_ne_true] at first
    obtain ⟨middle, ran, tried⟩ := first
    obtain ⟨after, rest, triedRest⟩ := ih ((Bench.accepts_cons_iff tried _).mp accepts).2
    refine ⟨after, ?_, tried.trans triedRest⟩
    rw [← rest]
    show (StateT.run (ExceptT.run ((move.perform restate >>= fun _ => moves.forM _) >>= _)) bench) = _
    rw [bind_assoc, run_bind_ok ran]
    rfl

/-- **At its first refusal** a script ends with the fault of that move: the moves before it have been
made, and nothing but releases follows. -/
theorem run_of_refuses (restate : LinkFault → ε) (script : Script ε) {bench : Bench}
    {earlier later : List Move} {move : Move} (split : script.moves = earlier ++ move :: later)
    (accepts : bench.Accepts (earlier.map Move.event))
    (refused : bench.refuses (earlier.map Move.event) move.event = true) :
    ∃ after, (script.play restate).run.run bench = (.error (restate move.event.fault), after) ∧
      bench.Tried after
        (earlier.map Move.event ++ (move.refusal bench ++ move.held.map .unmapped)) := by
  obtain ⟨moves, verdict⟩ := script
  obtain rfl : moves = earlier ++ move :: later := split
  -- The bench moves along with the moves that are made, and its refusal of the last one with it.
  induction earlier generalizing bench with
  | nil =>
    have first := move.run_perform restate bench
    rw [show bench.refuses [] move.event = true from refused, if_pos rfl] at first
    obtain ⟨after, ran, tried⟩ := first
    refine ⟨after, ?_, tried⟩
    show (StateT.run (ExceptT.run ((move.perform restate >>= fun _ => later.forM _) >>= _)) bench) = _
    rw [bind_assoc, run_bind_error ran]
  | cons head earlier ih =>
    have first := head.run_perform restate bench
    rw [accepts [] head.event (earlier.map Move.event) rfl, if_neg Bool.false_ne_true] at first
    obtain ⟨middle, ran, tried⟩ := first
    have refusedLater : middle.refuses (earlier.map Move.event) move.event = true := by
      rw [tried.refuses_eq]
      exact refused
    obtain ⟨after, rest, triedRest⟩ :=
      ih ((Bench.accepts_cons_iff tried _).mp accepts).2 refusedLater
    have same : move.refusal middle = move.refusal bench := by
      cases move with
      | map slice handle held => rw [Move.refusal, Move.refusal, Bench.refusedMapping,
          Bench.refusedMapping, tried.withoutMapping]
      | _ => rfl
    rw [same] at triedRest
    refine ⟨after, ?_, tried.trans triedRest⟩
    rw [← rest]
    show (StateT.run (ExceptT.run ((head.perform restate >>= fun _ =>
      (earlier ++ move :: later).forM _) >>= _)) bench) = _
    rw [bind_assoc, run_bind_ok ran]
    rfl

/-- The events up to a refused one are those of the moves up to a refused one. -/
theorem split_events {script : Script ε} {earlier later : List Event} {event : Event}
    (split : script.events = earlier ++ event :: later) :
    ∃ before move after, script.moves = before ++ move :: after ∧
      before.map Move.event = earlier ∧ move.event = event := by
  obtain ⟨before, rest, moves, rfl, tail⟩ := List.map_eq_append_iff.mp split
  obtain ⟨move, after, rfl, rfl, -⟩ := List.map_eq_cons_iff.mp tail
  exact ⟨before, move, after, moves, rfl, rfl⟩

/-! ### Scripts in a row -/

theorem andThen_of_ok {script : Script ε} (succeeds : script.verdict = .ok ()) (next : Script ε) :
    script.andThen next = { moves := script.moves ++ next.moves, verdict := next.verdict } := by
  unfold andThen
  rw [succeeds]

theorem andThen_of_error {script : Script ε} {error : ε} (fails : script.verdict = .error error)
    (next : Script ε) : script.andThen next = script := by
  obtain ⟨moves, verdict⟩ := script
  cases fails
  rfl

theorem play_andThen (restate : LinkFault → ε) (script next : Script ε) :
    (script.andThen next).play restate = script.play restate >>= fun _ => next.play restate := by
  obtain ⟨moves, verdict⟩ := script
  cases verdict with
  | ok =>
    have joined : (moves ++ next.moves).forM (Move.perform restate) =
        moves.forM (Move.perform restate) >>= fun _ => next.moves.forM (Move.perform restate) :=
      List.forM_append
    show (moves ++ next.moves).forM (Move.perform restate) >>= _ = _
    rw [joined, bind_assoc, play, bind_assoc]
    rfl
  | error error =>
    show moves.forM (Move.perform restate) >>= _ = _
    rw [play, bind_assoc]
    rfl

/-- What scripts in a row show is shown by one of them. -/
theorem mem_events_andThen {script next : Script ε} {event : Event}
    (member : event ∈ (script.andThen next).events) :
    event ∈ script.events ∨ event ∈ next.events := by
  obtain ⟨moves, verdict⟩ := script
  cases verdict with
  | ok =>
    rw [show (andThen ⟨moves, .ok _⟩ next).events = moves.map Move.event ++ next.events from
      List.map_append] at member
    exact List.mem_append.mp member
  | error error => exact Or.inl member

/-! ### Errors told in other words -/

theorem adapt_bind {α β : Type} (tell : ε → ε') (first : ExceptT ε BenchM α)
    (next : α → ExceptT ε BenchM β) :
    (first >>= next).adapt tell = first.adapt tell >>= fun value => (next value).adapt tell := by
  refine ExceptT.ext (StateT.ext fun bench => ?_)
  rw [ExceptT.run_adapt, StateT.run_map]
  cases ran : first.run.run bench with
  | mk outcome middle =>
    have told : (first.adapt tell).run.run bench = (outcome.mapError tell, middle) := by
      rw [ExceptT.run_adapt, StateT.run_map, ran]
      rfl
    cases outcome with
    | ok value =>
      rw [run_bind_ok ran, run_bind_ok told, ExceptT.run_adapt, StateT.run_map]
    | error error =>
      rw [run_bind_error ran, run_bind_error told]
      rfl

theorem adapt_abandon (tell : ε → ε') (held : List Handle) (error : ε) :
    (abandon held error).adapt tell = abandon held (tell error) := by
  induction held with
  | nil => rfl
  | cons handle held ih =>
    have first (given : ε) : abandon (handle :: held) given =
        ExceptT.lift (unmapBuffer handle) >>= fun _ => abandon held given := bind_assoc _ _ _
    rw [first, adapt_bind, ih]
    exact (bind_assoc _ _ _).symm

theorem adapt_orAbandon {α φ : Type} (tell : ε → ε') (held : List Handle) (error : ε)
    (outcome : Except φ α) :
    (orAbandon held error outcome).adapt tell = orAbandon held (tell error) outcome := by
  cases outcome with
  | ok value => rfl
  | error failure => exact adapt_abandon tell held error

theorem adapt_perform (tell : ε → ε') (restate : LinkFault → ε) (move : Move) :
    (move.perform restate).adapt tell = move.perform (tell ∘ restate) := by
  cases move with
  | drive name level =>
    refine ExceptT.ext (StateT.ext fun bench => ?_)
    rw [Move.perform, Move.perform, ExceptT.run_adapt, ExceptT.run_adapt, ExceptT.run_adapt,
      StateT.run_map, StateT.run_map, StateT.run_map]
    rcases (setLine name level).run.run bench with ⟨failure | done, after⟩ <;> rfl
  | map slice handle held =>
    rw [Move.perform, adapt_bind]
    exact bind_congr fun outcome => adapt_orAbandon tell held _ outcome
  | transfer segments held =>
    rw [Move.perform, adapt_bind]
    exact bind_congr fun outcome => adapt_orAbandon tell held _ outcome
  | release handle => rfl

theorem adapt_play (tell : ε → ε') (restate : LinkFault → ε) (script : Script ε) :
    (script.play restate).adapt tell = (script.mapError tell).play (tell ∘ restate) := by
  obtain ⟨moves, verdict⟩ := script
  show ExceptT.adapt tell (moves.forM (Move.perform restate) >>= _) = _
  rw [adapt_bind]
  induction moves with
  | nil => rfl
  | cons move moves ih =>
    show ExceptT.adapt tell (Move.perform _ _ >>= fun _ => _) >>= _ =
      (Move.perform _ _ >>= fun _ => moves.forM _) >>= _
    rw [adapt_bind, bind_assoc, ih, adapt_perform, bind_assoc]
    rfl

end Script

end PanelLink.Spi
