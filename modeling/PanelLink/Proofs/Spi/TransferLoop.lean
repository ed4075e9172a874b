/-
**A block is sent by a loop that ends.**

A controller takes messages of a fixed number of segments, so a block is sent by two loops: the inner
one puts segments to a message until the message is full or the block used up, and the outer one sends
messages until nothing is left. Every place that has no room for one item more reports so, and each
loop may take a number of turns only.

* `whileDo`: a loop that may take a number of turns;
* `Link.fillLoop`, `Link.messageLoop`: the loops, with every check for room;
* `Link.addSegment_eq`, `Link.fillLoop_eq`: a turn of the inner loop and the whole of it are the moves
  of the segments that they take, and `Link.messageTurn_eq`, `Link.messageLoop_eq` those of the outer
  one;
* `Link.transferLoop_eq`: with a turn for each element the loops send the messages of the block;
* **`transfers_in_full_messages`**: they end on every bench, never for lack of room or of turns, and on
  a bench without faults the messages are full and cut as the limits allow.
-/

import Mathlib.Logic.Function.Iterate
import PanelLink.Proofs.Spi.Cutting
import PanelLink.Proofs.Spi.WriteEnds

namespace PanelLink.Spi

/-! ### Loops that may take a number of turns -/

/-- Why a loop ends before it has done everything. -/
inductive LoopStop where
  | failed (error : AccessError)
  /-- No turn is left. -/
  | outOfTurns
  deriving DecidableEq, Repr

abbrev LoopM := ExceptT LoopStop BenchM

/-- A loop that may take a number of turns. -/
def whileDo {σ : Type} (more : σ → Bool) (turn : σ → LoopM σ) : Nat → σ → LoopM σ
  | 0, state => if more state then throw .outOfTurns else return state
  | turns + 1, state =>
    if more state then do whileDo more turn turns (← turn state) else return state

theorem whileDo_of_done {σ : Type} {more : σ → Bool} {turn : σ → LoopM σ} {state : σ}
    (done : more state = false) (turns : Nat) : whileDo more turn turns state = pure state := by
  cases turns <;> exact if_neg (by rw [done]; exact Bool.false_ne_true)

theorem whileDo_of_more {σ : Type} {more : σ → Bool} {turn : σ → LoopM σ} {state : σ}
    (goes : more state = true) (turns : Nat) :
    whileDo more turn (turns + 1) state = turn state >>= whileDo more turn turns :=
  if_pos goes

/-! ### The loops of a block -/

/-- The items with one more at their end, if there is room for it in a message. -/
def push {α : Type} (items : List α) (item : α) : Option (List α) :=
  if items.length < messageSlots then some (items ++ [item]) else none

/-- Releases what was mapped, the latest first, and ends with an error. -/
def giveUp {α : Type} (held : List Handle) (error : AccessError) : LoopM α := do
  held.reverse.forM fun handle => unmapBuffer handle
  throw (.failed error)

/-- Maps one slice more and holds its mapping. -/
def hold (handleOf : Slice → Handle) (held : List Handle) (slice : Slice) :
    LoopM (Handle × List Handle) := do
  match ← (mapBuffer handleOf slice).run with
  | .error _ => giveUp held (.linkFailed .dmaMapping)
  | .ok handle =>
    match push held handle with
    | some holding => return (handle, holding)
    | none => do
      unmapBuffer handle
      giveUp held .resourceExhausted

/-- A message to which segments are put. -/
structure Filling where
  segments : List Segment
  /-- The mappings made for it, the latest last. -/
  held : List Handle
  /-- What is left of the block. -/
  rest : Block

/-- Whether one segment more is put to the message. -/
def Filling.goesOn (filling : Filling) : Bool :=
  filling.segments.length != messageSlots && !filling.rest.words.isEmpty

/-- Whether there is something left to send. -/
def Block.remains (block : Block) : Bool :=
  !block.words.isEmpty

theorem Block.remains_eq_true {block : Block} (filled : block.words.values ≠ []) :
    block.remains = true := by
  simp [remains, Words.isEmpty, filled]

theorem Block.remains_eq_false {block : Block} (empty : block.words.values = []) :
    block.remains = false := by
  simp [remains, Words.isEmpty, empty]

/-- Transfers a message, and releases its mappings whether or not it goes out. -/
def sendFilled (filling : Filling) : LoopM Block := do
  let sent ← (exchange filling.segments).run
  filling.held.reverse.forM fun handle => unmapBuffer handle
  match sent with
  | .error _ => throw (.failed (.linkFailed .bus))
  | .ok _ => return filling.rest

namespace Link

section Loops

variable (link : Link) (mapping : Bool) (clock : Option Nat)

/-- One turn of the inner loop: the next segment is put to the message. -/
def addSegment (filling : Filling) : LoopM Filling := do
  let slice := link.cutter.nextSlice filling.rest
  let (handle, held) ←
    if mapping then do
      let (handle, held) ← hold link.handleOf filling.held slice
      pure (some handle, held)
    else pure (none, filling.held)
  let segment : Segment :=
    { payload := .transmit slice.words, bits := filling.rest.bits, clock, mapping := handle }
  match push filling.segments segment with
  | some segments => return { segments, held, rest := link.cutter.rest filling.rest }
  | none => giveUp held .resourceExhausted

/-- Puts segments to a message until it is full or the block used up. -/
def fillLoop : Nat → Filling → LoopM Filling :=
  whileDo Filling.goesOn (link.addSegment mapping clock)

/-- One turn of the outer loop: a message is filled and sent. -/
def messageTurn (opening : Option Segment) (turns : Nat) (rest : Block) : LoopM Block := do
  let segments ← match opening with
    | none => pure []
    | some segment =>
      match push [] segment with
      | some segments => pure segments
      | none => giveUp [] .resourceExhausted
  let filling ← link.fillLoop mapping clock turns { segments, held := [], rest }
  sendFilled filling

end Loops

section Blocks

variable (link : Link) (selector : Selector) (clock : Option Nat) (block : Block) (turns : Nat)

/-- Sends messages until nothing is left of a block. -/
def messageLoop : Nat → Block → LoopM Block :=
  whileDo Block.remains (link.messageTurn (link.mapsBlock selector block) clock
    (link.opening selector false clock) turns)

/-- Sends a block by loops that may take a number of turns each. -/
def transferLoop : LoopM Unit := do
  let _ ← link.messageLoop selector clock block turns turns block

end Blocks

end Link

/-! ### Single moves of the loops -/

/-- The fault of a move that is refused, as the loops report it. -/
def LoopStop.ofFault (fault : LinkFault) : LoopStop :=
  .failed (.linkFailed fault)

theorem forM_perform_append (first next : List Move) :
    (first ++ next).forM (Move.perform LoopStop.ofFault) =
      first.forM (Move.perform .ofFault) >>= fun _ => next.forM (Move.perform .ofFault) :=
  List.forM_append

theorem push_of_room {α : Type} {items : List α} (room : items.length < messageSlots) (item : α) :
    push items item = some (items ++ [item]) :=
  if_pos room

theorem abandon_bind {α : Type} (held : List Handle) (error : AccessError) (next : Unit → LoopM α) :
    abandon held.reverse (LoopStop.failed error) >>= next = giveUp held error := by
  unfold abandon giveUp
  rw [bind_assoc]
  rfl

/-- What follows a mapping need only be known for the handle of its slice. -/
theorem mapBuffer_bind_congr {α : Type} (handleOf : Slice → Handle) (slice : Slice)
    {next other : Except MappingFailure Handle → LoopM α}
    (made : next (.ok (handleOf slice)) = other (.ok (handleOf slice)))
    (failed : ∀ failure, next (.error failure) = other (.error failure)) :
    (ExceptT.lift (mapBuffer handleOf slice).run >>= next) =
      ExceptT.lift (mapBuffer handleOf slice).run >>= other := by
  refine ExceptT.ext (StateT.ext fun bench => ?_)
  rw [run_lift_bind, run_lift_bind]
  cases mapped : (mapBuffer handleOf slice).run.run bench with
  | mk outcome middle =>
    cases outcome with
    | error failure => exact congrArg (fun action => action.run.run middle) (failed failure)
    | ok handle =>
      obtain ⟨rfl, -⟩ := log_mapBuffer handleOf mapped
      exact congrArg (fun action => action.run.run middle) made

/-- A mapping for which there is room is a move. -/
theorem hold_eq (handleOf : Slice → Handle) {held : List Handle}
    (room : held.length < messageSlots) (slice : Slice) :
    hold handleOf held slice =
      (Move.map slice (handleOf slice) held.reverse).perform .ofFault >>= fun _ =>
        pure (handleOf slice, held ++ [handleOf slice]) := by
  unfold hold Move.perform
  rw [bind_assoc]
  refine mapBuffer_bind_congr handleOf slice ?_ fun failure => (abandon_bind held _ _).symm
  dsimp only
  rw [push_of_room room]
  rfl

/-- A message and the releases that follow it are moves. -/
theorem sendFilled_eq (filling : Filling) :
    sendFilled filling =
      (Move.transfer filling.segments filling.held.reverse ::
          filling.held.reverse.map .release).forM (Move.perform .ofFault) >>= fun _ =>
        pure filling.rest := by
  have releases : (filling.held.reverse.map Move.release).forM (Move.perform LoopStop.ofFault) =
      filling.held.reverse.forM fun handle => ExceptT.lift (unmapBuffer handle) := List.forM_map
  show _ = (Move.perform _ _ >>= fun _ => (filling.held.reverse.map Move.release).forM _) >>= _
  rw [releases, Move.perform, bind_assoc, bind_assoc]
  refine bind_congr fun sent => ?_
  cases sent with
  | error failure => exact (abandon_bind filling.held _ _).symm
  | ok received => rfl

/-! ### The inner loop -/

section Filling

variable (link : Link) (mapping : Bool) (clock : Option Nat)

/-- A segment of a block on its way. -/
def Link.segmentOf (bits : Nat) (slice : Slice) : Segment where
  payload := .transmit slice.words
  bits
  clock
  mapping := if mapping then some (link.handleOf slice) else none

/-- The message with the next segments put to it. -/
def Filling.put (filling : Filling) (slices : List Slice) : Filling where
  segments := filling.segments ++ slices.map (link.segmentOf mapping clock filling.rest.bits)
  held := filling.held ++ if mapping then slices.map link.handleOf else []
  rest := link.cutter.rest^[slices.length] filling.rest

/-- The moves that put segments to a message. -/
def Filling.moves (filling : Filling) (slices : List Slice) : List Move :=
  if mapping then mapMoves link.handleOf filling.held.reverse slices else []

/-- No more mappings are held than segments were put. -/
def Filling.Sound (filling : Filling) : Prop :=
  filling.held.length ≤ filling.segments.length ∧ filling.segments.length ≤ messageSlots

theorem Filling.put_nil (filling : Filling) : filling.put link mapping clock [] = filling := by
  obtain ⟨segments, held, rest⟩ := filling
  cases mapping <;> simp [put]

theorem Filling.put_cons (filling : Filling) (slice : Slice) (slices : List Slice) :
    (filling.put link mapping clock [slice]).put link mapping clock slices =
      filling.put link mapping clock (slice :: slices) := by
  cases mapping <;> simp [put, Cutter.rest, Block.dropFirst]

theorem Filling.moves_cons (filling : Filling) (slice : Slice) (slices : List Slice) :
    filling.moves link mapping [slice] ++
        (filling.put link mapping clock [slice]).moves link mapping slices =
      filling.moves link mapping (slice :: slices) := by
  cases mapping <;> simp [put, moves, mapMoves]

variable {filling : Filling}

theorem Filling.Sound.put (sound : filling.Sound) (room : filling.segments.length < messageSlots)
    (slice : Slice) : (filling.put link mapping clock [slice]).Sound := by
  obtain ⟨fewer, -⟩ := sound
  cases mapping <;> simp [Sound, Filling.put] <;> omega

/-- **One turn of the inner loop** finds room. -/
theorem Link.addSegment_eq (sound : filling.Sound) (room : filling.segments.length < messageSlots) :
    link.addSegment mapping clock filling =
      (filling.moves link mapping [link.cutter.nextSlice filling.rest]).forM
          (Move.perform .ofFault) >>= fun _ =>
        pure (filling.put link mapping clock [link.cutter.nextSlice filling.rest]) := by
  have roomHeld : filling.held.length < messageSlots := Nat.lt_of_le_of_lt sound.1 room
  unfold addSegment
  cases mapping with
  | false =>
    dsimp only
    rw [if_neg Bool.false_ne_true, pure_bind, push_of_room room]
    simp [Filling.moves, Filling.put, segmentOf]
  | true =>
    dsimp only
    rw [if_pos rfl, hold_eq link.handleOf roomHeld]
    simp [push_of_room room, Filling.moves, Filling.put, segmentOf, mapMoves]

/-- The segments that the inner loop takes: as many as there is room for. -/
def Filling.upcoming (filling : Filling) : List Slice :=
  (link.cutter.slices filling.rest).take (messageSlots - filling.segments.length)

/-- Nothing is put to a message that is full, or once the block is used up. -/
theorem Filling.upcoming_of_done
    (done : filling.segments.length = messageSlots ∨ filling.rest.words.values = []) :
    filling.upcoming link = [] := by
  unfold upcoming
  rcases done with full | empty
  · rw [full, Nat.sub_self, List.take_zero]
  · rw [Cutter.slices_of_eq_nil empty, List.take_nil]

theorem Filling.upcoming_of_more (room : filling.segments.length < messageSlots)
    (filled : filling.rest.words.values ≠ []) :
    filling.upcoming link = link.cutter.nextSlice filling.rest ::
      (filling.put link mapping clock [link.cutter.nextSlice filling.rest]).upcoming link := by
  obtain ⟨left, slots⟩ : ∃ left, messageSlots - filling.segments.length = left + 1 :=
    ⟨messageSlots - filling.segments.length - 1, by omega⟩
  have fewer : messageSlots - (filling.segments.length + 1) = left := by omega
  rw [upcoming, slots, Cutter.slices_eq_cons filled, List.take_succ_cons]
  simp [upcoming, put, fewer]

theorem Link.fillLoop_of_done
    (done : filling.segments.length = messageSlots ∨ filling.rest.words.values = [])
    (turns : Nat) :
    link.fillLoop mapping clock turns filling =
      (filling.moves link mapping (filling.upcoming link)).forM (Move.perform .ofFault) >>= fun _ =>
        pure (filling.put link mapping clock (filling.upcoming link)) := by
  have stops : filling.goesOn = false := by
    rcases done with full | empty
    · simp [Filling.goesOn, full]
    · simp [Filling.goesOn, Words.isEmpty, empty]
  rw [fillLoop, whileDo_of_done stops, Filling.upcoming_of_done link done, Filling.put_nil]
  cases mapping <;> exact (pure_bind _ _).symm

/-- **The inner loop** puts the segments to the message for which there is room. It ends with a turn
for each element. -/
theorem Link.fillLoop_eq {turns : Nat} (sound : filling.Sound)
    (enough : filling.rest.words.length ≤ turns) :
    link.fillLoop mapping clock turns filling =
      (filling.moves link mapping (filling.upcoming link)).forM (Move.perform .ofFault) >>= fun _ =>
        pure (filling.put link mapping clock (filling.upcoming link)) := by
  induction turns generalizing filling with
  | zero =>
    have empty : filling.rest.words.values = [] := List.length_eq_zero_iff.mp (Nat.le_zero.mp enough)
    exact link.fillLoop_of_done mapping clock (Or.inr empty) 0
  | succ turns ih =>
    by_cases done : filling.segments.length = messageSlots ∨ filling.rest.words.values = []
    · exact link.fillLoop_of_done mapping clock done _
    obtain ⟨notFull, filled⟩ := not_or.mp done
    have room : filling.segments.length < messageSlots := Nat.lt_of_le_of_ne sound.2 notFull
    have goes : filling.goesOn = true := by
      simp [Filling.goesOn, notFull, Words.isEmpty, filled]
    have shorter : (link.cutter.rest filling.rest).words.length < filling.rest.words.length :=
      Cutter.length_rest_lt filled
    have later := ih (sound.put link mapping clock room (link.cutter.nextSlice filling.rest))
      (Nat.le_of_lt_succ (Nat.lt_of_lt_of_le shorter enough))
    rw [filling.upcoming_of_more link mapping clock room filled,
      ← filling.put_cons link mapping clock _ (Filling.upcoming link _),
      ← filling.moves_cons link mapping clock _ (Filling.upcoming link _), forM_perform_append,
      bind_assoc, fillLoop, whileDo_of_more goes, link.addSegment_eq mapping clock sound room,
      bind_assoc]
    refine bind_congr fun _ => ?_
    rw [pure_bind]
    exact later

end Filling

/-! ### The outer loop -/

namespace Cutter

variable (cutter : Cutter) (block : Block)

theorem slices_iterate_rest (count : Nat) :
    cutter.slices (cutter.rest^[count] block) = (cutter.slices block).drop count := by
  induction count generalizing block with
  | zero => rfl
  | succ count ih =>
    rw [Function.iterate_succ_apply, ih]
    by_cases empty : block.words.values = []
    · have none : (cutter.rest block).words.values = [] := by
        show block.words.values.drop _ = []
        rw [empty, List.drop_nil]
      rw [slices_of_eq_nil none, slices_of_eq_nil empty, List.drop_nil, List.drop_nil]
    · rw [slices_eq_cons empty, List.drop_succ_cons]

theorem length_iterate_rest_le (count : Nat) :
    (cutter.rest^[count] block).words.length ≤ block.words.length := by
  induction count generalizing block with
  | zero => exact Nat.le_refl _
  | succ count ih =>
    rw [Function.iterate_succ_apply]
    refine Nat.le_trans (ih _) ?_
    rw [length_rest]
    exact Nat.sub_le _ _

theorem length_iterate_rest_lt {block : Block} (filled : block.words.values ≠ []) {count : Nat}
    (positive : 0 < count) : (cutter.rest^[count] block).words.length < block.words.length := by
  obtain ⟨further, rfl⟩ : ∃ further, count = further + 1 := ⟨count - 1, by omega⟩
  rw [Function.iterate_succ_apply]
  exact Nat.lt_of_le_of_lt (cutter.length_iterate_rest_le _ further) (length_rest_lt filled)

theorem bits_iterate_rest (count : Nat) : (cutter.rest^[count] block).bits = block.bits := by
  induction count generalizing block with
  | zero => rfl
  | succ count ih =>
    rw [Function.iterate_succ_apply, ih]
    rfl

end Cutter

namespace Link

variable (link : Link) (selector : Selector) (clock : Option Nat) (block : Block)

/-- The messages of what is left of a block. -/
def messagesFrom (rest : Block) : List (List Slice) :=
  link.cutter.messages (link.opening selector false clock).isSome rest

variable {rest : Block}

/-- **A message** of the loops takes the segments for which there is room. -/
theorem messageTurn_eq (same : rest.bits = block.bits) {turns : Nat}
    (enough : rest.words.length ≤ turns) :
    let taken := (link.cutter.slices rest).take
      (Cutter.slots (link.opening selector false clock).isSome)
    link.messageTurn (link.mapsBlock selector block) clock (link.opening selector false clock) turns
        rest =
      (link.messageMoves { selector, clock, block, slices := taken }).forM (Move.perform .ofFault) >>=
        fun _ => pure (link.cutter.rest^[taken.length] rest) := by
  intro taken
  have fills (segments : List Segment)
      (opened : segments = (link.opening selector false clock).toList) :
      link.fillLoop (link.mapsBlock selector block) clock turns { segments, held := [], rest } >>=
          sendFilled =
        (link.messageMoves { selector, clock, block, slices := taken }).forM (Move.perform .ofFault) >>=
          fun _ => pure (link.cutter.rest^[taken.length] rest) := by
    have few : segments.length ≤ messageSlots := by
      rw [opened]
      cases link.opening selector false clock <;> simp [messageSlots]
    have upcoming : Filling.upcoming link { segments, held := [], rest } = taken := by
      unfold Filling.upcoming
      rw [opened]
      cases opening : link.opening selector false clock <;> simp [taken, opening, Cutter.slots]
    rw [link.fillLoop_eq _ clock ⟨Nat.zero_le _, few⟩ enough, upcoming, bind_assoc]
    simp only [pure_bind, sendFilled_eq]
    rw [← bind_assoc, ← forM_perform_append]
    refine congrArg (· >>= fun _ => pure (link.cutter.rest^[taken.length] rest))
      (congrArg (List.forM · (Move.perform LoopStop.ofFault)) ?_)
    unfold messageMoves Link.segments Filling.moves Filling.put segmentOf
    rw [opened, ← same]
    cases link.mapsBlock selector block <;> simp [Link.handles]
  unfold messageTurn
  cases opening : link.opening selector false clock with
  | none =>
    rw [opening] at fills
    exact fills [] rfl
  | some segment =>
    rw [opening] at fills
    exact fills [segment] rfl

/-- The messages of what is left are the next one and those behind it. -/
theorem messagesFrom_eq_cons (filled : rest.words.values ≠ []) :
    let taken := (link.cutter.slices rest).take
      (Cutter.slots (link.opening selector false clock).isSome)
    0 < taken.length ∧ link.messagesFrom selector clock rest =
      taken :: link.messagesFrom selector clock (link.cutter.rest^[taken.length] rest) := by
  intro taken
  have some_slice : link.cutter.slices rest ≠ [] := by
    rw [Cutter.slices_eq_cons filled]
    exact List.cons_ne_nil _ _
  have slots := Cutter.slots_pos (link.opening selector false clock).isSome
  have length : taken.length = min _ (link.cutter.slices rest).length := List.length_take
  refine ⟨?_, ?_⟩
  · have := List.length_pos_iff.mpr some_slice
    omega
  · have behind : (link.cutter.slices rest).drop taken.length = (link.cutter.slices rest).drop
        (Cutter.slots (link.opening selector false clock).isSome) := by
      rcases Nat.le_total (Cutter.slots (link.opening selector false clock).isSome)
        (link.cutter.slices rest).length with long | short
      · rw [length, Nat.min_eq_left long]
      · rw [length, Nat.min_eq_right short, List.drop_length, List.drop_of_length_le short]
    unfold messagesFrom Cutter.messages
    rw [Cutter.slices_iterate_rest, behind, portions_of_ne_nil _ some_slice]
    show (link.cutter.slices rest).take (max (Cutter.slots _) 1) ::
      portions _ ((link.cutter.slices rest).drop (max (Cutter.slots _) 1)) = _
    rw [Nat.max_eq_left slots]

/-- Nothing is left to send. -/
theorem messageLoop_of_done (empty : rest.words.values = []) (turns left : Nat) :
    (link.messageLoop selector clock block turns left rest >>= fun _ => pure ()) =
      ((link.messagesFrom selector clock rest).flatMap fun slices =>
        link.messageMoves { selector, clock, block, slices }).forM (Move.perform .ofFault) := by
  rw [messageLoop, whileDo_of_done (Block.remains_eq_false empty), messagesFrom, Cutter.messages,
    Cutter.slices_of_eq_nil empty, portions_nil]
  rfl

/-- **The outer loop** sends the messages of what is left. -/
theorem messageLoop_eq {turns left : Nat} (same : rest.bits = block.bits)
    (enough : rest.words.length ≤ left) (inner : left ≤ turns) :
    (link.messageLoop selector clock block turns left rest >>= fun _ => pure ()) =
      ((link.messagesFrom selector clock rest).flatMap fun slices =>
        link.messageMoves { selector, clock, block, slices }).forM (Move.perform .ofFault) := by
  induction left generalizing rest with
  | zero =>
    have empty : rest.words.values = [] := List.length_eq_zero_iff.mp (Nat.le_zero.mp enough)
    exact link.messageLoop_of_done selector clock block empty turns 0
  | succ left ih =>
    by_cases empty : rest.words.values = []
    · exact link.messageLoop_of_done selector clock block empty turns _
    obtain ⟨positive, messages⟩ := link.messagesFrom_eq_cons selector clock empty
    have shorter := link.cutter.length_iterate_rest_lt empty positive
    rw [messageLoop, whileDo_of_more (Block.remains_eq_true empty), bind_assoc,
      link.messageTurn_eq selector clock block same (Nat.le_trans enough inner), messages,
      List.flatMap_cons, forM_perform_append, bind_assoc]
    refine bind_congr fun _ => ?_
    rw [pure_bind]
    exact ih ((link.cutter.bits_iterate_rest rest _).trans same)
      (Nat.le_of_lt_succ (Nat.lt_of_lt_of_le shorter enough)) (Nat.le_of_succ_le inner)

/-- The script of a block. -/
def blockScript (link : Link) (selector : Selector) (clock : Option Nat) (block : Block) :
    Script AccessError where
  moves := (link.outgoing selector clock block).flatMap link.messageMoves
  verdict := .ok ()

theorem sendBlock_eq_play (link : Link) (selector : Selector) (clock : Option Nat) (block : Block) :
    link.sendBlock selector clock block =
      (link.blockScript selector clock block).play .linkFailed :=
  (link.sendBlock_eq selector clock block).trans (bind_pure _).symm

/-- **The loops send the messages of the block**, with a turn for each of its elements or more. -/
theorem transferLoop_eq (link : Link) (selector : Selector) (clock : Option Nat) {block : Block}
    {turns : Nat} (enough : block.words.length ≤ turns) :
    link.transferLoop selector clock block turns =
      (link.sendBlock selector clock block).adapt .failed := by
  rw [sendBlock_eq_play, Script.adapt_play]
  refine Eq.trans (link.messageLoop_eq selector clock block rfl enough (Nat.le_refl _)) ?_
  rw [messagesFrom, ← List.flatMap_map]
  exact (bind_pure _).symm

/-! ### How the loops end -/

/-- The messages of a block, as the controller is given them. -/
theorem messagesIn_blockScript (link : Link) (selector : Selector) (clock : Option Nat)
    (block : Block) :
    messagesIn (link.blockScript selector clock block).events =
      (link.messagesFrom selector clock block).map fun slices =>
        link.segments { selector, clock, block, slices } := by
  unfold Script.events blockScript
  rw [List.map_flatMap, messagesIn_flatMap, messagesFrom, outgoing, List.flatMap_map,
    List.map_eq_flatMap]
  exact List.flatMap_congr fun slices _ =>
    link.messagesIn_messageMoves { selector, clock, block, slices }

theorem canMap_of_mem_blockScript (link : Link) {selector : Selector} {clock : Option Nat}
    {block : Block} {event : Event}
    (member : event ∈ (link.blockScript selector clock block).events)
    (maps : event.triesMapping = true) : link.canMap = true := by
  obtain ⟨move, inMoves, rfl⟩ := List.mem_map.mp member
  obtain ⟨outgoing, -, inMessage⟩ := List.mem_flatMap.mp inMoves
  exact link.canMap_of_mem_messageMoves inMessage maps

/-- The opening byte and the segments of a block that fit beside it are a full message. -/
theorem length_segments (link : Link) (outgoing : Outgoing) :
    (link.segments outgoing).length + Cutter.slots
        (link.opening outgoing.selector false outgoing.clock).isSome =
      outgoing.slices.length + messageSlots := by
  unfold segments
  rw [List.length_append, List.length_map]
  cases link.opening outgoing.selector false outgoing.clock with
  | none => exact congrArg (· + messageSlots) (Nat.zero_add _)
  | some segment =>
    simp only [Option.toList_some, List.length_singleton, Option.isSome_some, Cutter.slots, if_true,
      messageSlots]
    omega

end Link

/-- A script comes to its verdict, or it ends with the fault of a refusal. -/
theorem Script.outcome_of_play {ε : Type} (restate : LinkFault → ε) (script : Script ε)
    (bench : Bench) :
    ((script.play restate).run.run bench).1 = script.verdict ∨
      ∃ fault, ((script.play restate).run.run bench).1 = .error (restate fault) := by
  rcases bench.accepts_or_refuses script.events with
    accepts | ⟨earlier, event, later, split, accepts, refused⟩
  · obtain ⟨after, ran, -⟩ := script.run_of_accepts restate accepts
    exact Or.inl (congrArg Prod.fst ran)
  · obtain ⟨before, move, rest, moves, rfl, rfl⟩ := split_events split
    obtain ⟨after, ran, -⟩ := script.run_of_refuses restate moves accepts refused
    exact Or.inr ⟨_, congrArg Prod.fst ran⟩

/-- **A block is sent in full messages by loops that end.** A turn for each element is enough, on any
bench and whatever is planned to fail: the loops do what sending the block does, and they end in
success or with the fault of a refusal, so none of the places for items of a message ever lacks room.
On a bench without faults they succeed. The messages then have one segment or more besides the opening
byte and no more than a controller takes, all but the last of them exactly as many, and the segments are
those of the block, one behind the other in memory and each as long as the limits allow. -/
theorem transfers_in_full_messages {advertised : Advertised} {layout : Layout} {mode : Mode}
    {selectorLine reset : Connection} {config : Config} {link : Link}
    (created : Link.create advertised layout mode selectorLine reset config = .ok link)
    (selector : Selector) (clock : Option Nat) (block : Block) {turns : Nat}
    (enough : block.words.length ≤ turns) :
    link.transferLoop selector clock block turns =
        (link.sendBlock selector clock block).adapt .failed ∧
      ∀ bench,
        (((link.transferLoop selector clock block turns).run.run bench).1 = .ok () ∨
          ∃ fault, ((link.transferLoop selector clock block turns).run.run bench).1 =
            .error (.failed (.linkFailed fault))) ∧
        (bench.Faultless link.canMap → ∃ (messages : List (List Slice)) (after : Bench),
          (link.transferLoop selector clock block turns).run.run bench = (.ok (), after) ∧
          after.messages = bench.messages ++ messages.map (fun slices =>
            link.segments { selector, clock, block, slices }) ∧
          (∀ slices ∈ messages, slices ≠ [] ∧
            (link.segments { selector, clock, block, slices }).length ≤ messageSlots) ∧
          (∀ slices ∈ messages.dropLast,
            (link.segments { selector, clock, block, slices }).length = messageSlots) ∧
          messages.flatten = Slice.consecutive block.address (messages.flatten.map Slice.words) ∧
          link.cutter.Cuts block (messages.flatten.map Slice.words)) := by
  have loops := link.transferLoop_eq selector clock enough
  have plays : link.transferLoop selector clock block turns =
      ((link.blockScript selector clock block).mapError LoopStop.failed).play .ofFault := by
    rw [loops, Link.sendBlock_eq_play, Script.adapt_play]
    rfl
  refine ⟨loops, fun bench => ⟨?_, fun faultless => ?_⟩⟩
  · rw [plays]
    exact Script.outcome_of_play LoopStop.ofFault _ bench
  · have roomy : 4 ≤ link.cutter.segmentLimit := (Link.checked_of_create created).2.1
    have slots := Cutter.slots_pos (link.opening selector false clock).isSome
    obtain ⟨after, ran, tried⟩ := Script.run_of_accepts LoopStop.ofFault
      ((link.blockScript selector clock block).mapError LoopStop.failed)
      (faultless.accepts fun event member => link.canMap_of_mem_blockScript member)
    refine ⟨link.messagesFrom selector clock block, after, plays ▸ ran, ?_, fun slices member => ?_,
      fun slices member => ?_, ?_⟩
    · rw [← link.messagesIn_blockScript]
      exact messages_of_tried tried
    · have length := link.length_segments { selector, clock, block, slices }
      have few := length_le_of_mem_portions slots member
      exact ⟨ne_nil_of_mem_portions member, by dsimp only at length; omega⟩
    · have length := link.length_segments { selector, clock, block, slices }
      have full := length_of_mem_dropLast_portions slots member
      dsimp only [Cutter.slots] at length full
      omega
    · have joined : (link.messagesFrom selector clock block).flatten = link.cutter.slices block :=
        flatten_portions _ _
      rw [joined, Cutter.slices, Slice.map_words_consecutive]
      exact ⟨rfl, Cutter.cuts_runs roomy block⟩

/-- Twelve bytes over a link that opens its messages with a byte and takes segments of four bytes. -/
theorem transfers_in_full_messages_opened :
    let link : Link :=
      { mode := .opened .alternate, selectorLine := .absent, reset := .absent
        config := { segmentLimit := 4, splitsAtPages := true }
        mask := .bytesOnly, clock := 10000000, canMap := false
        handleOf := Slice.inPlace, layout := .paged }
    let block : Block :=
      { words := .ofList .byte (List.range 12), bits := 8, address := 4094 }
    Link.create { clock := 10000000, mask := .bytesOnly, canMap := false } .paged
        (.opened .alternate) .absent .absent { segmentLimit := 4, splitsAtPages := true } =
      .ok link ∧
      block.words.length ≤ 12 ∧
      ∃ (messages : List (List Slice)) (after : Bench),
        (link.transferLoop .data none block 12).run.run {} = (.ok (), after) ∧
        after.messages = messages.map (fun slices =>
          link.segments { selector := .data, clock := none, block := block, slices := slices }) ∧
        after.messages.map (·.length) = [4, 2] ∧
        link.cutter.Cuts block (messages.flatten.map Slice.words) := by
  intro link block
  have created : Link.create { clock := 10000000, mask := .bytesOnly, canMap := false } .paged
      (.opened .alternate) .absent .absent { segmentLimit := 4, splitsAtPages := true } =
    .ok link := rfl
  have enough : block.words.length ≤ 12 := by decide
  obtain ⟨-, ends⟩ := transfers_in_full_messages created .data none block enough
  obtain ⟨messages, after, ran, sent, -, -, -, cuts⟩ := (ends {}).2 (Bench.faultless_empty _)
  refine ⟨created, enough, messages, after, ran, sent, ?_, cuts⟩
  have same := congrArg (fun ended => ended.2.messages.map List.length) ran
  exact same.symm.trans (by decide +kernel)

end PanelLink.Spi
