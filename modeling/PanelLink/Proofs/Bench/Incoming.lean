/-
**The queue that a controller receives from.**

Whatever an SPI controller receives comes from one queue of elements.

* `KeepsQueue`: the action leaves the queue as it is, whatever its outcome;
* `Segment.Sends`: a stretch that transmits, and **`incoming_exchange`**: messages of such stretches
  leave the queue as it is;
* **`run_exchange_receiving`**: a message whose last stretch receives takes the next elements;
* `takeIncoming_eq_map`: the elements taken, place by place;
* `joinBytePairs_range`: bytes joined in pairs, place by place.
-/

import PanelLink.Packing.BigEndian
import PanelLink.Proofs.Bench.Trace
import PanelLink.Proofs.Packing.Groups

namespace PanelLink

variable {ε ε' α β : Type}

/-! ### Actions that receive nothing -/

/-- **The action leaves the queue as it is**, whatever its outcome. -/
def KeepsQueue (action : ExceptT ε BenchM α) : Prop :=
  ∀ bench, (action.run.run bench).2.incoming = bench.incoming

namespace KeepsQueue

theorem settled (outcome : Except ε α) :
    KeepsQueue (ExceptT.mk (Pure.pure outcome) : ExceptT ε BenchM α) :=
  fun _ => rfl

theorem bind {first : ExceptT ε BenchM α} {next : α → ExceptT ε BenchM β}
    (keeps : KeepsQueue first) (keepsNext : ∀ value, KeepsQueue (next value)) :
    KeepsQueue (first >>= next) := by
  intro bench
  have kept := keeps bench
  match ran : first.run.run bench with
  | (.error error, middle) =>
    rw [ran] at kept
    rw [run_bind_error ran]
    exact kept
  | (.ok value, middle) =>
    rw [ran] at kept
    rw [run_bind_ok ran, keepsNext value middle]
    exact kept

theorem forM {ι : Type} {items : List ι} {action : ι → ExceptT ε BenchM PUnit}
    (keeps : ∀ item ∈ items, KeepsQueue (action item)) : KeepsQueue (items.forM action) := by
  induction items with
  | nil => exact settled (.ok PUnit.unit)
  | cons item items ih =>
    exact (keeps item List.mem_cons_self).bind fun _ =>
      ih fun other member => keeps other (List.mem_cons_of_mem item member)

theorem adapt {action : ExceptT ε BenchM α} (restate : ε → ε') (keeps : KeepsQueue action) :
    KeepsQueue (action.adapt restate) := by
  intro bench
  rw [ExceptT.run_adapt, StateT.run_map]
  exact keeps bench

/-- What an action comes to may be looked at, success or not. -/
theorem lift {action : ExceptT ε BenchM α} (keeps : KeepsQueue action) :
    KeepsQueue (ExceptT.lift action.run : ExceptT ε' BenchM (Except ε α)) :=
  keeps

end KeepsQueue

theorem incoming_putLine (bench : Bench) (name : LineName) (line : Line) :
    (bench.putLine name line).incoming = bench.incoming := by
  cases name <;> rfl

theorem incoming_strobed (bench : Bench) (name : LineName) (level : Bool) :
    (bench.strobed name level).incoming = bench.incoming := by
  unfold Bench.strobed
  split <;> rfl

theorem keepsQueue_setLine (name : LineName) (level : Bool) : KeepsQueue (setLine name level) := by
  refine KeepsQueue.bind (fun bench => incoming_putLine bench name _) fun _ bench => ?_
  show ((bench.putLine name _).strobed name level).incoming = bench.incoming
  rw [incoming_strobed, incoming_putLine]

theorem keepsQueue_mapBuffer (handleOf : Slice → Handle) (slice : Slice) :
    KeepsQueue (mapBuffer handleOf slice) := by
  intro bench
  change ((if bench.withoutMapping then _ else _ : BenchM _) bench).2.incoming = _
  cases bench.withoutMapping with
  | true => rfl
  | false =>
    change ((if bench.mappingFails bench.mappingAttempts then _ else _ : BenchM _) bench).2.incoming = _
    cases bench.mappingFails bench.mappingAttempts <;> rfl

/-! ### Messages -/

/-- The stretch transmits, and so receives nothing. -/
def Segment.Sends (segment : Segment) : Prop :=
  ∃ words, segment.payload = .transmit words

theorem receiveAll_of_sends {segments : List Segment} (sends : ∀ segment ∈ segments, segment.Sends)
    (later : List Segment) (queue : List Nat) :
    receiveAll (segments ++ later) queue = receiveAll later queue := by
  induction segments with
  | nil => rfl
  | cons segment segments ih =>
    obtain ⟨words, payload⟩ := sends segment List.mem_cons_self
    rw [List.cons_append, receiveAll, payload]
    exact ih fun other member => sends other (List.mem_cons_of_mem segment member)

/-- **A message that only sends** takes nothing, whether or not it goes out. -/
theorem keepsQueue_exchange {segments : List Segment}
    (sends : ∀ segment ∈ segments, segment.Sends) : KeepsQueue (exchange segments) := by
  intro bench
  cases works : bench.messageFails bench.messageAttempts with
  | false =>
    have nothing := receiveAll_of_sends sends [] bench.incoming
    rw [List.append_nil] at nothing
    rw [run_exchange works]
    show (receiveAll segments bench.incoming).2 = bench.incoming
    rw [nothing]
    rfl
  | true => rw [run_exchange_refused works]; rfl

/-- **A message whose last stretch receives** takes the next elements if it goes out, and none if it
fails. -/
theorem run_exchange_receiving {segments : List Segment}
    (sends : ∀ segment ∈ segments, segment.Sends) {receiving : Segment} {element : Element}
    {count : Nat} (receives : receiving.payload = .receive element count) (bench : Bench) :
    (∃ after, (exchange (segments ++ [receiving])).run.run bench = (.error .refused, after) ∧
      after.incoming = bench.incoming) ∨
    ∃ after, (exchange (segments ++ [receiving])).run.run bench =
        (.ok [takeIncoming element count bench.incoming], after) ∧
      after.incoming = bench.incoming.drop count := by
  cases works : bench.messageFails bench.messageAttempts with
  | true => exact Or.inl ⟨_, run_exchange_refused works _, rfl⟩
  | false =>
    have received : receiveAll (segments ++ [receiving]) bench.incoming =
        ([takeIncoming element count bench.incoming], bench.incoming.drop count) := by
      rw [receiveAll_of_sends sends, receiveAll, receives]
      rfl
    have ran := run_exchange works (segments ++ [receiving])
    rw [received] at ran
    exact Or.inr ⟨_, ran, rfl⟩

/-! ### Elements taken -/

/-- Zeros stand in for the elements that the queue does not have. -/
theorem takeIncoming_eq_map (element : Element) (count : Nat) (queue : List Nat) :
    takeIncoming element count queue =
      (List.range count).map fun place => element.truncate (queue.getD place 0) := by
  have places : queue.take count ++ List.replicate (count - queue.length) 0 =
      (List.range count).map fun place => queue.getD place 0 := by
    refine List.ext_getElem? fun place => ?_
    rw [List.getElem?_map, List.getElem?_append, List.length_take, List.getElem?_take,
      List.getElem?_replicate]
    by_cases asked : place < count
    · rw [List.getElem?_range asked, Option.map_some, if_pos asked, List.getD_eq_getElem?_getD]
      by_cases there : place < queue.length
      · rw [if_pos (by omega), List.getElem?_eq_getElem there, Option.getD_some]
      · rw [if_neg (by omega), if_pos (by omega), List.getElem?_eq_none (by omega), Option.getD_none]
    · rw [if_neg (by omega), if_neg (by omega), List.getElem?_eq_none (by simpa using asked)]
      rfl
  rw [takeIncoming, places, List.map_map]
  rfl

/-- Bytes joined in pairs, the first of a pair being the high one. -/
theorem joinBytePairs_range (bytes : Nat → Nat) (count : Nat) :
    joinBytePairs.all ((List.range (2 * count)).map bytes) =
      (List.range count).map fun place => bytes (2 * place) * 256 + bytes (2 * place + 1) := by
  induction count with
  | zero => simp
  | succ count ih =>
    have whole : ((List.range (2 * count)).map bytes).length % joinBytePairs.sourceGroup = 0 := by
      rw [List.length_map, List.length_range]
      exact Nat.mul_mod_right 2 count
    have pair : joinBytePairs.all [bytes (2 * count), bytes (2 * count + 1)] =
        [bytes (2 * count) * 256 + bytes (2 * count + 1)] := by
      simp [Repacking.all, portions, joinBytePairs, ofBigEndian]
    have split : (List.range (2 * (count + 1))).map bytes =
        (List.range (2 * count)).map bytes ++ [bytes (2 * count), bytes (2 * count + 1)] := by
      rw [Nat.mul_succ, List.range_succ, List.range_succ]
      simp
    rw [split, joinBytePairs.all_append (by decide) whole, ih, pair, List.range_succ, List.map_append]
    rfl

end PanelLink
