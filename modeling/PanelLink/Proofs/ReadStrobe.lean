/-
**The read strobe after a read.**

A read over lines sets the strobe low, samples the data lines and sets the strobe high again, word by
word. If a data line cannot be sampled, the read ends between the two edges.

* `Parallel.confined_turnData`, `confined_driveChipSelect`, `confined_latchWord`: which lines the steps
  of an access use;
* `Parallel.settles_read`, `LineMaster.settles_read`: a read returns the strobe, or it fails and retains
  it;
* **`gives_back_iff`**: with a strobe that works, a read gives it back exactly if no data line fails to
  be sampled;
* `missed_sample_keeps_strobe`: a data line that fails leaves the strobe low.
-/

import PanelLink.Proofs.Bench.Strobe
import PanelLink.Parallel
import PanelLink.Addressed.LineMaster

namespace PanelLink

open Event (edge)

/-! ### Accesses over parallel lines -/

namespace Parallel

section Steps

variable (link : Link)

theorem confined_set {allowed : Event → Prop} {name : LineName} {level : Bool}
    (sets : ∀ outcome, allowed (.line name (.set level) outcome)) :
    Confined allowed (Link.useLines (setLine name level)).run :=
  Confined.use (Leaves.set sets)

theorem confined_turnData {allowed : Event → Prop} {direction : Direction}
    (known : direction ≠ .unset)
    (turns : ∀ bit outcome, allowed (.line (.data bit) (.turn direction) outcome)) :
    Confined allowed (link.turnData direction).run := by
  unfold Link.turnData
  refine Confined.turn known turns fun memory switched => ?_
  match switched with
  | (_, .ok false) => exact Confined.done _
  | (_, .ok true) => exact Confined.put _
  | (_, .error _) => exact (Confined.put _).andThen fun _ => Confined.done _

theorem confined_driveChipSelect {allowed : Event → Prop}
    (sets : ∀ level outcome, allowed (.line .chipSelect (.set level) outcome)) (active : Bool) :
    Confined allowed (link.driveChipSelect active).run := by
  unfold Link.driveChipSelect
  split
  · exact confined_set (sets _)
  · exact Confined.done _

/-- Latching a word sets the write strobe and data lines. -/
theorem confined_latchWord {allowed : Event → Prop}
    (strobes : ∀ level outcome, allowed (.line .writeStrobe (.set level) outcome))
    (drives : ∀ bit level outcome, allowed (.line (.data bit) (.set level) outcome)) (word : Nat) :
    Confined allowed (link.latchWord word).run := by
  have changes (before : Option Nat) :
      Confined allowed (Link.useLines (link.driveChanged before word)).run := by
    refine Confined.use (Leaves.forM fun bit _ => ?_)
    split
    · exact Leaves.set (drives bit _)
    · exact Leaves.done ()
  unfold Link.latchWord
  exact (confined_set (strobes false)).andThen fun _ => Confined.peek fun memory =>
    (changes memory.word).andThen fun _ => (Confined.remember _).andThen fun _ =>
      confined_set (strobes true)

theorem spares_turnData {direction : Direction} (known : direction ≠ .unset) :
    Confined Event.Spares (link.turnData direction).run :=
  confined_turnData link known fun _ _ => ⟨nofun, nofun⟩

theorem spares_driveChipSelect (active : Bool) :
    Confined Event.Spares (link.driveChipSelect active).run :=
  confined_driveChipSelect link (fun _ _ => ⟨nofun, nofun⟩) active

theorem spares_latchWord (word : Nat) : Confined Event.Spares (link.latchWord word).run :=
  confined_latchWord link (fun _ _ => ⟨nofun, nofun⟩) (fun _ _ _ => ⟨nofun, nofun⟩) word

/-- The lines that frame a phase have no part in it. -/
theorem settles_whileSelected (selector : Selector) {body : LinkM (Reading AccessError)}
    (settles : Settles (·.outcome = .ok ()) body) :
    Settles (·.outcome = .ok ()) (link.whileSelected selector body) := by
  unfold Link.whileSelected
  refine Settles.after (spares_driveChipSelect link true) fun chosen => ?_
  cases chosen with
  | error error => exact Settles.done _
  | ok =>
    refine Settles.after (confined_set fun _ => ⟨nofun, nofun⟩) fun selected => ?_
    cases selected with
    | error error => exact (Settles.done _).followedBy (spares_driveChipSelect link false)
    | ok => exact settles.followedBy (spares_driveChipSelect link false)

/-- A phase in which words are sent. -/
theorem settles_sendPhase (selector : Selector) (words : Words) (width : Width) :
    Settles Succeeded (link.sendPhase selector words width).run := by
  have latches (bits : List Nat) : Settles (·.outcome = .ok ())
      ((bits.forM link.latchWord).run >>= fun outcome =>
        pure (⟨[], outcome⟩ : Reading AccessError)) :=
    Settles.after (Confined.forM (spares_latchWord link) bits) fun _ => Settles.done _
  unfold Link.sendPhase
  exact (Settles.of_confined (Confined.checked _)).andThen fun count =>
    (Settles.of_confined (spares_turnData link (by decide))).andThen fun _ =>
      (settles_whileSelected link selector (latches _)).outcome

theorem settles_readWord : Settles Succeeded link.readWord.run :=
  Settles.strobed

theorem settles_readWords (count : Nat) : Settles Succeeded (link.readWords count).run := by
  induction count with
  | zero => exact Settles.done _
  | succ count ih =>
    exact (settles_readWord link).andThen fun word => ih.andThen fun words => Settles.done _

theorem settles_readElements (pieces count : Nat) :
    Settles (·.outcome = .ok ()) (link.readElements pieces count) := by
  induction count with
  | zero => exact Settles.done _
  | succ count ih =>
    unfold Link.readElements
    refine (settles_readWords link pieces).orFailed (fun _ => rfl) fun words => ?_
    exact ih.bind (fun reading => Settles.done _) fun reading failed => ⟨_, rfl, failed⟩

/-- **A read over parallel lines.** -/
theorem settles_read (context : Context) (register : Nat) (request : ReadRequest) :
    Settles (·.outcome = .ok ()) (link.read context register request) := by
  have prepares : Settles Succeeded
      (do
        if !link.hasReadStrobe then
          throw .notReadable
        let count ← checked (piecesPerElement (request.effectiveWidth context.width) link.lines)
        link.selectRegister context register
        link.turnData .input
        return count : ExceptT AccessError LinkM Nat).run := by
    split
    · exact Settles.done _
    · exact (Settles.of_confined (Confined.checked _)).andThen fun count =>
        (settles_sendPhase link _ _ _).andThen fun _ =>
          (Settles.of_confined (spares_turnData link (by decide))).andThen fun _ => Settles.done _
  unfold Link.read
  refine prepares.orFailed (fun _ => rfl) fun pieces => ?_
  exact (settles_whileSelected link request.selector
    (settles_readElements link pieces request.count)).followedBy (spares_turnData link (by decide))

end Steps

end Parallel

/-! ### Calls of a master made of lines -/

namespace Addressed.LineMaster

section Steps

variable (master : LineMaster)

theorem spares_turnData {direction : Direction} (known : direction ≠ .unset) :
    Confined Event.Spares (master.turnData direction).run := by
  unfold turnData
  refine Confined.turn known (fun _ _ => ⟨nofun, nofun⟩) fun memory switched => ?_
  match switched with
  | (_, .ok false) => exact Confined.done _
  | (_, .ok true) => exact Confined.put _
  | (_, .error _) => exact (Confined.put _).andThen fun _ => Confined.done _

theorem settles_readWord : Settles Succeeded master.readWord.run :=
  Settles.strobed

theorem settles_readWords (count : Nat) :
    Settles (·.outcome = .ok ()) (master.readWords count) := by
  induction count with
  | zero => exact Settles.done _
  | succ count ih =>
    unfold readWords
    refine (settles_readWord master).orFailed (fun _ => rfl) fun word => ?_
    exact ih.bind (fun reading => Settles.done _) fun reading failed => ⟨_, rfl, failed⟩

/-- **A read of a master made of lines.** -/
theorem settles_read (element : Element) (count : Nat) :
    Settles (·.outcome = .ok ()) (master.read element count) := by
  have prepares : Confined Event.Spares
      (do
        if !master.hasReadStrobe then
          throw .notReadable
        master.checkElement element
        master.turnData .input : ExceptT MasterFailure ActionM Unit).run := by
    have checks : Confined Event.Spares (master.checkElement element).run := by
      unfold checkElement
      split <;> exact Confined.done _
    split
    · exact Confined.done _
    · exact checks.andThen fun _ => spares_turnData master (by decide)
  unfold read
  refine (Settles.of_confined prepares).orFailed (fun _ => rfl) fun _ => ?_
  exact settles_readWords master count

end Steps

end Addressed.LineMaster

/-! ### Both kinds of bus -/

/-- **When a read gives its strobe back.** With a read strobe that works and any other line failing
wherever it may, a read over parallel lines, and one of a master made of lines, sets the strobe high
after it was set low, before a data line is switched to output and before it returns, exactly if no data
line fails to be sampled in it. A read that succeeds always does. -/
theorem gives_back_iff {bench : Bench} (works : bench.StrobeWorks) :
    (∀ (link : Parallel.Link) (memory : Parallel.Memory) (context : Context) (register : Nat)
      (request : ReadRequest),
      let ended := ((link.read context register request).run memory).run bench
      ∃ events, bench.Ran ended.2 events ∧
        (GivesBack events ↔ ∀ event ∈ events, event.misses = false) ∧
        (ended.1.1.outcome = .ok () → GivesBack events)) ∧
    ∀ (master : Addressed.LineMaster) (memory : Addressed.LineMemory) (element : Element)
      (count : Nat),
      let ended := ((master.read element count).run memory).run bench
      ∃ events, bench.Ran ended.2 events ∧
        (GivesBack events ↔ ∀ event ∈ events, event.misses = false) ∧
        (ended.1.1.outcome = .ok () → GivesBack events) := by
  refine ⟨fun link memory context register request => ?_, fun master memory element count => ?_⟩
  · obtain ⟨events, ran, either⟩ :=
      Parallel.settles_read link context register request memory bench _ _ _ works rfl
    exact ⟨events, ran, givesBack_iff (either.imp_right And.right), givesBack_of_succeeds either⟩
  · obtain ⟨events, ran, either⟩ :=
      Addressed.LineMaster.settles_read master element count memory bench _ _ _ works rfl
    exact ⟨events, ran, givesBack_iff (either.imp_right And.right), givesBack_of_succeeds either⟩

/-- The chip select fails when the samples are taken: the read fails, and it gives its strobe back. So
does a read of a master made of lines. -/
theorem gives_back_iff_unreleased :
    let bench : Bench := { chipSelect := { failsAt := (· == 3) } }
    let link : Parallel.Link := ⟨2, true, true, .absent⟩
    let read := ((link.read ⟨.bits8, ⟨0⟩⟩ 5 { element := .byte, count := 1 }).run {}).run bench
    let master : Addressed.LineMaster := ⟨0, 2, true, true⟩
    let call := ((master.read .byte 1).run {}).run bench
    bench.StrobeWorks ∧ read.1.1.outcome = .error (.linkFailed .gpio) ∧
      edge false ∈ read.2.log ∧ GivesBack read.2.log.reverse ∧
      edge false ∈ call.2.log ∧ GivesBack call.2.log.reverse := by
  intro bench link read master call
  have works : bench.StrobeWorks := fun _ => rfl
  obtain ⟨events, ran, gives, -⟩ :=
    (gives_back_iff works).1 link {} ⟨.bits8, ⟨0⟩⟩ 5 { element := .byte, count := 1 }
  obtain ⟨others, called, givesToo, -⟩ := (gives_back_iff works).2 master {} .byte 1
  have all {after : Bench} {events : List Event} (ran : bench.Ran after events) :
      events = after.log.reverse := by
    rw [ran.log, List.reverse_append, List.reverse_reverse]
    exact (List.nil_append _).symm
  rw [all ran] at gives
  rw [all called] at givesToo
  exact ⟨works, by decide +kernel, by decide +kernel, gives.mpr (by decide +kernel),
    by decide +kernel, givesToo.mpr (by decide +kernel)⟩

/-- **A sample that fails keeps the strobe low.** The second of two data lines cannot be sampled: the
parallel read switches both lines to output while the strobe is low and then returns, and the read of a
master returns at once. -/
theorem missed_sample_keeps_strobe :
    let failing (attempt : Nat) : Bench := { data := [{}, { failsAt := (· == attempt) }] }
    let link : Parallel.Link := ⟨2, true, false, .absent⟩
    let read := ((link.read ⟨.bits8, ⟨0⟩⟩ 0 { element := .byte, count := 1 }).run {}).run (failing 3)
    let master : Addressed.LineMaster := ⟨0, 2, true, true⟩
    let call := ((master.read .byte 1).run {}).run (failing 1)
    (∀ attempt, (failing attempt).StrobeWorks) ∧
      read.2.log.reverse.drop 16 =
        [edge false, .line (.data 0) .sample .done, .line (.data 1) .sample .refused,
          .line (.data 0) (.turn .output) .done, .line (.data 1) (.turn .output) .done] ∧
      ¬GivesBack read.2.log.reverse ∧
      call.2.log.reverse.drop 2 =
        [edge false, .line (.data 0) .sample .done, .line (.data 1) .sample .refused] ∧
      ¬GivesBack call.2.log.reverse := by
  intro failing link read master call
  have ends : read.2.log.reverse.drop 16 =
      [edge false, .line (.data 0) .sample .done, .line (.data 1) .sample .refused,
        .line (.data 0) (.turn .output) .done, .line (.data 1) (.turn .output) .done] := by
    decide +kernel
  have endsToo : call.2.log.reverse.drop 2 =
      [edge false, .line (.data 0) .sample .done, .line (.data 1) .sample .refused] := by
    decide +kernel
  have kept {events after : List Event} {count : Nat} (ends : events.drop count = edge false :: after)
      (missed : ∃ event ∈ events, event.misses = true) (low : edge true ∉ after) :
      ¬GivesBack events := by
    refine Retains.not_givesBack ⟨missed, events.take count, after, ?_, low⟩
    rw [← ends, List.take_append_drop]
  exact ⟨fun _ _ => rfl, ends, kept ends (by decide +kernel) (by decide), endsToo,
    kept endsToo (by decide +kernel) (by decide)⟩

end PanelLink
