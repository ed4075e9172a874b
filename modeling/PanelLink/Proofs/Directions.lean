/-
**Data lines are turned around before they are used the other way.**

Both kinds of bus remember the direction in which their data lines were last switched, and forget it
as soon as a switch fails. Any use of a line may fail.

* `Parallel.minds_write`, `Parallel.minds_read`: the accesses of a parallel link, phase by phase;
* `LineMaster.minds_write`, `LineMaster.minds_read`: the calls of a master made of lines;
* `Parallel.mindful_performAll`, `LineMaster.mindful_trail`: by induction, every history;
* **`data_lines_minded`**: no data line is ever set but as an output, or sampled but as an input.
-/

import PanelLink.Proofs.Addressed.DrivenLines
import PanelLink.Proofs.Bench.Facing
import PanelLink.Proofs.Parallel.Observed

namespace PanelLink

/-! ### Accesses over parallel lines -/

namespace Parallel

section Steps

variable (link : Link) {direction : Direction}

theorem holds_driveChanged (before : Option Nat) (word : Nat) :
    Holds link.lines Memory.direction .output
      (Link.useLines (link.driveChanged before word)).run := by
  refine Holds.use (Leaves.forM fun bit inRow => ?_)
  split
  · exact Leaves.set fun outcome => ⟨List.mem_range.mp inRow, rfl⟩
  · exact Leaves.done ()

theorem holds_latchWord (word : Nat) :
    Holds link.lines Memory.direction .output (link.latchWord word).run := by
  have strobe (level : Bool) : Holds link.lines Memory.direction .output
      (Link.useLines (setLine .writeStrobe level)).run := Holds.setOther (by simp)
  have remembers : Holds link.lines Memory.direction .output
      (modify fun memory : Memory => { memory with word := some word } :
        ExceptT AccessError LinkM PUnit).run := Holds.remember fun _ => rfl
  unfold Link.latchWord
  exact (strobe false).andThen fun _ => Holds.peek fun memory =>
    (holds_driveChanged link memory.word word).andThen fun _ =>
      remembers.andThen fun _ => strobe true

theorem holds_readWord : Holds link.lines Memory.direction .input link.readWord.run :=
  Holds.sampleStrobed

theorem holds_readWords (count : Nat) :
    Holds link.lines Memory.direction .input (link.readWords count).run := by
  induction count with
  | zero => exact Holds.done _
  | succ count ih =>
    exact (holds_readWord link).andThen fun word => ih.andThen fun words => Holds.done _

theorem holds_readElements (pieces count : Nat) :
    Holds link.lines Memory.direction .input (link.readElements pieces count) := by
  induction count with
  | zero => exact Holds.done _
  | succ count ih =>
    refine (holds_readWords link pieces).bind fun outcome => ?_
    cases outcome with
    | error error => exact Holds.done _
    | ok words => exact ih.bind fun reading => Holds.done _

/-- The lines that frame a phase are not data lines. -/
theorem holds_whileSelected (selector : Selector) {body : LinkM (Reading AccessError)}
    (holds : Holds link.lines Memory.direction direction body) :
    Holds link.lines Memory.direction direction (link.whileSelected selector body) := by
  have chipSelect (active : Bool) :
      Holds link.lines Memory.direction direction (link.driveChipSelect active).run := by
    unfold Link.driveChipSelect
    split
    · exact Holds.setOther (by simp)
    · exact Holds.done _
  have selects : Holds link.lines Memory.direction direction
      (Link.useLines (setLine .selector selector.isData)).run := Holds.setOther (by simp)
  unfold Link.whileSelected
  refine (chipSelect true).bind fun chosen => ?_
  cases chosen with
  | error error => exact Holds.done _
  | ok =>
    refine selects.bind fun selected => ?_
    cases selected with
    | error error => exact (chipSelect false).bind fun released => Holds.done _
    | ok => exact holds.bind fun reading => (chipSelect false).bind fun released => Holds.done _

theorem minds_turnData (known : direction ≠ .unset) :
    Minds link.lines Memory.direction (fun _ => True) (link.turnData direction).run
      (OnSuccess fun _ now => now = direction) := by
  unfold Link.turnData
  exact Minds.turn known (fun _ _ => rfl) (fun _ _ => ⟨_, rfl, rfl⟩) fun _ _ _ => ⟨_, _, rfl, rfl⟩

/-- **A phase** may start with the data lines in any direction. -/
theorem minds_sendPhase (selector : Selector) (words : Words) (width : Width) :
    Minds link.lines Memory.direction (fun _ => True) (link.sendPhase selector words width).run
      (OnSuccess fun _ now => now = .output) := by
  unfold Link.sendPhase
  refine (Minds.checked _ fun _ _ => id).andThen fun count =>
    (minds_turnData link (by decide)).andThen fun _ => ?_
  have latches : Holds link.lines Memory.direction .output
      ((words.values.flatMap (piecesOf count link.lines)).forM link.latchWord).run :=
    Holds.forM (holds_latchWord link) _
  have phase := holds_whileSelected link selector
    (latches.bind fun outcome => Holds.done ({ values := [], outcome } : Reading AccessError))
  exact Minds.onSuccess ((Holds.lift phase).andThen fun reading => Holds.done _)

/-- **A write** may start with the data lines in any direction. -/
theorem minds_write (context : Context) (register : Nat) (request : Option WriteRequest) :
    Minds link.lines Memory.direction (fun _ => True) (link.write context register request).run
      (OnSuccess fun _ now => now = .output) := by
  unfold Link.write Link.selectRegister
  refine (minds_sendPhase link _ _ _).andThen fun _ => ?_
  cases WriteRequest.nonempty? request with
  | some present =>
    exact (minds_sendPhase link _ _ _).weaken (fun _ _ => trivial) fun _ _ => id
  | none => exact Minds.onSuccess (Holds.done _)

/-- **A read** may start with the data lines in any direction, and if it succeeds it leaves them
outputs. -/
theorem minds_read (context : Context) (register : Nat) (request : ReadRequest) :
    Minds link.lines Memory.direction (fun _ => True) (link.read context register request)
      fun reading now => reading.outcome = .ok () → now = .output := by
  have prepares : Minds link.lines Memory.direction (fun _ => True)
      (do
        if !link.hasReadStrobe then
          throw .notReadable
        let count ← checked (piecesPerElement (request.effectiveWidth context.width) link.lines)
        link.selectRegister context register
        link.turnData .input
        return count : ExceptT AccessError LinkM Nat).run (OnSuccess fun _ now => now = .input) := by
    split
    · exact Minds.done _ fun _ _ _ failed => by cases failed
    · exact (Minds.checked _ fun _ _ => id).andThen fun count =>
        (minds_sendPhase link _ _ _).andThen fun _ =>
          ((minds_turnData link (by decide)).weaken (fun _ _ => trivial) fun _ _ => id).andThen
            fun _ => Minds.onSuccess (Holds.done _)
  have ends (reading : Reading AccessError) : Minds link.lines Memory.direction (· = .input)
      (do
        return reading.followedBy (← (link.turnData .output).run) : LinkM (Reading AccessError))
      fun reading now => reading.outcome = .ok () → now = .output := by
    refine Minds.bind ((minds_turnData link (by decide)).weaken (fun _ _ => trivial) fun _ _ => id)
      fun restored => Minds.done _ fun now switched succeeds => ?_
    match ended : reading.outcome with
    | .ok () =>
      rw [Reading.followedBy, ended] at succeeds
      exact switched () succeeds
    | .error error =>
      rw [Reading.followedBy, ended] at succeeds
      cases succeeds
  unfold Link.read
  refine prepares.bind fun prepared => ?_
  cases prepared with
  | error error => exact Minds.done _ fun _ _ failed => by cases failed
  | ok pieces =>
    refine Minds.bind (Minds.weaken (holds_whileSelected link request.selector
      (holds_readElements link pieces request.count)) (fun _ holds => holds _ rfl) fun _ _ => id) ends

theorem run_turnData_cached (memory : Memory) (bench : Bench) :
    ((link.turnData memory.direction).run.run memory).run bench = ((.ok (), memory), bench) := by
  unfold Link.turnData
  exact run_turn_cached (fun _ _ => rfl) memory bench

end Steps

theorem mindful_perform {link : Link} {bench : Bench} {start : Memory × Bench}
    (mindful : Mindful link.lines start.1.direction bench start.2) (access : Access) :
    Mindful link.lines (link.perform start access).1.direction bench
      (link.perform start access).2 := by
  cases access with
  | write context register request =>
    exact mindful.next (minds_write link context register request)
  | read context register request =>
    exact mindful.next (minds_read link context register request)

/-- **Every history of accesses** minds the directions of the data lines. -/
theorem mindful_performAll (link : Link) (bench : Bench) (accesses : List Access) :
    Mindful link.lines (link.performAll bench accesses).1.direction bench
      (link.performAll bench accesses).2 :=
  List.foldlRecOn (motive := fun start : Memory × Bench =>
      Mindful link.lines start.1.direction bench start.2)
    accesses link.perform (Mindful.start link.lines bench)
    fun _ mindful access _ => mindful_perform mindful access

/-- **A read that succeeds** leaves the data lines outputs. -/
theorem outputs_of_read {link : Link} {start : Memory × Bench}
    (faces : start.2.wires.Faces link.lines start.1.direction) {context : Context} {register : Nat}
    {request : ReadRequest} (succeeds : link.answer start (.read context register request) = .ok ())
    {bit : Nat} (inRow : bit < link.lines) :
    (link.perform start (.read context register request)).2.wires.direction (.data bit) = .output := by
  obtain ⟨-, facesNow, restored⟩ :=
    minds_read link context register request _ _ _ _ _ rfl faces trivial
  have outputs := restored succeeds
  rw [outputs] at facesNow
  exact facesNow (by decide) bit inRow

end Parallel

/-! ### Calls of a master made of lines -/

namespace Addressed.LineMaster

section Steps

variable (master : LineMaster) {direction : Direction}

/-- What is remembered of a row of lines, but for the direction, may change before and after it is
driven. -/
theorem holds_drive {name : Nat → LineName} {count word : Nat}
    {forget remember : LineMemory → LineMemory}
    (suits : ∀ bit level outcome, bit < count →
      Event.Suits master.dataLines direction (.line (name bit) (.set level) outcome))
    (forgets : ∀ memory, (forget memory).direction = memory.direction)
    (remembers : ∀ memory, (remember memory).direction = memory.direction) :
    Holds master.dataLines LineMemory.direction direction
      (modify forget >>= fun _ => useLines (driveLines name count word) >>= fun _ =>
        modify remember : ExceptT MasterFailure ActionM PUnit).run := by
  have drives : Holds master.dataLines LineMemory.direction direction
      (useLines (driveLines name count word)).run :=
    Holds.use (Leaves.forM fun bit inRow => Leaves.set fun outcome =>
      suits bit _ outcome (List.mem_range.mp inRow))
  exact (Holds.remember forgets).andThen fun _ => drives.andThen fun _ => Holds.remember remembers

theorem holds_latchAddress (address : Nat) :
    Holds master.dataLines LineMemory.direction direction (master.latchAddress address).run := by
  unfold latchAddress
  refine Holds.peek fun memory => ?_
  split
  · exact holds_drive master (fun _ _ _ _ => trivial) (fun _ => rfl) fun _ => rfl
  · exact Holds.done _

theorem holds_writeWord (word : Nat) :
    Holds master.dataLines LineMemory.direction .output (master.writeWord word).run := by
  have strobe (level : Bool) : Holds master.dataLines LineMemory.direction .output
      (useLines (setLine .writeStrobe level)).run := Holds.setOther (by simp)
  have drives : Holds master.dataLines LineMemory.direction .output (master.driveWord word).run := by
    unfold driveWord
    refine Holds.peek fun memory => ?_
    split
    · exact holds_drive master (fun _ _ _ inRow => ⟨inRow, rfl⟩) (fun _ => rfl) fun _ => rfl
    · exact Holds.done _
  unfold writeWord
  exact (strobe false).andThen fun _ => drives.andThen fun _ => strobe true

theorem holds_readWord :
    Holds master.dataLines LineMemory.direction .input master.readWord.run :=
  Holds.sampleStrobed

theorem holds_readWords (count : Nat) :
    Holds master.dataLines LineMemory.direction .input (master.readWords count) := by
  induction count with
  | zero => exact Holds.done _
  | succ count ih =>
    refine (holds_readWord master).bind fun outcome => ?_
    cases outcome with
    | error failure => exact Holds.done _
    | ok word => exact ih.bind fun reading => Holds.done _

theorem minds_turnData (known : direction ≠ .unset) :
    Minds master.dataLines LineMemory.direction (fun _ => True) (master.turnData direction).run
      (OnSuccess fun _ now => now = direction) := by
  unfold turnData
  exact Minds.turn known (fun _ _ => rfl) (fun _ _ => ⟨_, rfl, rfl⟩) fun _ _ _ => ⟨_, _, rfl, rfl⟩

/-- A check before an operation does not touch the lines. -/
theorem minds_checkElement (element : Element) :
    Minds master.dataLines LineMemory.direction (fun _ => True) (master.checkElement element).run
      (OnSuccess fun _ _ => True) := by
  unfold checkElement
  split
  · exact Minds.done _ fun _ _ _ _ => trivial
  · exact Minds.done _ fun _ _ _ _ => trivial

theorem minds_write (words : Words) :
    Minds master.dataLines LineMemory.direction (fun _ => True) (master.write words).run
      (OnSuccess fun _ now => now = .output) := by
  have forgets : Holds master.dataLines LineMemory.direction .output
      (modify fun memory : LineMemory => { memory with word := none } :
        ExceptT MasterFailure ActionM PUnit).run := Holds.remember fun _ => rfl
  unfold write
  split
  · exact Minds.done _ fun _ _ _ failed => by cases failed
  · exact (minds_checkElement master words.element).andThen fun _ =>
      (minds_turnData master (by decide)).andThen fun _ =>
        Minds.onSuccess (forgets.andThen fun _ => Holds.forM (holds_writeWord master) _)

theorem minds_read (element : Element) (count : Nat) :
    Minds master.dataLines LineMemory.direction (fun _ => True) (master.read element count)
      fun reading now => reading.outcome = .ok () → now = .input := by
  have prepares : Minds master.dataLines LineMemory.direction (fun _ => True)
      (do
        if !master.hasReadStrobe then
          throw .notReadable
        master.checkElement element
        master.turnData .input : ExceptT MasterFailure ActionM Unit).run
      (OnSuccess fun _ now => now = .input) := by
    split
    · exact Minds.done _ fun _ _ _ failed => by cases failed
    · exact (minds_checkElement master element).andThen fun _ => minds_turnData master (by decide)
  unfold read
  refine prepares.bind fun prepared => ?_
  cases prepared with
  | error failure => exact Minds.done _ fun _ _ failed => by cases failed
  | ok =>
    exact Minds.weaken (holds_readWords master count) (fun _ holds => holds () rfl)
      fun _ _ kept _ => kept

/-- **Every call** may start with the data lines in any direction. -/
theorem minds_call (call : MasterCall) :
    Minds master.dataLines LineMemory.direction (fun _ => True) (master.call call)
      fun _ _ => True := by
  cases call with
  | latch address =>
    exact Minds.ofHolds fun direction => holds_latchAddress master address
  | write words => exact (minds_write master words).weaken (fun _ => id) fun _ _ _ => trivial
  | read element count =>
    exact (minds_read master element count).bind fun reading => Minds.done _ fun _ _ => trivial

theorem run_turnData_cached (memory : LineMemory) (bench : Bench) :
    ((master.turnData memory.direction).run.run memory).run bench = ((.ok (), memory), bench) := by
  unfold turnData
  exact run_turn_cached (fun _ _ => rfl) memory bench

end Steps

/-- **Every history of calls** minds the directions of the data lines. -/
theorem mindful_trail (master : LineMaster) (bench : Bench) (calls : List MasterCall) :
    Mindful master.dataLines (master.trail bench calls).memory.direction bench
      (master.trail bench calls).bench :=
  List.foldlRecOn (motive := fun trail : Trail =>
      Mindful master.dataLines trail.memory.direction bench trail.bench)
    calls (Trail.after master) (Mindful.start master.dataLines bench)
    fun _ mindful call _ => mindful.next (minds_call master call)

end Addressed.LineMaster

/-! ### Both kinds of bus -/

/-- **Data lines are turned around before they are used the other way.** After every history of
accesses over parallel lines, and of calls of a master made of lines, in which any use of a line may
have failed, every data line that was set was an output just then and every one that was sampled an
input. The remembered direction is that of all data lines, and a switch to it touches none. A parallel
read that succeeds leaves all data lines outputs. -/
theorem data_lines_minded :
    (∀ (link : Parallel.Link) (bench : Bench) (accesses : List Parallel.Access),
      let now := link.performAll bench accesses
      (∃ events, bench.Ran now.2 events ∧ bench.wires.PermitsAll events) ∧
      now.2.wires.Faces link.lines now.1.direction ∧
      ((link.turnData now.1.direction).run.run now.1).run now.2 = ((.ok (), now.1), now.2) ∧
      ∀ context register request,
        link.answer now (.read context register request) = .ok () → ∀ bit, bit < link.lines →
          (link.perform now (.read context register request)).2.wires.direction (.data bit) =
            .output) ∧
    ∀ (master : Addressed.LineMaster) (bench : Bench) (calls : List MasterCall),
      let now := master.trail bench calls
      (∃ events, bench.Ran now.bench events ∧ bench.wires.PermitsAll events) ∧
      now.bench.wires.Faces master.dataLines now.memory.direction ∧
      ((master.turnData now.memory.direction).run.run now.memory).run now.bench =
        ((.ok (), now.memory), now.bench) := by
  refine ⟨fun link bench accesses => ?_, fun master bench calls => ?_⟩
  · have mindful := Parallel.mindful_performAll link bench accesses
    exact ⟨mindful.permits, mindful.faces, Parallel.run_turnData_cached link _ _,
      fun context register request succeeds bit inRow =>
        Parallel.outputs_of_read mindful.faces succeeds inRow⟩
  · have mindful := Addressed.LineMaster.mindful_trail master bench calls
    exact ⟨mindful.permits, mindful.faces, Addressed.LineMaster.run_turnData_cached master _ _⟩

/-- Data line 1 refuses its first use, a switch, so that the lines differ and nothing is remembered.
The next read succeeds and leaves both lines outputs, and the next read of a master leaves them
inputs. -/
theorem data_lines_minded_after_refusal :
    let bench : Bench := { data := [{}, { failsAt := (· == 0) }] }
    let link : Parallel.Link := ⟨2, true, false, .absent⟩
    let context : Context := { width := .bits8, deviations := { raw := 0 } }
    let half := link.performAll bench [.write context 5 none]
    let read : Parallel.Access := .read context 5 { element := .byte, count := 1 }
    let master : Addressed.LineMaster := ⟨0, 2, true, true⟩
    let turned := master.trail bench [.write (.ofList .byte [1]), .read .byte 1]
    half.1.direction = .unset ∧ half.2.wires.direction (.data 0) = .output ∧
      half.2.wires.direction (.data 1) ≠ .output ∧
      link.answer half read = .ok () ∧
      (∀ bit, bit < 2 → (link.perform half read).2.wires.direction (.data bit) = .output) ∧
      turned.memory.direction = .input ∧
      ∀ bit, bit < 2 → turned.bench.wires.direction (.data bit) = .input := by
  intro bench link context half read master turned
  have succeeds : link.answer half read = .ok () := by decide +kernel
  have inputs : turned.memory.direction = .input := by decide +kernel
  obtain ⟨-, -, -, outputs⟩ := data_lines_minded.1 link bench [.write context 5 none]
  obtain ⟨-, faces, -⟩ :=
    data_lines_minded.2 master bench [.write (.ofList .byte [1]), .read .byte 1]
  refine ⟨by decide +kernel, by decide +kernel, by decide +kernel, succeeds,
    outputs context 5 _ succeeds, inputs, fun bit inRow => ?_⟩
  exact (faces (by rw [show _ = Direction.input from inputs]; decide) bit inRow).trans inputs

end PanelLink
