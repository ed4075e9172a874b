/-
**What an observer sees of a parallel link.**

An observer notes the wires at each rising edge of the write strobe. On lines that work the link and
the observer know the same after every history, so that each access is seen exactly: its phases in
their frames, the digits of the register number and of the elements on outputs, and only those lines
set that differ.

* `Link.exhibits`: the levels of the selector and the bus words that an access should show;
* `Link.verdict`: how an access should end;
* `gives_write`, `gives_read`: one access on a watched link;
* **`observed_exactly`**: after every history an access shows exactly what it should.
-/

import PanelLink.Proofs.Parallel.Coherence
import PanelLink.Proofs.Parallel.Watched

namespace PanelLink.Parallel

/-! ### What should be seen -/

namespace Link

/-- Whether elements of a width can travel on the lines. -/
def carries (link : Link) (width : Width) : Except AccessError Unit :=
  if width.Carried link.lines then .ok () else .error (.invalidArgument .widthNotDivisible)

/-- The level of the selector and the bus words of one phase. -/
def exhibitsPhase (link : Link) (selector : Selector) (words : Words) (width : Width) :
    List (Bool × Nat) :=
  if width.Carried link.lines then
    (words.values.flatMap (digits width link.lines)).map fun digit => (selector.isData, digit)
  else []

/-- **What an access shows**: the register number in a command phase, and for a write its payload in
the phase that it asks for. Nothing is shown of what cannot travel. -/
def exhibits (link : Link) : Access → List (Bool × Nat)
  | .write context register request =>
    if context.width.Carried link.lines then
      link.exhibitsPhase .command (registerWord register context.width) context.width ++
        match WriteRequest.nonempty? request with
        | some present =>
          link.exhibitsPhase present.selector present.words (present.effectiveWidth context.width)
        | none => []
    else []
  | .read context register request =>
    if link.hasReadStrobe = true ∧ (request.effectiveWidth context.width).Carried link.lines then
      link.exhibitsPhase .command (registerWord register context.width) context.width
    else []

/-- How an access ends on lines that work. -/
def verdict (link : Link) : Access → Except AccessError Unit
  | .write context _ request => do
    link.carries context.width
    if let some present := WriteRequest.nonempty? request then
      link.carries (present.effectiveWidth context.width)
  | .read context _ request => do
    if !link.hasReadStrobe then
      throw .notReadable
    link.carries (request.effectiveWidth context.width)
    link.carries context.width

/-- How an access ends. -/
def answer (link : Link) (start : Memory × Bench) : Access → Except AccessError Unit
  | .write context register request =>
    (((link.write context register request).run.run start.1).run start.2).1.1
  | .read context register request =>
    (((link.read context register request).run start.1).run start.2).1.1.outcome

end Link

variable {link : Link}

/-- **Exactly these bus words are seen**, each on outputs with the chip selected. -/
structure Shows (link : Link) (expected : List (Bool × Nat)) (seen : List Sight) : Prop where
  words : seen.map (fun sight => (sight.wires.level .selector, sight.wires.word link.lines)) = expected
  exactly : ∀ sight ∈ seen, Exact link.lines sight ∧
    (link.hasChipSelect = true → sight.wires.level .chipSelect = false)

namespace Shows

theorem nil (link : Link) : Shows link [] [] :=
  ⟨rfl, by simp⟩

theorem append {first later : List (Bool × Nat)} {seen seenLater : List Sight}
    (shows : Shows link first seen) (showsLater : Shows link later seenLater) :
    Shows link (first ++ later) (seen ++ seenLater) where
  words := by rw [List.map_append, shows.words, showsLater.words]
  exactly sight member :=
    (List.mem_append.mp member).elim (shows.exactly sight) (showsLater.exactly sight)

end Shows

/-! ### One access -/

/-- **A phase** shows its digits, or it is refused and shows nothing. -/
theorem gives_phase (start : Watched link) (selector : Selector) (words : Words) (width : Width) :
    ∃ (last : Watched link) (seen : List Sight),
      Gives (link.sendPhase selector words width).run start (link.carries width) last seen ∧
      last.bench.wires.samples = start.bench.wires.samples ∧
      Shows link (link.exhibitsPhase selector words width) seen := by
  unfold Link.carries Link.exhibitsPhase
  split
  · rename_i carried
    obtain ⟨last, seen, gives, samples, spelled, exactly⟩ :=
      gives_sendPhase start selector words carried
    refine ⟨last, seen, gives, samples, ?_, fun sight member => ?_⟩
    · rw [← spelled, List.map_map]
      refine List.map_congr_left fun sight member => ?_
      rw [(exactly sight member).2.selector]
      rfl
    · exact ⟨(exactly sight member).1, (exactly sight member).2.chipSelect⟩
  · rename_i apart
    exact ⟨start, [], gives_sendPhase_refused start selector words apart, rfl, Shows.nil link⟩

/-- **A write** shows the register number and then its payload. -/
theorem gives_write (start : Watched link) (context : Context) (register : Nat)
    (request : Option WriteRequest) :
    ∃ (last : Watched link) (seen : List Sight),
      Gives (link.write context register request).run start
        (link.verdict (.write context register request)) last seen ∧
      Shows link (link.exhibits (.write context register request)) seen := by
  obtain ⟨middle, seen, selects, -, shows⟩ :=
    gives_phase start .command (registerWord register context.width) context.width
  simp only [Link.write, Link.verdict, Link.exhibits]
  by_cases carried : context.width.Carried link.lines
  · have allowed : link.carries context.width = .ok () := if_pos carried
    rw [allowed] at selects
    rw [allowed, if_pos carried]
    cases present : WriteRequest.nonempty? request with
    | none =>
      exact ⟨middle, seen, selects.andReturn _, by rw [List.append_nil]; exact shows⟩
    | some payload =>
      obtain ⟨last, later, sends, -, showsLater⟩ := gives_phase middle payload.selector payload.words
        (payload.effectiveWidth context.width)
      exact ⟨last, seen ++ later, selects.andThen sends, shows.append showsLater⟩
  · have refused : link.carries context.width = .error (.invalidArgument .widthNotDivisible) :=
      if_neg carried
    rw [refused] at selects
    rw [refused, if_neg carried]
    rw [Link.exhibitsPhase, if_neg carried] at shows
    exact ⟨middle, seen, selects.stop, shows⟩

/-- The steps of a read that is not refused at once. -/
theorem read_of_carried (wired : 0 < link.lines) (readable : link.hasReadStrobe = true)
    (context : Context) (register : Nat) (request : ReadRequest)
    (carried : (request.effectiveWidth context.width).Carried link.lines) :
    link.read context register request =
      (link.selectRegister context register >>= fun _ => link.turnData .input >>= fun _ =>
          pure (digitCount (request.effectiveWidth context.width) link.lines)).run >>= fun
        | .error error => pure (Reading.failed error)
        | .ok pieces => do
          let reading ← link.whileSelected request.selector (link.readElements pieces request.count)
          return reading.followedBy (← (link.turnData .output).run) := by
  unfold Link.read
  rw [readable, piecesPerElement_of_carried wired carried]
  rfl

/-- **A read** shows the register number. What it obtains are the elements whose digits the panel
presents next. -/
theorem gives_read (start : Watched link) (context : Context) (register : Nat)
    (request : ReadRequest) :
    ∃ (reading : Reading AccessError) (last : Watched link) (seen : List Sight),
      Gives (link.read context register request) start reading last seen ∧
      reading.outcome = link.verdict (.read context register request) ∧
      Shows link (link.exhibits (.read context register request)) seen ∧
      ∀ {values handed later : List Nat}, reading.outcome = .ok () →
        values.length = request.count →
        handed.map (· % 2 ^ link.lines) =
          values.flatMap (digits (request.effectiveWidth context.width) link.lines) →
        start.bench.wires.samples = handed ++ later →
        reading.values = values.map (· % 2 ^ (link.lines *
          digitCount (request.effectiveWidth context.width) link.lines)) ∧
          last.bench.wires.samples = later := by
  -- A read is refused for its strobe first, then for the width of its elements, and for the width of
  -- the register number only when that is sent.
  by_cases readable : link.hasReadStrobe = true
  swap
  · have refused : link.hasReadStrobe = false := Bool.eq_false_of_not_eq_true readable
    have gives : Gives (link.read context register request) start (.failed .notReadable) start [] := by
      refine ⟨?_, Watched.Noted.refl start⟩
      unfold Link.read
      rw [refused]
      rfl
    refine ⟨_, start, [], gives, ?_, ?_, fun succeeded => by cases succeeded⟩
    · simp only [Link.verdict, refused]
      rfl
    · simpa [Link.exhibits, refused] using Shows.nil link
  by_cases carried : (request.effectiveWidth context.width).Carried link.lines
  swap
  · have gives : Gives (link.read context register request) start
        (.failed (.invalidArgument .widthNotDivisible)) start [] := by
      refine ⟨?_, Watched.Noted.refl start⟩
      unfold Link.read
      rw [readable, piecesPerElement_of_not_carried start.wired carried]
      rfl
    refine ⟨_, start, [], gives, ?_, ?_, fun succeeded => by cases succeeded⟩
    · simp only [Link.verdict, readable, Link.carries, if_neg carried]
      rfl
    · simpa [Link.exhibits, carried] using Shows.nil link
  have verdict : link.verdict (.read context register request) = link.carries context.width := by
    simp only [Link.verdict, readable, Link.carries, if_pos carried]
    rfl
  have exhibits : link.exhibits (.read context register request) =
      link.exhibitsPhase .command (registerWord register context.width) context.width :=
    if_pos ⟨readable, carried⟩
  rw [verdict, exhibits, read_of_carried start.wired readable context register request carried]
  obtain ⟨selected, seen, selects, samplesSelected, shows⟩ :=
    gives_phase start .command (registerWord register context.width) context.width
  cases allowed : link.carries context.width with
  | error error =>
    rw [allowed] at selects
    refine ⟨_, selected, seen ++ [], selects.stop.bind (Gives.pure selected _), rfl, ?_,
      fun succeeded => by cases succeeded⟩
    rw [List.append_nil]
    exact shows
  | ok =>
    rw [allowed] at selects
    obtain ⟨turned, turns, input, besideTurned⟩ := gives_turnData selected .input (by decide)
    obtain ⟨chosen, sameChosen, samplesChosen, -, within⟩ := gives_whileSelected turned request.selector
      (link.readElements (digitCount (request.effectiveWidth context.width) link.lines) request.count)
    obtain ⟨read, ended, reads, obtained⟩ := gives_readElements chosen (by rw [sameChosen, input])
      (request.effectiveWidth context.width) request.count
    obtain ⟨phased, phase, -, samplesPhased⟩ := within reads
    obtain ⟨last, restores, -, besideLast⟩ := gives_turnData phased .output (by decide)
    refine ⟨_, last, (seen ++ []) ++ ([] ++ []), (selects.andThen (turns.andReturn _)).bind
      (phase.bind (restores.ret _)), rfl, ?_, fun {values handed later} _ length shown queue => ?_⟩
    · simpa using shows
    · have ready : chosen.bench.wires.samples = handed ++ later := by
        rw [samplesChosen, besideTurned.samples, samplesSelected, queue]
      obtain ⟨rfl, rest⟩ := obtained length shown ready
      exact ⟨rfl, by rw [besideLast.samples, samplesPhased, rest]⟩

/-! ### Histories -/

/-- **One access** leads to where it should and shows what it should. -/
theorem Watched.access (start : Watched link) (access : Access) :
    ∃ (last : Watched link) (seen : List Sight),
      link.perform (start.memory, start.bench) access = (last.memory, last.bench) ∧
      link.answer (start.memory, start.bench) access = link.verdict access ∧
      start.Noted last seen ∧ Shows link (link.exhibits access) seen := by
  cases access with
  | write context register request =>
    obtain ⟨last, seen, gives, shows⟩ := gives_write start context register request
    refine ⟨last, seen, ?_, ?_, gives.noted, shows⟩
    · exact congrArg (fun ran => (ran.1.2, ran.2)) gives.ran
    · exact congrArg (·.1.1) gives.ran
  | read context register request =>
    obtain ⟨reading, last, seen, gives, ended, shows, -⟩ := gives_read start context register request
    refine ⟨last, seen, ?_, ?_, gives.noted, shows⟩
    · exact congrArg (fun ran => (ran.1.2, ran.2)) gives.ran
    · exact (congrArg (·.1.1.outcome) gives.ran).trans ended

/-- **Every history of accesses** can be watched. -/
theorem Watched.accesses (start : Watched link) (accesses : List Access) :
    ∃ (last : Watched link) (seen : List Sight),
      accesses.foldl link.perform (start.memory, start.bench) = (last.memory, last.bench) ∧
      start.Noted last seen := by
  induction accesses generalizing start with
  | nil => exact ⟨start, [], rfl, Noted.refl start⟩
  | cons access accesses ih =>
    obtain ⟨middle, seen, performed, -, noted, -⟩ := start.access access
    obtain ⟨last, later, performedAll, notedOn⟩ := ih middle
    refine ⟨last, seen ++ later, ?_, noted.trans notedOn⟩
    rw [List.foldl_cons, performed, performedAll]

theorem lines_of_create {lines : Nat} {hasReadStrobe hasChipSelect : Bool} {reset : Connection}
    (made : Link.create lines hasReadStrobe hasChipSelect reset = .ok link) :
    0 < link.lines ∧ link.lines ≤ 24 ∧ link.lines = lines ∧ link.hasReadStrobe = hasReadStrobe ∧
      link.hasChipSelect = hasChipSelect := by
  unfold Link.create maxLines at made
  split at made
  · cases made
  · split at made
    · cases made
    · cases made
      exact ⟨Nat.pos_of_ne_zero (by assumption), Nat.le_of_not_lt (by assumption), rfl, rfl, rfl⟩

/-- **An access is seen exactly.** A link is made over lines that work, and any accesses follow, all
watched by an observer. A further access then ends as its widths and the wiring allow. At each rising
edge of the write strobe in it the chip select is low if wired, and all data lines are outputs. The
selector and the words at these edges are those of the access: the digits of the register number and
then those of each element. A data line is set for such a word exactly if it differs there from the
word seen just before, or if there is none since a data line was switched. -/
theorem observed_exactly {lines : Nat} {hasReadStrobe hasChipSelect : Bool} {reset : Connection}
    (made : Link.create lines hasReadStrobe hasChipSelect reset = .ok link) {bench : Bench}
    (working : bench.Working) (accesses : List Access) (access : Access) :
    let before := link.performAll bench accesses
    let after := link.perform before access
    link.answer before access = link.verdict access ∧
    ∃ past events, bench.Ran before.2 past ∧ before.2.Ran after.2 events ∧
      let seen := (Observer.afterAll lines { wires := bench.wires } past).sights lines events
      seen.map (fun sight => (sight.wires.level .selector, sight.wires.word lines)) =
        link.exhibits access ∧
      ∀ sight ∈ seen, sight.rose = true ∧ sight.wires.Driving lines ∧
        (hasChipSelect = true → sight.wires.level .chipSelect = false) ∧
        ∀ bit, bit ∈ sight.driven ↔ bit < lines ∧ ∀ word, sight.before = some word →
          word.testBit bit ≠ (sight.wires.word lines).testBit bit := by
  obtain ⟨wired, narrow, rfl, -, rfl⟩ := lines_of_create made
  obtain ⟨last, earlier, performedAll, past, ranPast, watched, -⟩ :=
    (Watched.start wired narrow working).accesses accesses
  obtain ⟨final, seen, performed, ended, ⟨events, ran, -, rfl⟩, shows⟩ := last.access access
  intro before after
  have here : before = (last.memory, last.bench) := performedAll
  have there : after = (final.memory, final.bench) :=
    (congrArg (Link.perform _ · access) here).trans performed
  rw [here, there]
  refine ⟨ended, past, events, ranPast, ran, ?_⟩
  have follows : last.observer = Observer.afterAll link.lines { wires := bench.wires } past := watched
  rw [← follows]
  refine ⟨shows.words, fun sight noted => ?_⟩
  obtain ⟨exactly, selected⟩ := shows.exactly sight noted
  exact ⟨exactly.rose, exactly.driving, selected, exactly.driven⟩

theorem working_fresh : ({} : Bench).Working := by
  intro name
  cases name <;> exact ⟨fun _ => rfl, rfl⟩

/-- A write of two bytes after a write and a read on eight lines. -/
theorem observed_exactly_eightLines :
    let link : Link := ⟨8, true, true, .absent⟩
    let bytes : Context := ⟨.bits8, ⟨0⟩⟩
    let before := link.performAll {} [.write bytes 0x5A none, .read bytes 4 ⟨.data, .byte, 1, none⟩]
    let access := Access.write bytes 0x12C (some ⟨.data, .ofList .byte [0x12, 0x13], none, 0⟩)
    Link.create 8 true true .absent = .ok link ∧ ({} : Bench).Working ∧
      link.answer before access = .ok () ∧
      ∃ past events, Bench.Ran {} before.2 past ∧ before.2.Ran (link.perform before access).2 events ∧
        let seen := (Observer.afterAll 8 { wires := Bench.wires {} } past).sights 8 events
        seen.map (fun sight => (sight.wires.level .selector, sight.wires.word 8)) =
          [(false, 0x2C), (true, 0x12), (true, 0x13)] ∧
        ∀ sight ∈ seen, sight.wires.Driving 8 ∧ sight.wires.level .chipSelect = false := by
  intro link bytes before access
  have made : Link.create 8 true true .absent = .ok link := rfl
  obtain ⟨ended, past, events, ranPast, ran, words, exactly⟩ := observed_exactly made working_fresh
    [.write bytes 0x5A none, .read bytes 4 ⟨.data, .byte, 1, none⟩] access
  have spelled : link.exhibits access = [(false, 0x2C), (true, 0x12), (true, 0x13)] := by
    decide +kernel
  refine ⟨made, working_fresh, ended, past, events, ranPast, ran, words.trans spelled,
    fun sight noted => ?_⟩
  obtain ⟨-, driving, selected, -⟩ := exactly sight noted
  exact ⟨driving, selected rfl⟩

end PanelLink.Parallel
