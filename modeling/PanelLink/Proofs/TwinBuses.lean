/-
**The same write over parallel lines and over an addressed bus of lines.**

One link latches words with a selector line beside them, the other one writes runs of words to the
two addresses of a window. On lines that work the same words appear, each in the same phase.

* `ending_agenda`, `told_agenda`: what an agenda tells is what the parallel link shows, and they end
  alike;
* `run_attend_of_suits`: an agenda that suits a master of lines is carried out call by call;
* `suits_agenda`: the agenda of a write suits the master that it was made for;
* **`parallel_and_addressed_agree`**: after any histories on both sides, a write ends alike and is seen
  alike.
-/

import PanelLink.Proofs.Addressed.Attempts
import PanelLink.Proofs.Addressed.WorkingLines
import PanelLink.Proofs.Parallel.Observed

namespace PanelLink

namespace Addressed

open Parallel (Access)

/-! ### What an agenda tells -/

section Telling

variable {dataLines : Nat} {window : Window}

theorem phaseOffset_eq (selector : Selector) : phaseOffset selector = selector.isData.toNat := by
  cases selector <;> rfl

/-- A run of words is told with the address that is latched before it. -/
theorem told_latch_write (latched : Option Nat) (address : Nat) (run : Words)
    (later : List MasterCall) :
    LineMaster.told dataLines latched (.latch address :: .write run :: later) =
      (onLines dataLines [run]).map (some address, ·) ++
        LineMaster.told dataLines (some address) later := by
  show [] ++ (run.values.map _ ++ _) = _
  rw [onLines, List.flatMap_singleton, List.map_map]
  rfl

/-- Chunks that are written are told as their words at the address of the phase. -/
theorem told_chunked (latched : Option Nat) (selector : Selector) (runs : List Words) :
    LineMaster.told dataLines latched (window.chunked selector (runs.map .write) ++ [.latch 0]) =
      (onLines dataLines runs).map (some (window.latched (phaseOffset selector)), ·) := by
  induction runs generalizing latched with
  | nil => rfl
  | cons run runs ih =>
    refine (told_latch_write latched _ run _).trans ?_
    show _ ++ LineMaster.told dataLines _ (window.chunked selector (runs.map .write) ++ _) = _
    rw [ih, ← List.map_append]
    simp [onLines]

end Telling

section Agreement

variable {link : Parallel.Link} {window : Window} (wired : 0 < link.lines) (narrow : link.lines ≤ 24)
  (context : Context) (register : Nat) (request : Option WriteRequest)

omit wired narrow in
/-- **An agenda ends as the parallel link does.** -/
theorem ending_agenda :
    (agenda link.lines window (.write context register request)).ending =
      link.verdict (.write context register request) := by
  simp only [agenda, selection, Parallel.Link.verdict, Parallel.Link.carries]
  by_cases known : context.width.Carried link.lines
  · rw [Agenda.ofPhase_andThen known, if_pos known]
    cases WriteRequest.nonempty? request with
    | none => rfl
    | some present =>
      simp only [Agenda.ofPhase]
      by_cases carried : (present.effectiveWidth context.width).Carried link.lines
      · rw [if_pos carried, if_pos carried]
        rfl
      · rw [if_neg carried, if_neg carried]
        rfl
  · rw [Agenda.ofPhase_andThen_of_not_carried known, if_neg known]
    rfl

include wired narrow in
/-- **An agenda tells what the parallel link shows**, with the address of its phase for the level of
the selector. -/
theorem told_agenda (latched : Option Nat) :
    LineMaster.told link.lines latched
        ((agenda link.lines window (.write context register request)).calls ++ [.latch 0]) =
      (link.exhibits (.write context register request)).map fun shown =>
        (some (window.latched shown.1.toNat), shown.2) := by
  have phase (selector : Selector) (words : Words) (width : Width) :
      (onLines link.lines (phaseWrites link.lines words width)).map
          (some (window.latched (phaseOffset selector)), ·) =
        ((words.values.flatMap (digits width link.lines)).map fun digit =>
          (selector.isData, digit)).map fun shown =>
            (some (window.latched shown.1.toNat), shown.2) := by
    rw [onLines_phaseWrites (narrow.trans (by decide)), List.map_map, phaseOffset_eq]
    rfl
  simp only [agenda, selection, Parallel.Link.exhibits, Parallel.Link.exhibitsPhase]
  by_cases known : context.width.Carried link.lines
  · have selects := phase .command (registerWord register context.width) context.width
    rw [phaseWrites_registerWord wired (narrow.trans (by decide)), Window.latched_command] at selects
    rw [Agenda.ofPhase_andThen known, if_pos known, if_pos known, List.map_append, ← selects]
    refine (told_latch_write latched _ _ _).trans (congrArg (_ ++ ·) ?_)
    cases WriteRequest.nonempty? request with
    | none => rfl
    | some present =>
      simp only [Agenda.ofPhase]
      by_cases carried : (present.effectiveWidth context.width).Carried link.lines
      · rw [if_pos carried, if_pos carried, ← phase]
        exact told_chunked _ _ _
      · rw [if_neg carried, if_neg carried]
        rfl
  · rw [Agenda.ofPhase_andThen_of_not_carried known, if_neg known]
    rfl

end Agreement

/-! ### Carrying out an agenda on lines that work -/

section Lines

variable {master : LineMaster} {trail : LineMaster.Trail}

theorem attempt_eq_call (master : LineMaster) (call : MasterCall) :
    master.master.attempt call = master.call call := by
  cases call <;> rfl

/-- A call that suits a master of lines is made on lines that work, and they go on working. -/
theorem run_make_of_suits (strobed : master.hasWriteStrobe = true) (call : MasterCall)
    (suits : LineMaster.Suits master call) (working : trail.bench.Working) :
    let next := trail.after master call
    ((master.master.make call).run.run trail.memory).run trail.bench =
      ((.ok (), next.memory), next.bench) ∧ next.bench.Working := by
  obtain ⟨answered, stillWorking⟩ := LineMaster.answer_of_suits strobed suits working
  refine ⟨?_, stillWorking⟩
  rw [Master.run_make, attempt_eq_call, StateT.run_map, StateT.run_map]
  show ((Except.mapError _ (trail.answer master call), _), _) = _
  rw [answered]
  rfl

/-- **Calls that suit a master of lines** lead where the calls lead one by one. -/
theorem run_calls_of_suits (strobed : master.hasWriteStrobe = true) {calls : List MasterCall}
    (suits : ∀ call ∈ calls, LineMaster.Suits master call) (working : trail.bench.Working) :
    let last := calls.foldl (LineMaster.Trail.after master) trail
    ((calls.forM master.master.make).run.run trail.memory).run trail.bench =
      ((.ok (), last.memory), last.bench) ∧ last.bench.Working := by
  induction calls generalizing trail with
  | nil => exact ⟨rfl, working⟩
  | cons call calls ih =>
    obtain ⟨made, stillWorking⟩ := run_make_of_suits strobed call (suits call List.mem_cons_self) working
    obtain ⟨ran, lastWorking⟩ := ih
      (fun other member => suits other (List.mem_cons_of_mem call member)) stillWorking
    exact ⟨(run_then_ok made).trans ran, lastWorking⟩

/-- **An agenda that suits a master of lines** is carried out call by call, and then address 0 is
latched. -/
theorem run_attend_of_suits (strobed : master.hasWriteStrobe = true) (agenda : Agenda)
    (suits : ∀ call ∈ agenda.calls, LineMaster.Suits master call) (working : trail.bench.Working) :
    let last := (agenda.calls ++ [MasterCall.latch 0]).foldl (LineMaster.Trail.after master) trail
    ((agenda.attend master.master).run trail.memory).run trail.bench =
      ((agenda.ending, last.memory), last.bench) := by
  obtain ⟨ran, stillWorking⟩ := run_calls_of_suits strobed suits working
  obtain ⟨closed, -⟩ := run_make_of_suits strobed (.latch 0) trivial stillWorking
  rw [List.foldl_append, List.foldl_cons, List.foldl_nil]
  generalize agenda.calls.foldl (LineMaster.Trail.after master) trail = middle at ran closed ⊢
  have carried : ((agenda.carryOut master.master).run.run trail.memory).run trail.bench =
      ((agenda.ending, middle.memory), middle.bench) := by
    rw [Agenda.run_carryOut, StateT.run_map, StateT.run_map, ran]
    rfl
  unfold Agenda.attend
  rw [StateT.run_bind, StateT.run_bind, carried]
  show (((master.master.make (.latch 0)).run >>= fun closed =>
    pure (agenda.ending.bind fun _ => closed) : LineMaster.ActionM _).run middle.memory).run
      middle.bench = _
  rw [StateT.run_bind, StateT.run_bind, closed]
  show ((agenda.ending.bind fun _ => .ok (), _), _) = _
  cases agenda.ending <;> rfl

end Lines

/-! ### Both links -/

section Both

variable {master : LineMaster}

/-- **The agenda of a write suits** the master that it was made for. -/
theorem suits_agenda (wired : 0 < master.dataLines) (narrow : master.dataLines ≤ 32)
    (window : Window) (context : Context) (register : Nat) (request : Option WriteRequest) :
    ∀ call ∈ (agenda master.dataLines window (.write context register request)).calls ++ [.latch 0],
      LineMaster.Suits master call := by
  have selects {call : MasterCall}
      (member : call ∈ (selection master.dataLines window register context.width).calls) :
      LineMaster.Suits master call := by
    have calls := Agenda.mem_calls_ofPhase member
    have run : registerRun master.dataLines register context.width ∈
        phaseWrites master.dataLines (registerWord register context.width) context.width := by
      rw [phaseWrites_registerWord wired narrow]
      exact List.mem_singleton_self _
    simp only [List.mem_cons, List.not_mem_nil, or_false] at calls
    rcases calls with rfl | rfl
    · trivial
    · exact (run_of_mem_phaseWrites run).2.1
  intro call member
  rcases List.mem_append.mp member with asked | last
  · rcases Agenda.mem_calls_andThen asked with first | next
    · exact selects first
    · split at next
      · cases next
      · have chunked := Agenda.mem_calls_ofPhase next
        obtain ⟨chunk, written, made⟩ := List.mem_flatMap.mp chunked
        obtain ⟨run, among, rfl⟩ := List.mem_map.mp written
        simp only [List.mem_cons, List.not_mem_nil, or_false] at made
        rcases made with rfl | rfl
        · trivial
        · exact (run_of_mem_phaseWrites among).2.1
  · rw [List.mem_singleton.mp last]
    trivial

end Both

/-- **A parallel link on lines that work** shows what an access exhibits, edge by edge. -/
theorem edges_perform {link : Parallel.Link} (wired : 0 < link.lines) (narrow : link.lines ≤ 24)
    {bench : Bench} (working : bench.Working) (accesses : List Access) (access : Access) :
    let before := link.performAll bench accesses
    link.answer before access = link.verdict access ∧
      (before.2.edges (link.perform before access).2).map
        (fun wires => (wires.level .selector, wires.word link.lines)) = link.exhibits access := by
  obtain ⟨last, -, performedAll, -⟩ :=
    (Parallel.Watched.start wired narrow working).accesses accesses
  obtain ⟨final, seen, performed, ended, ⟨events, ran, -, rfl⟩, shows⟩ := last.access access
  have here : link.performAll bench accesses = (last.memory, last.bench) := performedAll
  have edges := Wires.edges_eq_sights _ fun sight member => (shows.exactly sight member).1.rose
  dsimp only
  rw [here, performed, ran.edges, ← last.wires, edges, List.map_map]
  exact ⟨ended, shows.words⟩

/-- **An addressed bus on lines that work** carries out a write call by call and shows what its agenda
tells. -/
theorem seen_write (master : LineMaster) (wired : 0 < master.dataLines)
    (narrow : master.dataLines ≤ 32) (fewAddresses : master.addressLines ≤ 32)
    (strobed : master.hasWriteStrobe = true) {bench : Bench} (working : bench.Working)
    (calls : List MasterCall) (link : Link) (linked : link.readable = master.master.readable)
    {registry : Registry} {window : Window} (live : registry.window? link.slot = some window)
    (held : ∀ selector, window.holdsOffset (phaseOffset selector) = true) (context : Context)
    (register : Nat) (request : Option WriteRequest) :
    let before := master.trail bench calls
    let asked := agenda master.dataLines window (.write context register request)
    let made := asked.calls ++ [MasterCall.latch 0]
    let last := made.foldl (LineMaster.Trail.after master) before
    (((link.write master.master context register request).run.run registry).run before.memory).run
        before.bench = (((asked.ending, registry), last.memory), last.bench) ∧
      (master.seen before made).map (fun seen => (seen.1, seen.2.word master.dataLines)) =
        LineMaster.told master.dataLines before.latched made ∧
      (master.seen before made).map (·.2) = before.bench.edges last.bench ∧
      ∀ seen ∈ master.seen before made, ∀ address, seen.1 = some address →
        seen.2.row .address master.addressLines = address % 2 ^ master.addressLines := by
  intro before asked made last
  have suits := suits_agenda wired narrow window context register request
  have works := LineMaster.working_trail narrow working calls
  have settled := LineMaster.settled_trail narrow bench calls
  have ran := run_attend_of_suits strobed asked
    (fun call member => suits call (List.mem_append_left _ member)) works
  have served : master.master.Serves (.write context register request) := trivial
  have attends : (link.write master.master context register request).run.run registry =
      (·, registry) <$> asked.attend master.master :=
    attend_eq strobed (show 0 < master.master.dataWidth from wired) narrow held linked live served
  obtain ⟨-, joined, words, addressed⟩ :=
    LineMaster.seen_eq_told narrow fewAddresses strobed suits settled works
  refine ⟨?_, words, joined, addressed⟩
  rw [attends, StateT.run_map, StateT.run_map, ran]
  rfl

/-- A write on lines that work succeeds, or one of its widths is refused. -/
theorem verdict_write (link : Parallel.Link) (context : Context) (register : Nat)
    (request : Option WriteRequest) :
    link.verdict (.write context register request) = .ok () ∨
      ∃ misuse, link.verdict (.write context register request) =
        .error (.invalidArgument misuse) := by
  have carries (width : Width) : link.carries width = .ok () ∨
      link.carries width = .error (.invalidArgument .widthNotDivisible) := by
    unfold Parallel.Link.carries
    split
    · exact Or.inl rfl
    · exact Or.inr rfl
  simp only [Parallel.Link.verdict]
  rcases carries context.width with known | refused
  · rw [known]
    cases WriteRequest.nonempty? request with
    | none => exact Or.inl rfl
    | some present =>
      rcases carries (present.effectiveWidth context.width) with carried | refused
      · exact Or.inl carried
      · exact Or.inr ⟨_, refused⟩
  · rw [refused]
    exact Or.inr ⟨_, rfl⟩

/-- In a window that begins at an even address the offset of a phase is added to it. -/
theorem latched_sub_address {window : Window} (aligned : window.address % 2 = 0) (level : Bool) :
    window.latched level.toNat - window.address = level.toNat := by
  have half : window.address = 2 ^ 1 * (window.address / 2) := by omega
  have apart : window.latched level.toNat = window.address + level.toNat := by
    unfold Window.latched
    rw [half]
    exact (Nat.two_pow_add_eq_or_of_lt (by cases level <;> decide) _).symm
  omega

/-- **A write over parallel lines and one over an addressed bus of as many lines agree.** All lines
work. Before the write each link has seen any history of its own: accesses on the one side, calls of
the master and registrations on the other. The window begins at an even address and is live. Both
writes succeed, or both are refused for a width. At the rising edges of the write strobe the same
words are on the data lines, in the same order. Where the selector line of the one shows its level,
the other has latched the offset of the same phase, and its address lines show the address. What is
seen is what the access exhibits: the digits of the register number and of the elements. -/
theorem parallel_and_addressed_agree {lines : Nat} {reads selects : Bool} {reset : Connection}
    {link : Parallel.Link} (made : Parallel.Link.create lines reads selects reset = .ok link)
    {bench : Bench} (working : bench.Working) (accesses : List Access)
    {addressLines : Nat} {hasWriteStrobe hasReadStrobe : Bool} {master : LineMaster}
    (wiring : LineMaster.create addressLines lines hasWriteStrobe hasReadStrobe = .ok master)
    {busBench : Bench} (busWorking : busBench.Working) (calls : List MasterCall)
    {earlier : Registry} {slot : Nat} {busReset : Connection} {busLink : Link}
    (bound : Link.bind earlier master.master slot busReset = .ok busLink)
    {registrations : List RegistryCall} {window : Window}
    (live : (Registry.afterAll addressLines registrations).window? slot = some window)
    (aligned : window.address % 2 = 0) (context : Context) (register : Nat)
    (request : Option WriteRequest) :
    let access := Access.write context register request
    let registry := Registry.afterAll addressLines registrations
    let before := link.performAll bench accesses
    let edges := before.2.edges (link.perform before access).2
    let busBefore := master.trail busBench calls
    let busCalls := (agenda lines window access).calls ++ [MasterCall.latch 0]
    let busAfter := busCalls.foldl (LineMaster.Trail.after master) busBefore
    let busEdges := master.seen busBefore busCalls
    link.answer before access = link.verdict access ∧
      (((busLink.write master.master context register request).run.run registry).run
          busBefore.memory).run busBefore.bench =
        (((link.verdict access, registry), busAfter.memory), busAfter.bench) ∧
      (link.verdict access = .ok () ∨
        ∃ misuse, link.verdict access = .error (.invalidArgument misuse)) ∧
      edges.map (fun wires => (some (wires.level .selector).toNat, wires.word lines)) =
        busEdges.map (fun seen => (seen.1.map (· - window.address), seen.2.word lines)) ∧
      edges.map (fun wires => (wires.level .selector, wires.word lines)) = link.exhibits access ∧
      busEdges.map (·.2) = busBefore.bench.edges busAfter.bench ∧
      ∀ seen ∈ busEdges, ∀ address, seen.1 = some address →
        seen.2.row .address addressLines = address % 2 ^ addressLines := by
  obtain ⟨wired, narrow, rfl, -⟩ := Parallel.lines_of_create made
  obtain ⟨fewAddresses, -, rfl, same⟩ := LineMaster.dataLines_le_of_create wiring
  obtain ⟨rfl, strobed, -⟩ := Link.bind_eq_ok bound
  intro access registry before edges busBefore busCalls busAfter busEdges
  obtain ⟨ended, exhibited⟩ := edges_perform wired narrow working accesses access
  obtain ⟨ran, words, joined, addressed⟩ := seen_write master (by omega) (by omega) fewAddresses
    strobed busWorking calls ⟨slot, busReset, master.master.dataWidth, _⟩ rfl live
    (Registry.holdsOffset_of_afterAll live) context register request
  rw [same] at ran words joined addressed
  rw [ending_agenda] at ran
  rw [told_agenda wired narrow] at words
  refine ⟨ended, ran, verdict_write link context register request, ?_, exhibited, joined, addressed⟩
  calc edges.map (fun wires => (some (wires.level .selector).toNat, wires.word link.lines))
      = (link.exhibits access).map fun shown => (some shown.1.toNat, shown.2) := by
        rw [← exhibited, List.map_map]
        rfl
    _ = ((link.exhibits access).map fun shown =>
          (some (window.latched shown.1.toNat), shown.2)).map fun seen =>
            (seen.1.map (· - window.address), seen.2) := by
        rw [List.map_map]
        refine List.map_congr_left fun shown _ => ?_
        simp [latched_sub_address aligned]
    _ = _ := by
        rw [← words, List.map_map]
        rfl

/-- Two bytes at the register 0x2C, over eight parallel lines that were read from and in a window at
address 4 of a bus that was used at address 2. -/
theorem parallel_and_addressed_agree_eightLines :
    let link : Parallel.Link := ⟨8, true, false, .absent⟩
    let master : LineMaster := ⟨3, 8, true, false⟩
    let bytes : Context := ⟨.bits8, ⟨0⟩⟩
    let request : Option WriteRequest := some ⟨.data, .ofList .byte [0x12, 0x34], none, 0⟩
    let before := link.performAll {} [.read bytes 4 ⟨.data, .byte, 1, none⟩]
    let busBefore := master.trail {} [.latch 2, .write (.ofList .byte [0x2C])]
    let busCalls := (agenda 8 ⟨4, 1⟩ (.write bytes 0x2C request)).calls ++ [MasterCall.latch 0]
    Parallel.Link.create 8 true false .absent = .ok link ∧
      LineMaster.create 3 8 true false = .ok master ∧ ({} : Bench).Working ∧
      Link.bind (Registry.afterAll 3 [.enlist 4 2]) master.master 0 .absent =
        .ok ⟨0, .absent, 8, false⟩ ∧
      (Registry.afterAll 3 [.enlist 4 2]).window? 0 = some ⟨4, 1⟩ ∧
      link.answer before (.write bytes 0x2C request) = .ok () ∧
      (before.2.edges (link.perform before (.write bytes 0x2C request)).2).map
          (fun wires => (wires.level .selector, wires.word 8)) =
        [(false, 0x2C), (true, 0x12), (true, 0x34)] ∧
      (master.seen busBefore busCalls).map (fun seen => (seen.1.map (· - 4), seen.2.word 8)) =
        [(some 0, 0x2C), (some 1, 0x12), (some 1, 0x34)] := by
  intro link master bytes request before busBefore busCalls
  have made : Parallel.Link.create 8 true false .absent = .ok link := rfl
  have wiring : LineMaster.create 3 8 true false = .ok master := rfl
  have bound : Link.bind (Registry.afterAll 3 [.enlist 4 2]) master.master 0 .absent =
      .ok ⟨0, .absent, 8, false⟩ := by decide +kernel
  have live : (Registry.afterAll 3 [.enlist 4 2]).window? 0 = some ⟨4, 1⟩ := by decide +kernel
  obtain ⟨ended, -, -, agree, exhibited, -⟩ := parallel_and_addressed_agree made
    Parallel.working_fresh [.read bytes 4 ⟨.data, .byte, 1, none⟩] wiring Parallel.working_fresh
    [.latch 2, .write (.ofList .byte [0x2C])] bound live rfl bytes 0x2C request
  have spelled : link.exhibits (.write bytes 0x2C request) =
      [(false, 0x2C), (true, 0x12), (true, 0x34)] := by decide +kernel
  have shown := exhibited.trans spelled
  refine ⟨made, wiring, Parallel.working_fresh, bound, live, ended, shown, agree.symm.trans ?_⟩
  have told := congrArg (List.map fun shown : Bool × Nat => (some shown.1.toNat, shown.2)) shown
  rw [List.map_map] at told
  exact told

end Addressed

end PanelLink
