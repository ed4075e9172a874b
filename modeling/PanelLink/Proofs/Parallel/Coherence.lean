/-
**How far the remembered word agrees with the data lines.**

A link drives only the data lines at which a word differs from the word before. If a data line
refuses in the middle of a word, the lines driven for it already are torn: they carry their bits of
the new word while the link goes on remembering the old one.

* `Bench.torn`: whether a data line is torn, read off the log;
* `Coherent`: the data lines are at the remembered word except for the torn ones;
* `Coherent.latched`, `leads_write`, `leads_read`: every step and every access keeps it so;
* **`coherent_performAll`**: it holds after every history of accesses, whichever uses of lines fail.
-/

import PanelLink.Proofs.Parallel.Latching

namespace PanelLink

/-! ### Torn lines -/

/-- Whether a line is torn, in a log with the latest event first. The flag tells whether a data line
has refused later in the same word. -/
def tornIn (bit : Nat) : Bool → List Event → Bool
  | _, [] => false
  | cut, .line (.data other) (.set _) .done :: earlier =>
    if other = bit then cut else tornIn bit cut earlier
  | _, .line (.data _) (.set _) .refused :: earlier => tornIn bit true earlier
  | cut, .line (.data other) (.turn _) .done :: earlier =>
    if other = bit then false else tornIn bit cut earlier
  | _, .line .writeStrobe (.set false) .done :: earlier => tornIn bit false earlier
  | cut, _ :: earlier => tornIn bit cut earlier

/-- **A data line is torn** if it was last set for a word for which a data line refused
afterwards. -/
def Bench.torn (bench : Bench) (bit : Nat) : Bool :=
  tornIn bit false bench.log

/-- An event that neither sets nor switches a data line. -/
def Event.sparesData : Event → Bool
  | .line (.data _) .sample _ => true
  | .line (.data _) _ _ => false
  | _ => true

theorem tornIn_cons_of_spared (bit : Nat) {event : Event} (spared : event.sparesData = true)
    (earlier : List Event) : tornIn bit false (event :: earlier) = tornIn bit false earlier := by
  cases event with
  | line name use outcome =>
    cases name with
    | data other =>
      cases use with
      | sample => rfl
      | set level => cases spared
      | turn direction => cases spared
    | writeStrobe =>
      cases use with
      | set level => cases level <;> cases outcome <;> rfl
      | sample => rfl
      | turn direction => rfl
    | _ => rfl
  | _ => rfl

theorem levelAfter_of_spared (bit : Nat) {event : Event} (spared : event.sparesData = true)
    (level : Bool) : event.levelAfter (.data bit) level = level := by
  cases event with
  | line name use outcome =>
    cases name with
    | data other =>
      cases use with
      | sample => rfl
      | set level => cases spared
      | turn direction => cases spared
    | _ =>
      cases use with
      | sample => rfl
      | set level => cases outcome <;> rfl
      | turn direction => cases direction <;> cases outcome <;> rfl
  | _ => rfl

theorem tornIn_append_of_spared (bit : Nat) {events : List Event}
    (spared : ∀ event ∈ events, event.sparesData = true) (earlier : List Event) :
    tornIn bit false (events ++ earlier) = tornIn bit false earlier := by
  induction events with
  | nil => rfl
  | cons event events ih =>
    rw [List.cons_append, tornIn_cons_of_spared bit (spared event List.mem_cons_self)]
    exact ih fun other member => spared other (List.mem_cons_of_mem event member)

/-- Where no data line is set or switched, the torn lines stay the same. -/
theorem Bench.Went.torn_of_spared {bench after : Bench} {events : List Event}
    (went : bench.Went after events) (spared : ∀ event ∈ events, event.sparesData = true)
    (bit : Nat) : after.torn bit = bench.torn bit := by
  unfold Bench.torn
  rw [went.log]
  exact tornIn_append_of_spared bit (fun event member =>
    spared event (List.mem_reverse.mp member)) bench.log

theorem Bench.Went.level_of_spared {bench after : Bench} {events : List Event}
    (went : bench.Went after events) (spared : ∀ event ∈ events, event.sparesData = true)
    (bit : Nat) : after.levels (.data bit) = bench.levels (.data bit) := by
  rw [went.levels]
  exact Levels.afterAll_of_still fun event member level =>
    levelAfter_of_spared bit (spared event member) level

namespace Parallel

/-- The lines driven for a word are torn as soon as a data line refuses later in the word. -/
theorem tornIn_changes (bit : Nat) (cut : Bool) (before : Option Nat) (word count : Nat)
    (earlier : List Event) :
    tornIn bit cut ((changes before word count).reverse ++ earlier) =
      if bit < count ∧ differs before word bit = true then cut else tornIn bit cut earlier := by
  induction count with
  | zero => exact (if_neg fun within => Nat.not_lt_zero bit within.1).symm
  | succ count ih =>
    rw [changes_succ, List.reverse_append]
    by_cases drives : differs before word count = true
    · rw [if_pos drives]
      show (if count = bit then cut else
        tornIn bit cut ((changes before word count).reverse ++ earlier)) = _
      by_cases same : count = bit
      · subst same
        rw [if_pos rfl, if_pos ⟨Nat.lt_succ_self count, drives⟩]
      · rw [if_neg same, ih]
        exact if_congr (drivenBelow_succ fun equal => absurd equal.symm same) rfl rfl
    · rw [if_neg drives]
      exact Eq.trans ih (if_congr (drivenBelow_succ fun _ => drives) rfl rfl)

/-! ### One step -/

/-- **The data lines are at the remembered word**, except for the torn ones, and they are
outputs. -/
def Coherent (link : Link) : Condition := fun memory bench =>
  ∀ shown, memory.word = some shown → memory.direction = .output ∧
    ∀ bit, bit < link.lines → bench.levels (.data bit) = (wordBit shown bit ^^ bench.torn bit)

theorem spared_coherent (link : Link) : Spared (·.sparesData = true) (Coherent link) := by
  intro memory bench after events went spared coherent shown remembered
  obtain ⟨output, row⟩ := coherent shown remembered
  refine ⟨output, fun bit inRow => ?_⟩
  rw [went.level_of_spared spared, went.torn_of_spared spared, row bit inRow]

/-- The lines driven for a word that all data lines accept are not torn. -/
theorem torn_latched {bench after : Bench} {before : Option Nat} {word count : Nat}
    {outcome : UseOutcome} (went : bench.Went after
      (strobe false .done :: (changes before word count ++ [strobe true outcome]))) (bit : Nat) :
    after.torn bit =
      if bit < count ∧ differs before word bit = true then false else bench.torn bit := by
  have log : after.log = strobe true outcome ::
      ((changes before word count).reverse ++ (strobe false .done :: bench.log)) := by
    rw [went.log, List.reverse_cons, List.reverse_append, List.append_assoc]
    rfl
  unfold Bench.torn
  rw [log, tornIn_cons_of_spared bit rfl, tornIn_changes, tornIn_cons_of_spared bit rfl]

/-- If a data line refuses, the lines driven before it are torn. -/
theorem torn_cut {bench after : Bench} {before : Option Nat} {word stop : Nat}
    (went : bench.Went after
      (strobe false .done :: (changes before word stop ++ [driven word stop .refused])))
    (bit : Nat) :
    after.torn bit =
      if bit < stop ∧ differs before word bit = true then true else bench.torn bit := by
  have log : after.log = driven word stop .refused ::
      ((changes before word stop).reverse ++ (strobe false .done :: bench.log)) := by
    rw [went.log, List.reverse_cons, List.reverse_append, List.append_assoc]
    rfl
  unfold Bench.torn
  rw [log]
  show tornIn bit true ((changes before word stop).reverse ++ _) = _
  rw [tornIn_changes]
  rfl

/-- **A latch keeps the data lines coherent**, however it goes. -/
theorem Coherent.latched {link : Link} {word : Nat} {memory now : Memory} {bench after : Bench}
    {result : Except AccessError Unit} (coherent : Coherent link memory bench)
    (output : memory.direction = .output)
    (latched : Latched link word memory bench result now after) :
    Coherent link now after ∧ now.direction = .output := by
  have complete {outcome : UseOutcome} (went : bench.Went after
      (strobe false .done :: (changes memory.word word link.lines ++ [strobe true outcome]))) :
      Coherent link { memory with word := some word } after := by
    intro shown remembered
    cases remembered
    refine ⟨output, fun bit inRow => ?_⟩
    rw [went.levels, levels_latched, torn_latched went]
    by_cases drives : differs memory.word word bit = true
    · rw [if_pos ⟨inRow, drives⟩, if_pos ⟨inRow, drives⟩, Bool.xor_false]
    · rw [if_neg fun within => drives within.2, if_neg fun within => drives within.2]
      cases held : memory.word with
      | none =>
        rw [held] at drives
        exact absurd rfl drives
      | some shown =>
        rw [held] at drives
        rw [(coherent shown held).2 bit inRow, eq_of_not_differs drives]
  cases latched with
  | idle went =>
    refine ⟨spared_coherent link memory bench after _ went (fun event member => ?_) coherent, output⟩
    rw [List.mem_singleton.mp member]
    rfl
  | torn stop inRow drives went =>
    refine ⟨fun shown remembered => ⟨output, fun bit bitInRow => ?_⟩, output⟩
    rw [went.levels, levels_cut, torn_cut went]
    by_cases within : bit < stop ∧ differs memory.word word bit = true
    · rw [if_pos within, if_pos within, Bool.xor_true]
      have apart : wordBit shown bit ≠ wordBit word bit := by
        rw [remembered] at within
        exact differs_some_iff.mp within.2
      exact Bool.eq_not_of_ne apart.symm
    · rw [if_neg within, if_neg within]
      exact (coherent shown remembered).2 bit bitInRow
  | held went => exact ⟨complete went, output⟩
  | done went => exact ⟨complete went, output⟩

/-! ### One access -/

section Access

variable (link : Link)

theorem leads_turnData {direction : Direction} (known : direction ≠ .unset) :
    Leads (Coherent link) (link.turnData direction).run
      (Ends (fun _ memory bench => Coherent link memory bench ∧ memory.direction = direction)
        (Coherent link)) := by
  refine Leads.of_run fun {memory now bench after result} coherent ran => ?_
  rcases turnData_went known ran with ⟨rfl, rfl, rfl, still⟩ | ⟨-, forgotten, switched, -⟩
  · exact ⟨coherent, still⟩
  · have idle : Coherent link now after := fun shown remembered => by
      rw [forgotten] at remembered
      cases remembered
    cases result with
    | ok => exact ⟨idle, switched rfl⟩
    | error error => exact idle

theorem leads_latchWord (word : Nat) :
    Leads (Condition.driving (Coherent link)) (link.latchWord word).run
      (Ends (fun _ => Condition.driving (Coherent link)) (Coherent link)) := by
  refine Leads.of_run fun {memory now bench after result} holds ran => ?_
  have kept := holds.1.latched holds.2 (latchWord_went ran)
  cases result with
  | ok => exact kept
  | error error => exact kept.1

theorem spared_frames {condition : Condition} (spared : Spared (·.sparesData = true) condition) :
    Spared Frames condition := by
  intro memory bench after events went frames
  refine spared memory bench after events went fun event member => ?_
  obtain ⟨name, level, outcome, rfl, rfl | rfl⟩ := frames event member <;> rfl

theorem tracks_coherent : Tracks link (fun _ => Coherent link) (Coherent link) where
  spared := fun _ => spared_frames (spared_coherent link)
  sparedFailed := spared_frames (spared_coherent link)
  fails := fun _ _ _ => id
  turn := fun _ => leads_turnData link (by decide)
  latch := fun word _ => leads_latchWord link word

/-- **A write keeps the data lines coherent**, wherever it fails. -/
theorem leads_write (context : Context) (register : Nat) (request : Option WriteRequest) :
    Leads (Coherent link) (link.write context register request).run
      (Ends (fun _ => Coherent link) (Coherent link)) :=
  (tracks_coherent link).leads_write context register request []

theorem leads_readWord : Leads (Coherent link) link.readWord.run
    (Ends (fun _ => Coherent link) (Coherent link)) := by
  have uses {α : Type} {action : LineM α} (within : Within (·.sparesData = true) action) :
      Leads (Coherent link) (Link.useLines action).run
        (Ends (fun _ => Coherent link) (Coherent link)) :=
    leads_useLines (spared_coherent link) (spared_coherent link) (fun _ _ => id) (fun _ _ => id)
      within
  unfold Link.readWord
  refine (uses (within_setLine fun _ => rfl)).andThen fun _ => ?_
  refine (uses (within_sampleLines (fun _ _ => rfl) link.lines)).andThen fun word => ?_
  exact (uses (within_setLine fun _ => rfl)).andThen fun _ _ _ coherent => coherent

theorem leads_readWords (count : Nat) : Leads (Coherent link) (link.readWords count).run
    (Ends (fun _ => Coherent link) (Coherent link)) := by
  induction count with
  | zero => exact fun _ _ coherent => coherent
  | succ count ih =>
    exact (leads_readWord link).andThen fun word => ih.andThen fun words _ _ coherent => coherent

theorem leads_readElements (pieces count : Nat) :
    Leads (Coherent link) (link.readElements pieces count) fun _ => Coherent link := by
  induction count with
  | zero => exact fun _ _ coherent => coherent
  | succ count ih =>
    unfold Link.readElements
    refine (leads_readWords link pieces).bind fun outcome => ?_
    cases outcome with
    | error error => exact fun _ _ coherent => coherent
    | ok words => exact ih.bind fun reading _ _ coherent => coherent

/-- A switch of the data lines, however it goes. -/
theorem leads_turn {direction : Direction} (known : direction ≠ .unset) :
    Leads (Coherent link) (link.turnData direction).run
      (Ends (fun _ => Coherent link) (Coherent link)) := by
  refine (leads_turnData link known).weaken (fun _ _ => id) fun outcome memory bench => ?_
  cases outcome with
  | ok => exact And.left
  | error error => exact id

/-- What comes before the elements of a read: the register is selected and the lines are turned. -/
theorem leads_prepareRead (context : Context) (register : Nat) (width : Width) :
    Leads (Coherent link)
      (liftM (checked (piecesPerElement width link.lines)) >>= fun count =>
        link.selectRegister context register >>= fun _ =>
          link.turnData .input >>= fun _ => pure count : ExceptT AccessError LinkM Nat).run
      (Ends (fun _ => Coherent link) (Coherent link)) := by
  have checks (argument : Except AccessError Nat) :
      Leads (Coherent link) (liftM argument : ExceptT AccessError LinkM Nat).run
        (Ends (fun _ => Coherent link) (Coherent link)) := by
    cases argument <;> exact fun _ _ coherent => coherent
  have selects : Leads (Coherent link) (link.selectRegister context register).run
      (Ends (fun _ => Coherent link) (Coherent link)) :=
    (tracks_coherent link).leads_sendPhase .command _ _ []
  refine (checks _).andThen fun count => selects.andThen fun _ => ?_
  exact (leads_turn link (by decide)).andThen fun _ _ _ coherent => coherent

/-- The elements of a read, with the phase around them. -/
theorem leads_readPhase (selector : Selector) (pieces count : Nat) :
    Leads (Coherent link) (link.whileSelected selector (link.readElements pieces count))
      fun _ => Coherent link := by
  have frames := spared_frames (spared_coherent link)
  have body := (leads_readElements link pieces count).weaken (fun _ _ => id)
    fun reading _ _ => (ends_same reading.outcome).mpr
  exact (leads_whileSelected link selector frames frames frames (fun _ _ => id) (fun _ _ => id)
    body).weaken (fun _ _ => id) fun reading _ _ => (ends_same reading.outcome).mp

/-- **A read keeps the data lines coherent**, wherever it fails. -/
theorem leads_read (context : Context) (register : Nat) (request : ReadRequest) :
    Leads (Coherent link) (link.read context register request) fun _ => Coherent link := by
  unfold Link.read
  refine Leads.bind (?_ : Leads _ _ (Ends (fun _ => Coherent link) (Coherent link)))
    fun outcome => ?_
  · dsimp only
    split
    · exact fun _ _ coherent => coherent
    · exact leads_prepareRead link context register _
  · cases outcome with
    | error error => exact fun _ _ coherent => coherent
    | ok pieces =>
      refine (leads_readPhase link request.selector pieces request.count).bind fun reading => ?_
      refine (leads_turn link (by decide)).bind fun restored memory bench coherent => ?_
      cases restored <;> exact coherent

end Access

/-! ### Histories -/

/-- One access to a register. -/
inductive Access where
  | write (context : Context) (register : Nat) (request : Option WriteRequest)
  | read (context : Context) (register : Nat) (request : ReadRequest)

/-- The memory of the link and the bench after an access, whether or not it succeeds. -/
def Link.perform (link : Link) (start : Memory × Bench) : Access → Memory × Bench
  | .write context register request =>
    let ran := ((link.write context register request).run.run start.1).run start.2
    (ran.1.2, ran.2)
  | .read context register request =>
    let ran := ((link.read context register request).run start.1).run start.2
    (ran.1.2, ran.2)

/-- A link that was just made, after a history of accesses on a bench. -/
def Link.performAll (link : Link) (bench : Bench) (accesses : List Access) : Memory × Bench :=
  accesses.foldl link.perform ({}, bench)

theorem Coherent.perform {link : Link} {start : Memory × Bench}
    (coherent : Coherent link start.1 start.2) (access : Access) :
    Coherent link (link.perform start access).1 (link.perform start access).2 := by
  cases access with
  | write context register request =>
    exact (ends_same _).mp (leads_write link context register request start.1 start.2 coherent)
  | read context register request =>
    exact leads_read link context register request start.1 start.2 coherent

/-- Accesses one after the other keep the data lines coherent. -/
theorem Coherent.accesses {link : Link} {start : Memory × Bench}
    (coherent : Coherent link start.1 start.2) (accesses : List Access) :
    Coherent link (accesses.foldl link.perform start).1 (accesses.foldl link.perform start).2 := by
  induction accesses generalizing start with
  | nil => exact coherent
  | cons access accesses ih => exact ih (coherent.perform access)

/-- **Every history keeps the data lines coherent**: whichever uses of lines fail, the remembered
word is on the data lines except for the torn ones. -/
theorem coherent_performAll (link : Link) (bench : Bench) (accesses : List Access) :
    Coherent link (link.performAll bench accesses).1 (link.performAll bench accesses).2 := by
  have fresh : Coherent link ({} : Memory) bench := fun shown remembered => by cases remembered
  exact fresh.accesses accesses

end Parallel

end PanelLink
