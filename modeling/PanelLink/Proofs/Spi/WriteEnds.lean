/-
**How a write ends.**

On a bench without faults a write ends by its request alone, and what it cannot carry it refuses before
any of it has been sent.

* `messagesIn_phaseScript`: the messages of a phase are those that are planned, and a phase that is
  refused has none;
* `Link.Sends`: whether a phase of so many elements of a width is sent;
* `WriteEnding`: how a write ends and what it has sent by then;
* **`write_ends`**: every write on a bench without faults ends so.
-/

import PanelLink.Proofs.Spi.Carriage
import PanelLink.Proofs.Spi.FirstFailure
import PanelLink.Proofs.Spi.WriteOnWire

namespace PanelLink.Spi

namespace Link

variable (link : Link)

/-! ### The messages of a phase -/

/-- A message on its way shows what sending its slices shows. -/
theorem map_event_messageMoves (sent : Outgoing) :
    (link.messageMoves sent).map Move.event =
      messageEvents link.handleOf (link.opening sent.selector false sent.clock)
        (fun words => { payload := .transmit words, bits := sent.block.bits, clock := sent.clock })
        (link.mapsBlock sent.selector sent.block) sent.slices := by
  unfold messageMoves segments messageEvents
  cases link.mapsBlock sent.selector sent.block with
  | false => rfl
  | true =>
    rw [if_pos rfl, if_pos rfl, List.map_append, map_event_mapMoves, List.map_cons, List.map_map]
    rfl

theorem messagesIn_messageMoves (sent : Outgoing) :
    messagesIn ((link.messageMoves sent).map Move.event) = [link.segments sent] := by
  rw [map_event_messageMoves, messagesIn_messageEvents, segments]
  cases link.mapsBlock sent.selector sent.block <;> rfl

/-- **The messages of a phase** are those that are planned. -/
theorem messagesIn_phaseScript (selector : Selector) (clock : Option Nat) (words : Words)
    (width : Width) (places : Places) :
    messagesIn (link.phaseScript selector clock words width places).events =
      (link.planned selector clock words width places).map link.segments := by
  have line : messagesIn ((link.selectorMoves selector).map Move.event) = [] := by
    unfold selectorMoves
    split
    · rfl
    · split <;> rfl
  unfold Script.events phaseScript
  rw [List.map_append, messagesIn_append, line, List.nil_append, List.map_flatMap,
    messagesIn_flatMap, List.map_eq_flatMap]
  exact List.flatMap_congr fun sent _ => link.messagesIn_messageMoves sent

/-! ### Phases that are sent -/

/-- **Whether a phase is sent**: it can be carried, and there can be the buffer that it needs. -/
def Sends (width : Width) (count : Nat) : Prop :=
  link.encoder.Carries link.mode width count ∧ link.encoder.HasRoom link.mode width

/-- The end of a phase that is not sent: an invalid argument, but exhausted resources if only the
buffer is missing. -/
def EndsAt (width : Width) (count : Nat) (outcome : Except AccessError Unit) : Prop :=
  (link.encoder.Carries link.mode width count → outcome = .error .resourceExhausted) ∧
    (¬link.encoder.Carries link.mode width count →
      ∃ misuse, outcome = .error (.invalidArgument misuse))

variable {link}

theorem verdict_of_sends {words : Words} {width : Width} (element : words.element = width.element)
    (sends : link.Sends width words.length) (selector : Selector) (clock : Option Nat)
    (places : Places) : (link.phaseScript selector clock words width places).verdict = .ok () := by
  obtain ⟨blocks, encoded⟩ := Encoder.phase_of_carries element sends.1 sends.2 selector places
  show Except.map _ (link.encoder.phase link.mode selector words width places) = _
  rw [encoded]
  rfl

/-- **A phase that is not sent** has no message and ends so. -/
theorem endsAt_of_not_sends {words : Words} {width : Width} (element : words.element = width.element)
    (nonempty : words.values ≠ []) (unsent : ¬link.Sends width words.length) (selector : Selector)
    (clock : Option Nat) (places : Places) :
    link.EndsAt width words.length (link.phaseScript selector clock words width places).verdict ∧
      link.planned selector clock words width places = [] ∧
      ∃ error, (link.phaseScript selector clock words width places).verdict = .error error := by
  by_cases carried : link.encoder.Carries link.mode width words.length
  · have noRoom : ¬link.encoder.HasRoom link.mode width := fun room => unsent ⟨carried, room⟩
    have refused := Encoder.phase_of_no_room element nonempty carried noRoom selector places
    unfold planned phaseScript
    dsimp only
    rw [refused]
    exact ⟨⟨fun _ => rfl, fun uncarried => absurd carried uncarried⟩, rfl, _, rfl⟩
  · obtain ⟨misuse, refused⟩ := Encoder.phase_of_not_carries element carried selector places
    unfold planned phaseScript
    dsimp only
    rw [refused]
    exact ⟨⟨fun carries => absurd carries carried, fun _ => ⟨misuse, rfl⟩⟩, rfl, _, rfl⟩

end Link

/-! ### The script of a write, by its phases -/

/-- A payload has elements. -/
theorem payload_ne_nil {request : Option WriteRequest} {present : WriteRequest}
    (payload : WriteRequest.nonempty? request = some present) : present.words.values ≠ [] := by
  have filled := (Option.filter_eq_some_iff.mp payload).2
  intro empty
  rw [Words.isEmpty, empty] at filled
  cases filled

/-- The elements of the payload, if there is one, have the size of the width at which they travel. -/
def ElementsFit (settings : BankSettings) (request : Option WriteRequest) : Prop :=
  ∀ present, WriteRequest.nonempty? request = some present →
    present.words.element = (present.effectiveWidth settings.width).element

namespace Link

variable (link : Link) (settings : BankSettings)

/-- The phase of a selector in an access through a bank. -/
def bankPhase (selector : Selector) : Words → Width → Places → Script AccessError :=
  link.phaseScript selector
    (Context.writeClock ⟨settings.width, settings.deviations⟩ selector link.clock)

/-- The phase that selects a register. -/
def selectScript (register : Nat) : Script AccessError :=
  link.bankPhase settings .command (registerWord register settings.width) settings.width
    link.selectPlaces

/-- **The messages that select a register.** -/
def selectMessages (register : Nat) : List (List Segment) :=
  (link.planned .command
    (Context.writeClock ⟨settings.width, settings.deviations⟩ .command link.clock)
    (registerWord register settings.width) settings.width link.selectPlaces).map link.segments

/-- The phase of the payload. -/
def payloadScript (request : Option WriteRequest) : Script AccessError :=
  match WriteRequest.nonempty? request with
  | some present => link.bankPhase settings present.selector present.words
      (present.effectiveWidth settings.width) (link.payloadPlaces present)
  | none => .settled (.ok ())

variable {link settings} {register : Nat} {request : Option WriteRequest}

/-- A payload whose elements do not fit is refused at once. -/
theorem writeScript_of_misfit (misfit : ¬ElementsFit settings request) :
    link.writeScript settings register request =
      .settled (.error (.invalidArgument .elementMismatch)) := by
  have refused : (RegisterBank.mk link.channel settings).resolve request =
      .error (.invalidArgument .elementMismatch) := by
    unfold RegisterBank.resolve
    cases payload : WriteRequest.nonempty? request with
    | none =>
      refine absurd (fun present some_payload => ?_) misfit
      rw [payload] at some_payload
      cases some_payload
    | some present =>
      refine if_neg fun same => misfit fun other some_payload => ?_
      rw [payload] at some_payload
      cases some_payload
      exact same
  unfold writeScript
  dsimp only
  rw [refused]

/-- A payload whose elements fit follows the selection of its register. -/
theorem writeScript_of_fit (fit : ElementsFit settings request) :
    link.writeScript settings register request =
      (link.selectScript settings register).andThen (link.payloadScript settings request) := by
  have accepted : ∃ resolved, (RegisterBank.mk link.channel settings).resolve request = .ok resolved := by
    unfold RegisterBank.resolve
    cases payload : WriteRequest.nonempty? request with
    | none => exact ⟨none, rfl⟩
    | some present => exact ⟨_, if_pos (fit present payload)⟩
  obtain ⟨resolved, settled⟩ := accepted
  unfold writeScript payloadScript
  dsimp only
  rw [settled]
  dsimp only
  rw [RegisterBank.nonempty?_of_resolve settled]
  cases WriteRequest.nonempty? request <;> rfl

end Link

/-! ### How a write ends -/

/-- **How a write ends, and what it has sent by then.** -/
structure WriteEnding (link : Link) (settings : BankSettings) (register : Nat)
    (request : Option WriteRequest) (bench after : Bench) (outcome : Except AccessError Unit) :
    Prop where
  /-- It succeeds exactly if its elements fit and both of its phases are sent. -/
  succeeds : outcome = .ok () ↔
    ElementsFit settings request ∧ link.Sends settings.width 1 ∧
      ∀ present, WriteRequest.nonempty? request = some present →
        link.Sends (present.effectiveWidth settings.width) present.words.length
  /-- A payload that does not fit is an invalid argument, and there is no message. -/
  misfit : ¬ElementsFit settings request →
    (∃ misuse, outcome = .error (.invalidArgument misuse)) ∧ after.messages = bench.messages
  /-- A register that cannot be selected is refused before there is a message. -/
  unselected : ElementsFit settings request → ¬link.Sends settings.width 1 →
    link.EndsAt settings.width 1 outcome ∧ after.messages = bench.messages
  /-- A payload that cannot be sent is refused when the register has been selected, and nothing of it
  has been sent. -/
  unsent : ElementsFit settings request → link.Sends settings.width 1 →
    ∀ present, WriteRequest.nonempty? request = some present →
      ¬link.Sends (present.effectiveWidth settings.width) present.words.length →
      link.EndsAt (present.effectiveWidth settings.width) present.words.length outcome ∧
        after.messages = bench.messages ++ link.selectMessages settings register

section Endings

variable {link : Link} {settings : BankSettings} {register : Nat} {request : Option WriteRequest}
  {bench after : Bench}

/-- Nothing is sent for a payload that does not fit. -/
theorem ending_of_misfit (misfit : ¬ElementsFit settings request)
    (messages : after.messages = bench.messages ++
      messagesIn (link.writeScript settings register request).events) :
    WriteEnding link settings register request bench after
      (link.writeScript settings register request).verdict := by
  rw [Link.writeScript_of_misfit misfit] at messages ⊢
  have unsent : after.messages = bench.messages := messages.trans (List.append_nil _)
  refine ⟨⟨nofun, fun sent => absurd sent.1 misfit⟩, fun _ => ⟨⟨_, rfl⟩, unsent⟩, ?_, ?_⟩
  · exact fun fit => absurd fit misfit
  · exact fun fit => absurd fit misfit

/-- The script of a write whose register cannot be selected: it has no message. -/
theorem writeScript_of_unselected (register : Nat) (fit : ElementsFit settings request)
    (unselected : ¬link.Sends settings.width 1) :
    link.EndsAt settings.width 1 (link.writeScript settings register request).verdict ∧
      messagesIn (link.writeScript settings register request).events = [] ∧
      ∃ error, (link.writeScript settings register request).verdict = .error error := by
  obtain ⟨ends, planned, error, failed⟩ := Link.endsAt_of_not_sends
    (show (registerWord register settings.width).element = settings.width.element from rfl)
    (List.cons_ne_nil _ _) unselected .command
    (Context.writeClock ⟨settings.width, settings.deviations⟩ .command link.clock) link.selectPlaces
  have whole : link.writeScript settings register request = link.selectScript settings register :=
    (Link.writeScript_of_fit fit).trans (Script.andThen_of_error failed _)
  rw [whole]
  refine ⟨ends, ?_, error, failed⟩
  rw [Link.selectScript, Link.bankPhase, Link.messagesIn_phaseScript, planned]
  rfl

/-- Nothing is sent if the register cannot be selected. -/
theorem ending_of_unselected (fit : ElementsFit settings request)
    (unselected : ¬link.Sends settings.width 1)
    (messages : after.messages = bench.messages ++
      messagesIn (link.writeScript settings register request).events) :
    WriteEnding link settings register request bench after
      (link.writeScript settings register request).verdict := by
  obtain ⟨ends, silent, error, failed⟩ := writeScript_of_unselected register fit unselected
  rw [silent, List.append_nil] at messages
  refine ⟨⟨fun succeeds => ?_, fun sent => absurd sent.2.1 unselected⟩, ?_, ?_, ?_⟩
  · cases failed.symm.trans succeeds
  · exact fun misfit => absurd fit misfit
  · exact fun _ _ => ⟨ends, messages⟩
  · exact fun _ selected => absurd selected unselected

/-- The script of a write whose register is selected. -/
theorem writeScript_of_selected (register : Nat) (fit : ElementsFit settings request)
    (selected : link.Sends settings.width 1) :
    (link.writeScript settings register request).verdict =
        (link.payloadScript settings request).verdict ∧
      messagesIn (link.writeScript settings register request).events =
        link.selectMessages settings register ++
          messagesIn (link.payloadScript settings request).events := by
  have succeeds : (link.selectScript settings register).verdict = .ok () :=
    Link.verdict_of_sends
      (show (registerWord register settings.width).element = settings.width.element from rfl)
      selected _ _ _
  have selecting : messagesIn (link.selectScript settings register).events =
      link.selectMessages settings register := link.messagesIn_phaseScript _ _ _ _ _
  rw [Link.writeScript_of_fit fit, Script.andThen_of_ok succeeds, ← selecting, ← messagesIn_append]
  exact ⟨rfl, congrArg messagesIn List.map_append⟩

/-- Without a payload a write ends when its register is selected. -/
theorem ending_of_no_payload (payload : WriteRequest.nonempty? request = none)
    (selected : link.Sends settings.width 1) :
    WriteEnding link settings register request bench after
      (link.writeScript settings register request).verdict := by
  have none_present {present : WriteRequest}
      (some_payload : WriteRequest.nonempty? request = some present) : False := by
    rw [payload] at some_payload
    cases some_payload
  have fit : ElementsFit settings request := fun _ some_payload => (none_present some_payload).elim
  have settled : link.payloadScript settings request = .settled (.ok ()) := by
    rw [Link.payloadScript, payload]
  rw [(writeScript_of_selected register fit selected).1, settled]
  refine ⟨⟨fun _ => ⟨fit, selected, ?_⟩, fun _ => rfl⟩, ?_, ?_, ?_⟩
  · exact fun _ some_payload => (none_present some_payload).elim
  · exact fun misfit => absurd fit misfit
  · exact fun _ unselected => absurd selected unselected
  · exact fun _ _ _ some_payload => (none_present some_payload).elim

/-- With a payload a write ends as the payload does. -/
theorem ending_of_payload {present : WriteRequest}
    (payload : WriteRequest.nonempty? request = some present) (fit : ElementsFit settings request)
    (selected : link.Sends settings.width 1)
    (messages : after.messages = bench.messages ++
      messagesIn (link.writeScript settings register request).events) :
    WriteEnding link settings register request bench after
      (link.writeScript settings register request).verdict := by
  obtain ⟨verdict, events⟩ := writeScript_of_selected register fit selected
  have phase : link.payloadScript settings request =
      link.bankPhase settings present.selector present.words
        (present.effectiveWidth settings.width) (link.payloadPlaces present) := by
    rw [Link.payloadScript, payload]
  have only {other : WriteRequest} (some_payload : WriteRequest.nonempty? request = some other) :
      other = present := Option.some.inj (some_payload.symm.trans payload)
  have nonempty : present.words.values ≠ [] := payload_ne_nil payload
  rw [verdict, phase]
  rw [events, phase] at messages
  -- The register is selected, so only the payload is left to decide.
  by_cases sends : link.Sends (present.effectiveWidth settings.width) present.words.length
  · refine ⟨⟨fun _ => ⟨fit, selected, fun other some_payload => ?_⟩, fun _ => ?_⟩, ?_, ?_, ?_⟩
    · rw [only some_payload]
      exact sends
    · exact Link.verdict_of_sends (fit present payload) sends _ _ _
    · exact fun misfit => absurd fit misfit
    · exact fun _ unselected => absurd selected unselected
    · intro _ _ other some_payload unsent
      rw [only some_payload] at unsent
      exact absurd sends unsent
  · obtain ⟨ends, planned, error, failed⟩ := Link.endsAt_of_not_sends (fit present payload)
      nonempty sends present.selector
      (Context.writeClock ⟨settings.width, settings.deviations⟩ present.selector link.clock)
      (link.payloadPlaces present)
    refine ⟨⟨fun succeeds => ?_, fun all => ?_⟩, ?_, ?_, ?_⟩
    · cases failed.symm.trans succeeds
    · exact absurd (all.2.2 present payload) sends
    · exact fun misfit => absurd fit misfit
    · exact fun _ unselected => absurd selected unselected
    · intro _ _ other some_payload _
      rw [only some_payload]
      refine ⟨ends, ?_⟩
      rw [messages, Link.bankPhase, Link.messagesIn_phaseScript, planned]
      exact congrArg (bench.messages ++ ·) (List.append_nil _)

end Endings

/-- **Every write on a bench without faults** ends so. -/
theorem write_ends (link : Link) (settings : BankSettings) (register : Nat)
    (request : Option WriteRequest) {bench : Bench} (faultless : bench.Faultless link.canMap) :
    ∃ outcome after,
      (RegisterBank.write ⟨link.channel, settings⟩ register request).run.run bench =
        (outcome, after) ∧
      WriteEnding link settings register request bench after outcome := by
  have accepts : bench.Accepts (link.writeScript settings register request).events :=
    faultless.accepts fun event member => link.canMap_of_mem_writeScript member
  rw [RegisterBank.write_eq_play]
  obtain ⟨after, ran, tried⟩ := Script.run_of_accepts AccessError.linkFailed _ accepts
  refine ⟨_, after, ran, ?_⟩
  have messages := messages_of_tried tried
  by_cases fit : ElementsFit settings request
  · by_cases selected : link.Sends settings.width 1
    · cases payload : WriteRequest.nonempty? request with
      | none => exact ending_of_no_payload payload selected
      | some present => exact ending_of_payload payload fit selected messages
    · exact ending_of_unselected fit selected messages
  · exact ending_of_misfit fit messages

/-- Three 16-bit elements are written through the tightest limits. -/
theorem write_ends_tightLink :
    ({} : Bench).Faultless tightLink.canMap ∧ ∃ after,
      (RegisterBank.write ⟨tightLink.channel, {}⟩ 34 (some threeHalves)).run.run {} =
        (.ok (), after) := by
  have faultless : ({} : Bench).Faultless tightLink.canMap := Bench.faultless_empty _
  obtain ⟨outcome, after, ran, ending⟩ := write_ends tightLink {} 34 (some threeHalves) faultless
  have succeeds : outcome = .ok () := by
    refine ending.succeeds.mpr ⟨?_, ⟨Or.inl (by decide), Or.inl (by decide)⟩, ?_⟩
    · intro present payload
      cases payload
      rfl
    · intro present payload
      cases payload
      exact ⟨Or.inr (Or.inl rfl), Or.inr (by decide)⟩
  rw [succeeds] at ran
  exact ⟨faultless, after, ran⟩

/-- A link whose scratch buffer is longer than any buffer can be. -/
def boundlessLink : Link where
  mode := .fourWire
  selectorLine := .line .selector
  reset := .absent
  config := { scratchLength := bufferLimit }
  mask := .bytesOnly
  clock := 10000000
  canMap := false
  handleOf := Slice.inPlace
  layout := .paged

/-- **A write that can be carried may still fail**: the element fits, both phases can be carried, and
nothing is planned to fail, but there cannot be the buffer in which the element is repacked. -/
theorem carried_without_room :
    Link.create { clock := 10000000, mask := .bytesOnly, canMap := false } .paged .fourWire
        (.line .selector) .absent { scratchLength := bufferLimit } = .ok boundlessLink ∧
      ElementsFit {} (some threeHalves) ∧
      boundlessLink.encoder.Carries boundlessLink.mode .bits8 1 ∧
      boundlessLink.encoder.Carries boundlessLink.mode .bits16 3 ∧
      ({} : Bench).Faultless boundlessLink.canMap ∧
      ((RegisterBank.write ⟨boundlessLink.channel, {}⟩ 34 (some threeHalves)).run.run {}).1 =
        .error .resourceExhausted := by
  have faultless : ({} : Bench).Faultless boundlessLink.canMap := Bench.faultless_empty _
  have accepts : ({} : Bench).Accepts (boundlessLink.writeScript {} 34 (some threeHalves)).events :=
    faultless.accepts fun event member => boundlessLink.canMap_of_mem_writeScript member
  have verdict : (boundlessLink.writeScript {} 34 (some threeHalves)).verdict =
      .error .resourceExhausted := rfl
  obtain ⟨after, ran, -⟩ := Script.run_of_accepts AccessError.linkFailed _ accepts
  rw [← RegisterBank.write_eq_play, verdict] at ran
  refine ⟨rfl, fun present payload => ?_, Or.inl (by decide), Or.inr (Or.inl rfl), faultless,
    congrArg Prod.fst ran⟩
  cases payload
  rfl

end PanelLink.Spi
