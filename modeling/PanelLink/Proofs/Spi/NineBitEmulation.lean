/-
**Nine-bit words over a controller that clocks bytes only.**

In 3-wire mode every byte travels as a nine-bit word with the selector in the ninth bit. A controller
without such words sends them packed, and zero words complete the last group.

* `NineBit.wordsFor`: the nine-bit words of a payload, and `NineBit.padded`: the words with their
  padding;
* `Encoder.flatten_tag`: the chunks of a payload, joined, are these words;
* `Emulates`: unpacking what the emulation sends gives what the controller with nine-bit words sends;
* **`emulation_refines`**: whatever the emulation writes, it writes so.
-/

import PanelLink.Proofs.Spi.WireForm

namespace PanelLink

namespace NineBit

/-! ### The nine-bit words of a payload -/

/-- **The nine-bit words of a payload**: its bytes, the high byte of an element first, each with the
selector in the ninth bit. -/
def wordsFor (selector : Selector) (words : Words) : List Nat :=
  (words.values.flatMap (bigEndian words.element.bytes)).map (· + selectorBit selector)

/-- Words with the zero words that complete the last group: in front of a command and behind
data. -/
def padded (selector : Selector) (words : List Nat) : List Nat :=
  let zeros := List.replicate (padding words.length) 0
  match selector with
  | .command => zeros ++ words
  | .data => words ++ zeros

theorem length_padded (selector : Selector) (words : List Nat) :
    (padded selector words).length = words.length + padding words.length := by
  cases selector
  · rw [padded, List.length_append, List.length_replicate, Nat.add_comm]
  · rw [padded, List.length_append, List.length_replicate]

theorem length_padded_mod (selector : Selector) (words : List Nat) :
    (padded selector words).length % groupWords = 0 := by
  rw [length_padded, add_padding_mod]

theorem padded_of_padding_eq_zero (selector : Selector) {words : List Nat}
    (whole : padding words.length = 0) : padded selector words = words := by
  cases selector <;> simp [padded, whole]

theorem tagByte_eq_add (selector : Selector) {byte : Nat} (small : byte < 256) :
    tagByte selector byte = byte + selectorBit selector := by
  cases selector with
  | command => exact Nat.or_zero byte
  | data =>
    have apart := Nat.two_pow_add_eq_or_of_lt (show byte < 2 ^ 8 from small) 1
    rw [Nat.mul_one] at apart
    show byte ||| 2 ^ 8 = byte + 2 ^ 8
    rw [Nat.or_comm, ← apart, Nat.add_comm]

theorem lt_of_mem_wordsFor {selector : Selector} {words : Words} {word : Nat}
    (member : word ∈ wordsFor selector words) : word < 512 := by
  obtain ⟨byte, inBytes, rfl⟩ := List.mem_map.mp member
  obtain ⟨value, -, inValue⟩ := List.mem_flatMap.mp inBytes
  have small := lt_of_mem_bigEndian inValue
  have bit : selectorBit selector ≤ 256 := by cases selector <;> decide
  show byte + selectorBit selector < 512
  omega

theorem lt_of_mem_padded {selector : Selector} {words : List Nat} (small : ∀ word ∈ words, word < 512)
    {word : Nat} (member : word ∈ padded selector words) : word < 512 := by
  have either : word = 0 ∨ word ∈ words := by
    cases selector with
    | command =>
      rcases List.mem_append.mp member with zero | inWords
      · exact Or.inl (List.eq_of_mem_replicate zero)
      · exact Or.inr inWords
    | data =>
      rcases List.mem_append.mp member with inWords | zero
      · exact Or.inr inWords
      · exact Or.inl (List.eq_of_mem_replicate zero)
  rcases either with rfl | inWords
  · decide
  · exact small word inWords

theorem map_tagByte_bigEndian (selector : Selector) (count value : Nat) :
    (bigEndian count value).map (tagByte selector) =
      (bigEndian count value).map (· + selectorBit selector) :=
  List.map_congr_left fun _ member => tagByte_eq_add selector (lt_of_mem_bigEndian member)

theorem map_tagByte {selector : Selector} {words : Words} (bytes : words.element = .byte) :
    words.values.map (tagByte selector) = wordsFor selector words := by
  rw [wordsFor, bytes, List.map_flatMap, List.map_eq_flatMap]
  refine List.flatMap_congr fun byte member => ?_
  have small : byte < 256 := by
    have := words.bounded byte member
    rwa [bytes] at this
  have single : bigEndian 1 byte = [byte] := congrArg (fun value => [value]) (Nat.mod_eq_of_lt small)
  show _ = (bigEndian 1 byte).map _
  rw [← map_tagByte_bigEndian, single]
  rfl

theorem flatMap_tagHalf {selector : Selector} {words : Words} (halves : words.element = .half) :
    words.values.flatMap (tagHalf selector) = wordsFor selector words := by
  rw [wordsFor, halves, List.map_flatMap]
  exact List.flatMap_congr fun half _ => map_tagByte_bigEndian selector 2 half

end NineBit

namespace Spi

/-! ### Tagging -/

namespace Encoder

theorem length_wordsFor (selector : Selector) (words : Words) :
    (NineBit.wordsFor selector words).length = words.length * words.element.bytes := by
  rw [NineBit.wordsFor, List.length_map, List.length_flatMap]
  simp [Words.length]

theorem tag_bytes (encoder : Encoder) (selector : Selector) {words : Words}
    (bytes : words.element = .byte) :
    encoder.tag selector words .bits8 =
      if encoder.mask.contains .bits9 ∨ NineBit.padding words.length = 0 then
        .ok (portions encoder.tagChunk (NineBit.wordsFor selector words))
      else if words.length + NineBit.padding words.length ≤ encoder.scratchLength then
        .ok [NineBit.padded selector (NineBit.wordsFor selector words)]
      else .error (.invalidArgument .incompleteNineBitGroup) := by
  have count := length_wordsFor selector words
  rw [bytes, show Element.byte.bytes = 1 from rfl, Nat.mul_one] at count
  rw [tag, NineBit.map_tagByte bytes]
  · cases selector <;> simp only [NineBit.padded, count]
  · exact bytes

theorem tag_halves (encoder : Encoder) (selector : Selector) {words : Words}
    (halves : words.element = .half) :
    encoder.tag selector words .bits16 =
      if encoder.mask.contains .bits9 ∨ NineBit.padding (words.length * 2) = 0 then
        .ok (portions encoder.tagChunk (NineBit.wordsFor selector words))
      else .error (.invalidArgument .incompleteNineBitGroup) := by
  rw [tag, NineBit.flatMap_tagHalf halves]
  exact halves

/-- Only bytes that travel as bytes and 16-bit elements that travel whole can be tagged. -/
theorem taggable {encoder : Encoder} {selector : Selector} {words : Words} {width : Width}
    {chunks : List (List Nat)} (tagged : encoder.tag selector words width = .ok chunks) :
    (width = .bits8 ∧ words.element = .byte) ∨ (width = .bits16 ∧ words.element = .half) := by
  unfold tag at tagged
  split at tagged
  · exact Or.inl ⟨rfl, by assumption⟩
  · exact Or.inr ⟨rfl, by assumption⟩
  · cases tagged

/-- The chunks of a payload, joined, are its nine-bit words, padded if these are going to be
packed. -/
theorem flatten_tag {encoder : Encoder} {selector : Selector} {words : Words} {width : Width}
    {chunks : List (List Nat)} (tagged : encoder.tag selector words width = .ok chunks) :
    chunks.flatten =
      if encoder.mask.contains .bits9 then NineBit.wordsFor selector words
      else NineBit.padded selector (NineBit.wordsFor selector words) := by
  have count := length_wordsFor selector words
  have bare (enough : encoder.mask.contains .bits9 = true ∨
      NineBit.padding (words.length * words.element.bytes) = 0) :
      NineBit.wordsFor selector words =
        if encoder.mask.contains .bits9 then NineBit.wordsFor selector words
        else NineBit.padded selector (NineBit.wordsFor selector words) := by
    by_cases native : encoder.mask.contains .bits9 = true
    · rw [if_pos native]
    · rw [if_neg native, NineBit.padded_of_padding_eq_zero]
      rw [count]
      exact enough.resolve_left native
  rcases taggable tagged with ⟨rfl, element⟩ | ⟨rfl, element⟩
  · rw [element, show Element.byte.bytes = 1 from rfl, Nat.mul_one] at bare
    rw [tag_bytes encoder selector element] at tagged
    split at tagged
    · rename_i enough
      cases tagged
      rw [flatten_portions]
      exact bare enough
    · rename_i short
      split at tagged
      · cases tagged
        rw [if_neg fun native => short (Or.inl native), List.flatten_singleton]
      · cases tagged
  · rw [element, show Element.half.bytes = 2 from rfl] at bare
    rw [tag_halves encoder selector element] at tagged
    split at tagged
    · rename_i enough
      cases tagged
      rw [flatten_portions]
      exact bare enough
    · cases tagged

/-- With native nine-bit words everything that can be tagged is. -/
theorem tag_native {encoder native : Encoder} (has : native.mask.contains .bits9 = true)
    {selector : Selector} {words : Words} {width : Width} {chunks : List (List Nat)}
    (tagged : encoder.tag selector words width = .ok chunks) :
    ∃ nativeChunks, native.tag selector words width = .ok nativeChunks := by
  rcases taggable tagged with ⟨rfl, element⟩ | ⟨rfl, element⟩
  · rw [tag_bytes native selector element, if_pos (Or.inl has)]
    exact ⟨_, rfl⟩
  · rw [tag_halves native selector element, if_pos (Or.inl has)]
    exact ⟨_, rfl⟩

/-! ### Encoding chunk by chunk -/

theorem wireForm_flatten {mask : WordSizes} {chunks : List (List Nat)}
    (whole : ∀ chunk ∈ chunks, WholeGroups mask .bits9 chunk) :
    wireForm mask .bits9 chunks.flatten = chunks.flatMap (wireForm mask .bits9) := by
  by_cases native : mask.contains .bits9 = true
  · have same (chunk : List Nat) : wireForm mask .bits9 chunk = chunk.map (⟨9, ·⟩) := if_pos native
    rw [same, List.map_flatten, List.flatMap_def]
    exact congrArg List.flatten (List.map_congr_left fun chunk _ => (same chunk).symm)
  · have same (chunk : List Nat) :
        wireForm mask .bits9 chunk = (NineBit.pack.all chunk).map (⟨8, ·⟩) := if_neg native
    have groups (chunk : List Nat) (member : chunk ∈ chunks) :
        chunk.length % NineBit.groupWords = 0 :=
      whole chunk member (Bool.eq_false_iff.mpr native) rfl
    rw [same, NineBit.pack.all_flatten (by decide) groups, List.map_flatMap]
    exact List.flatMap_congr fun chunk _ => (same chunk).symm

/-- Chunks that are all encoded hold the wire form of the whole. -/
theorem clocked_of_chunks {encoder : Encoder} {places : Places} {chunks : List (List Nat)}
    (small : ∀ chunk ∈ chunks, ∀ word ∈ chunk, word < 512) {encoded : List (List Block)}
    (ran : chunks.mapM (fun chunk => encoder.encode (Words.ofList .half chunk) .bits9 places) =
      .ok encoded) :
    encoded.flatten.flatMap Block.clocked = chunks.flatMap (wireForm encoder.mask .bits9) ∧
      ∀ chunk ∈ chunks, WholeGroups encoder.mask .bits9 chunk := by
  induction chunks generalizing encoded with
  | nil =>
    cases ran
    exact ⟨rfl, fun _ member => absurd member List.not_mem_nil⟩
  | cons chunk chunks ih =>
    have kept : (Words.ofList .half chunk).values = chunk := by
      refine (List.map_congr_left fun word member => ?_).trans (List.map_id chunk)
      have := small chunk List.mem_cons_self word member
      exact Element.truncate_of_lt (show word < 65536 by omega)
    rw [List.mapM_cons] at ran
    cases first : encoder.encode (Words.ofList .half chunk) .bits9 places with
    | error error =>
      rw [first] at ran
      cases ran
    | ok blocks =>
      cases rest : chunks.mapM fun chunk => encoder.encode (Words.ofList .half chunk) .bits9 places with
      | error error =>
        rw [first, rest] at ran
        cases ran
      | ok later =>
        rw [first, rest] at ran
        cases ran
        obtain ⟨here, whole⟩ := clocked_of_encode first
        obtain ⟨there, others⟩ :=
          ih (fun other member => small other (List.mem_cons_of_mem chunk member)) rest
        rw [kept] at here whole
        refine ⟨?_, ?_⟩
        · rw [List.flatten_cons, List.flatMap_append, here, there, List.flatMap_cons]
        · intro other member
          rcases List.mem_cons.mp member with rfl | later
          · exact whole
          · exact others other later

theorem phase_threeWire {encoder : Encoder} {selector : Selector} {words : Words} {width : Width}
    {chunks : List (List Nat)} (tagged : encoder.tag selector words width = .ok chunks)
    (places : Places) :
    encoder.phase .threeWire selector words width places =
      (chunks.mapM fun chunk =>
        encoder.encode (Words.ofList .half chunk) .bits9 places.tagged) >>= fun encoded =>
          pure encoded.flatten := by
  rw [phase, tagged]
  rfl

/-- **The blocks of a phase in 3-wire mode** hold the wire form of all its nine-bit words at
once. -/
theorem clocked_of_phase {encoder : Encoder} {selector : Selector} {words : Words} {width : Width}
    {places : Places} {blocks : List Block}
    (encoded : encoder.phase .threeWire selector words width places = .ok blocks) :
    ∃ chunks, encoder.tag selector words width = .ok chunks ∧
      blocks.flatMap Block.clocked = wireForm encoder.mask .bits9 chunks.flatten := by
  cases tagged : encoder.tag selector words width with
  | error error =>
    rw [phase, tagged] at encoded
    cases encoded
  | ok chunks =>
    have small (chunk : List Nat) (inChunks : chunk ∈ chunks) (word : Nat) (inChunk : word ∈ chunk) :
        word < 512 := by
      have member : word ∈ chunks.flatten := List.mem_flatten_of_mem inChunks inChunk
      rw [flatten_tag tagged] at member
      split at member
      · exact NineBit.lt_of_mem_wordsFor member
      · exact NineBit.lt_of_mem_padded (fun _ => NineBit.lt_of_mem_wordsFor) member
    refine ⟨chunks, rfl, ?_⟩
    rw [phase_threeWire tagged] at encoded
    cases ran : chunks.mapM fun chunk =>
      encoder.encode (Words.ofList .half chunk) .bits9 places.tagged with
    | error error =>
      rw [ran] at encoded
      cases encoded
    | ok encodedChunks =>
      rw [ran] at encoded
      cases encoded
      obtain ⟨clocked, whole⟩ := clocked_of_chunks small ran
      rw [wireForm_flatten whole]
      exact clocked

/-- Whatever is sent packed can be sent in native nine-bit words. -/
theorem phase_native {encoder native : Encoder} (has : native.mask.contains .bits9 = true)
    {selector : Selector} {words : Words} {width : Width} {places : Places} {blocks : List Block}
    (encoded : encoder.phase .threeWire selector words width places = .ok blocks)
    (nativePlaces : Places) :
    ∃ nativeBlocks, native.phase .threeWire selector words width nativePlaces = .ok nativeBlocks := by
  obtain ⟨chunks, tagged, -⟩ := clocked_of_phase encoded
  obtain ⟨nativeChunks, nativeTagged⟩ := tag_native has tagged
  have whole (chunk : List Nat) : native.encode (Words.ofList .half chunk) .bits9
      nativePlaces.tagged =
      .ok [{ words := Words.ofList .half chunk, bits := 9, address := nativePlaces.tags }] := if_pos has
  rw [phase_threeWire nativeTagged, funext whole]
  refine ⟨_, congrArg (· >>= fun encoded => pure encoded.flatten) (List.mapM_pure ..)⟩

end Encoder

/-! ### The emulation beside the native words -/

/-- **What the emulation of a phase sends, beside native nine-bit words**: these carry the payload,
and the bytes of the emulation unpack to them and their padding. -/
structure Emulates (selector : Selector) (words : Words) (emulated native : List Event) : Prop where
  native : Mode.threeWire.clockedIn native = (NineBit.wordsFor selector words).map (⟨9, ·⟩)
  emulated : ∃ bytes, Mode.threeWire.clockedIn emulated = bytes.map (⟨8, ·⟩) ∧
    bytes.length % NineBit.groupBytes = 0 ∧
    NineBit.unpack.all bytes = NineBit.padded selector (NineBit.wordsFor selector words)

theorem clockedIn_of_isPhase {link : Link} (threeWire : link.mode = .threeWire)
    {selector : Selector} {words : Words} {width : Width} {events : List Event}
    (phase : link.IsPhase selector words width events) :
    ∃ chunks, link.encoder.tag selector words width = .ok chunks ∧
      Mode.threeWire.clockedIn events = wireForm link.mask .bits9 chunks.flatten := by
  obtain ⟨clock, places, blocks, encoded, rfl⟩ := phase
  rw [threeWire] at encoded
  obtain ⟨chunks, tagged, clocked⟩ := Encoder.clocked_of_phase encoded
  refine ⟨chunks, tagged, ?_⟩
  rw [← threeWire, link.clockedIn_phaseEvents]
  exact clocked

theorem emulates_of_isPhase {emulated native : Link} (emulatedMode : emulated.mode = .threeWire)
    (nativeMode : native.mode = .threeWire) (lacks : emulated.mask.contains .bits9 = false)
    (has : native.mask.contains .bits9 = true) {selector : Selector} {words : Words}
    {width : Width} {emulatedEvents nativeEvents : List Event}
    (packed : emulated.IsPhase selector words width emulatedEvents)
    (plain : native.IsPhase selector words width nativeEvents) :
    Emulates selector words emulatedEvents nativeEvents := by
  obtain ⟨chunks, tagged, clocked⟩ := clockedIn_of_isPhase emulatedMode packed
  obtain ⟨nativeChunks, nativeTagged, nativeClocked⟩ := clockedIn_of_isPhase nativeMode plain
  have joined := Encoder.flatten_tag tagged
  have nativeJoined := Encoder.flatten_tag nativeTagged
  rw [show emulated.encoder.mask = emulated.mask from rfl, lacks, if_neg Bool.false_ne_true]
    at joined
  rw [show native.encoder.mask = native.mask from rfl, has, if_pos rfl] at nativeJoined
  rw [joined, wireForm, lacks, if_neg Bool.false_ne_true] at clocked
  rw [nativeJoined, wireForm, has, if_pos rfl] at nativeClocked
  have whole := NineBit.length_padded_mod selector (NineBit.wordsFor selector words)
  refine ⟨nativeClocked, _, clocked, ?_, ?_⟩
  · show (NineBit.pack.all _).length % _ = 0
    rw [NineBit.length_pack_all, Nat.mul_mod_left]
  · show NineBit.unpack.all (NineBit.pack.all _) = _
    rw [NineBit.unpack_all_pack_all whole]
    refine (List.map_congr_left fun word member => ?_).trans (List.map_id _)
    exact Nat.mod_eq_of_lt (NineBit.lt_of_mem_padded (fun _ => NineBit.lt_of_mem_wordsFor) member)

/-- **The emulation refines the native words.** Whatever a 3-wire link over a controller without
nine-bit words manages to write, a 3-wire link over a controller that has them writes too when
nothing fails, and phase by phase the first one's bytes unpack to the second one's words with zero
words in front of a command or behind data. Neither depends on what was sent before. -/
theorem emulation_refines {emulated native : Link} (emulatedMode : emulated.mode = .threeWire)
    (nativeMode : native.mode = .threeWire) (lacks : emulated.mask.contains .bits9 = false)
    (has : native.mask.contains .bits9 = true) (settings : BankSettings) (register : Nat)
    (request : Option WriteRequest) {bench after : Bench}
    (ran : (RegisterBank.write ⟨emulated.channel, settings⟩ register request).run.run bench =
      (.ok (), after)) :
    ∃ select data, after.log = (select ++ data).reverse ++ bench.log ∧
      ∀ start : Bench, start.Faultless native.canMap → ∃ nativeSelect nativeData finish,
        (RegisterBank.write ⟨native.channel, settings⟩ register request).run.run start =
          (.ok (), finish) ∧
        finish.log = (nativeSelect ++ nativeData).reverse ++ start.log ∧
        Emulates .command (registerWord register settings.width) select nativeSelect ∧
        match WriteRequest.nonempty? request with
        | some present => Emulates present.selector present.words data nativeData
        | none => data = [] ∧ nativeData = [] := by
  obtain ⟨resolved, settled, -⟩ := RegisterBank.write_eq_ok ran
  obtain ⟨select, data, log, selected, sent⟩ := RegisterBank.log_write ran
  refine ⟨select, data, log, fun start faultless => ?_⟩
  have sendable {selector : Selector} {words : Words} {width : Width} {events : List Event}
      (phase : emulated.IsPhase selector words width events) (places : Places) :
      ∃ blocks, native.encoder.phase native.mode selector words width places = .ok blocks := by
    obtain ⟨_, _, blocks, encoded, -⟩ := phase
    rw [emulatedMode] at encoded
    rw [nativeMode]
    exact Encoder.phase_native has encoded places
  have succeeds : Succeeds native.canMap
      (RegisterBank.write ⟨native.channel, settings⟩ register request) := by
    have settledToo : (RegisterBank.mk native.channel settings).resolve request = .ok resolved :=
      (RegisterBank.resolve_mk _ emulated.channel settings request).trans settled
    refine RegisterBank.succeeds_write settledToo (sendable selected _) fun present payload => ?_
    rw [DataPhase, payload] at sent
    exact sendable sent _
  obtain ⟨_, finish, nativeRan, -⟩ := succeeds start faultless
  obtain ⟨nativeSelect, nativeData, nativeLog, nativeSelected, nativeSent⟩ :=
    RegisterBank.log_write nativeRan
  refine ⟨nativeSelect, nativeData, finish, nativeRan, nativeLog,
    emulates_of_isPhase emulatedMode nativeMode lacks has selected nativeSelected, ?_⟩
  unfold DataPhase at sent nativeSent
  cases payload : WriteRequest.nonempty? request with
  | none =>
    rw [payload] at sent nativeSent
    exact ⟨sent, nativeSent⟩
  | some present =>
    rw [payload] at sent nativeSent
    exact emulates_of_isPhase emulatedMode nativeMode lacks has sent nativeSent

/-- A 3-wire link over a controller that clocks words of the given sizes. -/
def threeWireLink (mask : WordSizes) : Link where
  mode := .threeWire
  selectorLine := .absent
  reset := .absent
  config := { segmentLimit := 4, scratchLength := 9 }
  mask
  clock := 8000000
  canMap := false
  handleOf := Slice.inPlace
  layout := .paged

/-- Three bytes written to register 34, with five zero words behind them and seven in front of the
register number. -/
theorem emulation_refines_threeBytes :
    (threeWireLink .bytesOnly).mask.contains .bits9 = false ∧
    (threeWireLink (.ofWidths [.bits8, .bits9])).mask.contains .bits9 = true ∧
    ∃ (after finish : Bench) (select data nativeSelect nativeData : List Event),
      (RegisterBank.write ⟨(threeWireLink .bytesOnly).channel, {}⟩ 34
        (some { words := Words.ofList .byte [1, 2, 255], address := 0 })).run.run {} = (.ok (), after) ∧
      after.log = (select ++ data).reverse ++ [] ∧
      finish.log = (nativeSelect ++ nativeData).reverse ++ [] ∧
      Emulates .command (registerWord 34 .bits8) select nativeSelect ∧
      Emulates .data (Words.ofList .byte [1, 2, 255]) data nativeData := by
  have lacks : (threeWireLink .bytesOnly).mask.contains .bits9 = false := by decide
  have has : (threeWireLink (.ofWidths [.bits8, .bits9])).mask.contains .bits9 = true := by decide
  have succeeds : Succeeds (threeWireLink .bytesOnly).canMap
      (RegisterBank.write ⟨(threeWireLink .bytesOnly).channel, {}⟩ 34
        (some { words := Words.ofList .byte [1, 2, 255], address := 0 })) := by
    refine RegisterBank.succeeds_write rfl ⟨_, rfl⟩ fun present payload => ?_
    cases payload
    exact ⟨_, rfl⟩
  obtain ⟨_, after, ran, -⟩ := succeeds {} (Bench.faultless_empty _)
  obtain ⟨select, data, log, refined⟩ := emulation_refines rfl rfl lacks has {} 34 _ ran
  obtain ⟨nativeSelect, nativeData, finish, -, nativeLog, selected, sent⟩ :=
    refined {} (Bench.faultless_empty _)
  exact ⟨lacks, has, after, finish, select, data, nativeSelect, nativeData, ran, log, nativeLog,
    selected, sent⟩

end Spi

end PanelLink
