/-
**Which phases can be carried, and how the others end.**

Refusals are decided at different depths: by the wire mode, by the width and by the packing, some for
a chunk of the payload only. All of them follow from the width and the number of elements of a phase.

* `Encoder.Carries`: whether a phase of so many elements of a width can be carried, and
  `Encoder.HasRoom`: whether there can be the buffer in which it is repacked;
* **`phase_of_carries`**, **`phase_of_no_room`**, **`phase_of_not_carries`**: the three ways in which a
  phase ends;
* **`sendPhase_eq_sendChunks`**: to encode a chunk only when those before it have been sent comes to
  the same;
* `produced_of_mem_portions`: the scratch buffer takes every scratch-full whole;
* `Link.checked_of_create`: the limits that every link has been checked for.
-/

import PanelLink.Proofs.Spi.NineBitEmulation
import PanelLink.Spi.Link

namespace PanelLink.Spi

namespace Encoder

/-! ### What can be carried -/

/-- The widths that can be repacked into bytes; nine-bit words only in whole groups. -/
def Repackable (width : Width) (count : Nat) : Prop :=
  width = .bits16 ∨ width = .bits24 ∨ width = .bits32 ∨ (width = .bits9 ∧ count % 8 = 0)

/-- **Whether a phase of so many elements of a width can be carried.** -/
def Carries (encoder : Encoder) (mode : Mode) (width : Width) (count : Nat) : Prop :=
  match mode with
  | .threeWire =>
    (width = .bits8 ∨ width = .bits16) ∧
      (encoder.mask.contains .bits9 = true ∨
        (width = .bits8 ∧ (count % 8 = 0 ∨ (count + 7) / 8 * 8 ≤ encoder.scratchLength)) ∨
        (width = .bits16 ∧ count % 4 = 0))
  | _ => encoder.mask.contains width = true ∨ Repackable width count

/-- The width of the words that a phase hands to the controller. -/
def handedWidth (mode : Mode) (width : Width) : Width :=
  match mode with
  | .threeWire => .bits9
  | _ => width

/-- **Whether there can be the buffer** in which the words of a phase are repacked, if they are. -/
def HasRoom (encoder : Encoder) (mode : Mode) (width : Width) : Prop :=
  encoder.mask.contains (handedWidth mode width) = true ∨ encoder.scratchLength < bufferLimit

variable {encoder : Encoder} {words : Words} {width : Width}

/-! ### One run of words -/

/-- How elements of a width are repacked into bytes. -/
def repackingFor : Width → Repacking
  | .bits8 => packBytes 1
  | .bits9 => NineBit.pack
  | .bits16 => packBytes 2
  | .bits24 => packBytes 3
  | .bits32 => packBytes 4

theorem encode_of_repackable (emulated : encoder.mask.contains width = false)
    (element : words.element = width.element) (repackable : Repackable width words.length)
    (places : Places) :
    encoder.encode words width places =
      encoder.repackBlocks (repackingFor width) words.values places.scratch := by
  unfold encode
  rw [emulated, if_neg Bool.false_ne_true, element]
  rcases repackable with rfl | rfl | rfl | ⟨rfl, whole⟩
  · rfl
  · rfl
  · rfl
  · exact if_pos whole

/-- Words that are clocked or repacked have blocks, unless there cannot be the buffer. -/
theorem encode_of_carried (element : words.element = width.element)
    (carried : encoder.mask.contains width = true ∨ Repackable width words.length)
    (room : encoder.mask.contains width = true ∨ encoder.scratchLength < bufferLimit)
    (places : Places) : ∃ blocks, encoder.encode words width places = .ok blocks := by
  cases native : encoder.mask.contains width with
  | true => exact ⟨_, if_pos native⟩
  | false =>
    rw [native] at carried room
    have small : encoder.scratchLength < bufferLimit := room.resolve_left Bool.false_ne_true
    have encoded := encode_of_repackable native element
      (carried.resolve_left Bool.false_ne_true) places
    exact ⟨_, encoded.trans (if_neg (Nat.not_le.mpr small))⟩

theorem encode_of_no_room (element : words.element = width.element)
    (emulated : encoder.mask.contains width = false) (repackable : Repackable width words.length)
    (noRoom : bufferLimit ≤ encoder.scratchLength) (places : Places) :
    encoder.encode words width places = .error .resourceExhausted :=
  (encode_of_repackable emulated element repackable places).trans (if_pos noRoom)

theorem encode_of_not_repackable (element : words.element = width.element)
    (emulated : encoder.mask.contains width = false)
    (unrepackable : ¬Repackable width words.length) (places : Places) :
    ∃ misuse, encoder.encode words width places = .error (.invalidArgument misuse) := by
  unfold encode
  rw [emulated, if_neg Bool.false_ne_true, element]
  cases width with
  | bits8 => exact ⟨_, rfl⟩
  | bits9 =>
    have partly : ¬words.length % NineBit.groupWords = 0 := fun whole =>
      unrepackable (Or.inr (Or.inr (Or.inr ⟨rfl, whole⟩)))
    exact ⟨_, if_neg partly⟩
  | bits16 => exact absurd (Or.inl rfl) unrepackable
  | bits24 => exact absurd (Or.inr (Or.inl rfl)) unrepackable
  | bits32 => exact absurd (Or.inr (Or.inr (Or.inl rfl))) unrepackable

/-! ### The chunks of a 3-wire phase -/

theorem padding_eq_zero_iff (count : Nat) : NineBit.padding count = 0 ↔ count % 8 = 0 := by
  unfold NineBit.padding NineBit.groupWords
  omega

/-- Padding rounds up to whole groups. -/
theorem add_padding (count : Nat) : count + NineBit.padding count = (count + 7) / 8 * 8 := by
  unfold NineBit.padding NineBit.groupWords
  omega

theorem tagChunk_pos (encoder : Encoder) : 0 < encoder.tagChunk :=
  Nat.lt_of_lt_of_le (by decide) (Nat.le_max_right _ _)

theorem dvd_tagChunk (encoder : Encoder) : 8 ∣ encoder.tagChunk := by
  unfold tagChunk NineBit.groupWords
  omega

/-- Whole groups of tagged words can be packed. -/
theorem repackable_tagged {chunk : List Nat} (whole : chunk.length % 8 = 0) :
    Repackable .bits9 (Words.ofList .half chunk).length := by
  rw [← List.length_map Element.half.truncate] at whole
  exact Or.inr (Or.inr (Or.inr ⟨rfl, whole⟩))

/-- A payload of whole groups is cut into chunks of whole groups. -/
theorem whole_of_mem_portions {tagged chunk : List Nat} (whole : tagged.length % 8 = 0)
    (member : chunk ∈ portions encoder.tagChunk tagged) : chunk.length % 8 = 0 :=
  length_mod_of_mem_portions encoder.tagChunk_pos (Nat.mod_eq_zero_of_dvd encoder.dvd_tagChunk) whole
    member

/-- The elements of a payload that is tagged have the size of its width. -/
theorem element_of_tag {selector : Selector} {chunks : List (List Nat)}
    (tagged : encoder.tag selector words width = .ok chunks) : words.element = width.element := by
  rcases taggable tagged with ⟨rfl, element⟩ | ⟨rfl, element⟩
  · exact element
  · exact element

/-- **Elements that are carried in 3-wire mode are tagged, and each chunk of theirs is carried.** -/
theorem tag_of_carries (element : words.element = width.element)
    (carried : encoder.Carries .threeWire width words.length) (selector : Selector) :
    ∃ chunks, encoder.tag selector words width = .ok chunks ∧
      ∀ chunk ∈ chunks, encoder.mask.contains .bits9 = true ∨
        Repackable .bits9 (Words.ofList .half chunk).length := by
  have count := length_wordsFor selector words
  obtain ⟨rfl | rfl, groups⟩ := carried
  · rw [show words.element = .byte from element, show Element.byte.bytes = 1 from rfl,
      Nat.mul_one] at count
    rw [tag_bytes encoder selector element]
    by_cases bare : encoder.mask.contains .bits9 = true ∨ NineBit.padding words.length = 0
    · rw [if_pos bare]
      refine ⟨_, rfl, fun chunk member => bare.imp_right fun whole => ?_⟩
      rw [← count, padding_eq_zero_iff] at whole
      exact repackable_tagged (whole_of_mem_portions whole member)
    · have fits : words.length + NineBit.padding words.length ≤ encoder.scratchLength := by
        rcases groups with native | ⟨-, whole | fits⟩ | ⟨impossible, -⟩
        · exact absurd (Or.inl native) bare
        · exact absurd (Or.inr ((padding_eq_zero_iff _).mpr whole)) bare
        · rwa [add_padding]
        · cases impossible
      rw [if_neg bare, if_pos fits]
      refine ⟨_, rfl, fun chunk member => Or.inr ?_⟩
      rw [List.mem_singleton.mp member]
      exact repackable_tagged
        (NineBit.length_padded_mod selector (NineBit.wordsFor selector words))
  · rw [show words.element = .half from element, show Element.half.bytes = 2 from rfl] at count
    rw [tag_halves encoder selector element]
    have bare : encoder.mask.contains .bits9 = true ∨ NineBit.padding (words.length * 2) = 0 := by
      rcases groups with native | ⟨impossible, -⟩ | ⟨-, whole⟩
      · exact Or.inl native
      · cases impossible
      · refine Or.inr ((padding_eq_zero_iff _).mpr ?_)
        omega
    rw [if_pos bare]
    refine ⟨_, rfl, fun chunk member => bare.imp_right fun whole => ?_⟩
    rw [← count, padding_eq_zero_iff] at whole
    exact repackable_tagged (whole_of_mem_portions whole member)

theorem tag_of_not_carries (element : words.element = width.element)
    (uncarried : ¬encoder.Carries .threeWire width words.length) (selector : Selector) :
    ∃ misuse, encoder.tag selector words width = .error (.invalidArgument misuse) := by
  cases width with
  | bits8 =>
    have short : ¬(encoder.mask.contains .bits9 = true ∨ NineBit.padding words.length = 0) := by
      rintro (native | whole)
      · exact uncarried ⟨Or.inl rfl, Or.inl native⟩
      · exact uncarried ⟨Or.inl rfl, Or.inr (Or.inl ⟨rfl, Or.inl ((padding_eq_zero_iff _).mp whole)⟩)⟩
    have long : ¬words.length + NineBit.padding words.length ≤ encoder.scratchLength := by
      rw [add_padding]
      exact fun fits => uncarried ⟨Or.inl rfl, Or.inr (Or.inl ⟨rfl, Or.inr fits⟩)⟩
    rw [tag_bytes encoder selector element, if_neg short, if_neg long]
    exact ⟨_, rfl⟩
  | bits16 =>
    have short :
        ¬(encoder.mask.contains .bits9 = true ∨ NineBit.padding (words.length * 2) = 0) := by
      rintro (native | whole)
      · exact uncarried ⟨Or.inr rfl, Or.inl native⟩
      · have quarters : words.length % 4 = 0 := by
          have := (padding_eq_zero_iff _).mp whole
          omega
        exact uncarried ⟨Or.inr rfl, Or.inr (Or.inr ⟨rfl, quarters⟩)⟩
    rw [tag_halves encoder selector element, if_neg short]
    exact ⟨_, rfl⟩
  | bits9 => exact ⟨_, rfl⟩
  | bits24 => exact ⟨_, rfl⟩
  | bits32 => exact ⟨_, rfl⟩

/-- A payload that is not empty has chunks. -/
theorem tag_ne_nil (nonempty : words.values ≠ []) {selector : Selector} {chunks : List (List Nat)}
    (tagged : encoder.tag selector words width = .ok chunks) : chunks ≠ [] := by
  rintro rfl
  have joined := congrArg List.length (flatten_tag tagged)
  have count := length_wordsFor selector words
  have positive : 0 < words.length * words.element.bytes :=
    Nat.mul_pos (List.length_pos_iff.mpr nonempty) words.element.bytes_pos
  rw [List.flatten_nil, List.length_nil] at joined
  split at joined
  · omega
  · rw [NineBit.length_padded] at joined
    omega

/-! ### Whole phases -/

theorem mapM_eq_ok {α β ε : Type} {items : List α} {action : α → Except ε β}
    (each : ∀ item ∈ items, ∃ value, action item = .ok value) :
    ∃ values, items.mapM action = .ok values := by
  induction items with
  | nil => exact ⟨[], rfl⟩
  | cons item items ih =>
    obtain ⟨value, first⟩ := each item List.mem_cons_self
    obtain ⟨values, others⟩ := ih fun other member => each other (List.mem_cons_of_mem item member)
    refine ⟨value :: values, ?_⟩
    rw [List.mapM_cons, first, others]
    rfl

/-- **A phase that is carried** has blocks, unless there cannot be the buffer. -/
theorem phase_of_carries {mode : Mode} (element : words.element = width.element)
    (carried : encoder.Carries mode width words.length) (room : encoder.HasRoom mode width)
    (selector : Selector) (places : Places) :
    ∃ blocks, encoder.phase mode selector words width places = .ok blocks := by
  cases mode with
  | threeWire =>
    obtain ⟨chunks, tagged, each⟩ := tag_of_carries element carried selector
    have eachEncoded (chunk : List Nat) (member : chunk ∈ chunks) :
        ∃ blocks, encoder.encode (Words.ofList .half chunk) .bits9 places.tagged = .ok blocks :=
      encode_of_carried rfl (each chunk member) room _
    obtain ⟨encoded, ran⟩ := mapM_eq_ok eachEncoded
    refine ⟨encoded.flatten, ?_⟩
    rw [phase_threeWire tagged, ran]
    rfl
  | _ => exact encode_of_carried element carried room places

/-- **A phase that is carried but cannot have its buffer** exhausts the resources. -/
theorem phase_of_no_room {mode : Mode} (element : words.element = width.element)
    (nonempty : words.values ≠ []) (carried : encoder.Carries mode width words.length)
    (noRoom : ¬encoder.HasRoom mode width) (selector : Selector) (places : Places) :
    encoder.phase mode selector words width places = .error .resourceExhausted := by
  obtain ⟨emulated, large⟩ := not_or.mp noRoom
  rw [Nat.not_lt] at large
  cases mode with
  | threeWire =>
    obtain ⟨chunks, tagged, each⟩ := tag_of_carries element carried selector
    -- An empty payload would have no chunk, and nothing that fails.
    obtain ⟨chunk, rest, rfl⟩ := List.exists_cons_of_ne_nil (tag_ne_nil nonempty tagged)
    have first : encoder.encode (Words.ofList .half chunk) .bits9 places.tagged =
        .error .resourceExhausted :=
      encode_of_no_room rfl (Bool.eq_false_iff.mpr emulated)
        ((each chunk List.mem_cons_self).resolve_left emulated) large _
    rw [phase_threeWire tagged, List.mapM_cons, first]
    rfl
  | _ =>
    exact encode_of_no_room element (Bool.eq_false_iff.mpr emulated) (carried.resolve_left emulated)
      large places

/-- **A phase that cannot be carried** is an invalid argument. -/
theorem phase_of_not_carries {mode : Mode} (element : words.element = width.element)
    (uncarried : ¬encoder.Carries mode width words.length)
    (selector : Selector) (places : Places) :
    ∃ misuse, encoder.phase mode selector words width places = .error (.invalidArgument misuse) := by
  cases mode with
  | threeWire =>
    obtain ⟨misuse, refused⟩ := tag_of_not_carries element uncarried selector
    exact ⟨misuse, by rw [phase, refused]; rfl⟩
  | _ =>
    obtain ⟨emulated, unrepackable⟩ := not_or.mp uncarried
    exact encode_of_not_repackable element (Bool.eq_false_iff.mpr emulated) unrepackable places

/-! ### Chunks that are encoded one at a time -/

/-- Either all chunks of a payload are encoded, or the first one is refused already. -/
theorem encode_chunks {selector : Selector} {chunks : List (List Nat)}
    (tagged : encoder.tag selector words width = .ok chunks) (places : Places) :
    (∀ chunk ∈ chunks,
        ∃ blocks, encoder.encode (Words.ofList .half chunk) .bits9 places = .ok blocks) ∨
      ∀ chunk ∈ chunks,
        encoder.encode (Words.ofList .half chunk) .bits9 places = .error .resourceExhausted := by
  have element := element_of_tag tagged
  have carried : encoder.Carries .threeWire width words.length := by
    by_contra uncarried
    obtain ⟨misuse, refused⟩ := tag_of_not_carries element uncarried selector
    rw [tagged] at refused
    cases refused
  obtain ⟨others, taggedToo, each⟩ := tag_of_carries element carried selector
  obtain rfl : chunks = others := Except.ok.inj (tagged.symm.trans taggedToo)
  by_cases room : encoder.HasRoom .threeWire width
  · exact Or.inl fun chunk member => encode_of_carried rfl (each chunk member) room _
  · obtain ⟨emulated, large⟩ := not_or.mp room
    rw [Nat.not_lt] at large
    exact Or.inr fun chunk member => encode_of_no_room rfl (Bool.eq_false_iff.mpr emulated)
      ((each chunk member).resolve_left emulated) large _

/-- **The scratch buffer takes every scratch-full whole.** -/
theorem produced_of_mem_portions (encoder : Encoder) {repacking : Repacking}
    (source : 0 < repacking.sourceGroup) (target : 0 < repacking.targetGroup) {values chunk : List Nat}
    (whole : values.length % repacking.sourceGroup = 0)
    (member : chunk ∈ portions (encoder.scratchGroups repacking * repacking.sourceGroup) values) :
    repacking.produced chunk (encoder.scratchGroups repacking * repacking.targetGroup) =
      repacking.all chunk := by
  have groups : 0 < encoder.scratchGroups repacking :=
    Nat.lt_of_lt_of_le Nat.one_pos (Nat.le_max_right _ _)
  have positive := Nat.mul_pos groups source
  have fits : chunk.length ≤ encoder.scratchGroups repacking * repacking.sourceGroup :=
    length_le_of_mem_portions positive member
  have wholeChunk : chunk.length % repacking.sourceGroup = 0 :=
    length_mod_of_mem_portions positive (Nat.mul_mod_left _ _) whole member
  refine repacking.produced_eq_all wholeChunk ?_
  rw [Nat.mul_div_cancel _ target]
  exact Nat.div_le_of_le_mul (by rwa [Nat.mul_comm])

end Encoder

namespace Link

/-- **What has been checked of a link** when it was created. -/
theorem checked_of_create {advertised : Advertised} {layout : Layout} {mode : Mode}
    {selectorLine reset : Connection} {config : Config} {link : Link}
    (created : create advertised layout mode selectorLine reset config = .ok link) :
    link.mode = mode ∧ 4 ≤ link.config.segmentLimit ∧
      NineBit.groupBytes ≤ link.config.scratchLength ∧ link.mask.contains .bits8 = true := by
  unfold create at created
  dsimp only at created
  split at created
  · cases created
  · split at created
    · cases created
    · rename_i roomy
      obtain ⟨segments, scratch⟩ := not_or.mp roomy
      split at created
      · cases created
      · rename_i bytes
        cases created
        refine ⟨rfl, Nat.not_lt.mp segments, Nat.not_lt.mp scratch, ?_⟩
        simpa using bytes

/-- Encodes and sends the chunks of a payload in turn: none is encoded before those ahead of it have
been sent. -/
def sendChunks (link : Link) (selector : Selector) (clock : Option Nat) (places : Places)
    (chunks : List (List Nat)) : ExceptT AccessError BenchM Unit :=
  chunks.forM fun chunk => do
    let blocks ← link.encoder.encode (Words.ofList .half chunk) .bits9 places.tagged
    blocks.forM (link.sendBlock selector clock)

/-- Chunks that are all encoded are sent in turn. -/
theorem sendChunks_of_mapM {link : Link} {selector : Selector} {clock : Option Nat}
    {places : Places} {chunks : List (List Nat)} {encoded : List (List Block)}
    (ran : chunks.mapM (fun chunk =>
      link.encoder.encode (Words.ofList .half chunk) .bits9 places.tagged) = .ok encoded) :
    link.sendChunks selector clock places chunks =
      encoded.flatten.forM (link.sendBlock selector clock) := by
  induction chunks generalizing encoded with
  | nil =>
    cases ran
    rfl
  | cons chunk chunks ih =>
    have joined (first later : List Block) :
        (first ++ later).forM (link.sendBlock selector clock) =
          first.forM (link.sendBlock selector clock) >>= fun _ =>
            later.forM (link.sendBlock selector clock) := List.forM_append
    rw [List.mapM_cons] at ran
    cases first : link.encoder.encode (Words.ofList .half chunk) .bits9 places.tagged with
    | error error =>
      rw [first] at ran
      cases ran
    | ok blocks =>
      cases rest : chunks.mapM fun chunk =>
        link.encoder.encode (Words.ofList .half chunk) .bits9 places.tagged with
      | error error =>
        rw [first, rest] at ran
        cases ran
      | ok later =>
        rw [first, rest] at ran
        cases ran
        rw [List.flatten_cons, joined, ← ih rest]
        show (liftM (link.encoder.encode (Words.ofList .half chunk) .bits9 places.tagged) >>= fun blocks =>
          blocks.forM (link.sendBlock selector clock)) >>= _ = _
        rw [first]
        rfl

/-- **Sending chunk by chunk.** In 3-wire mode it makes no difference whether all chunks are encoded
before the first one is sent: none is refused after another one went out. -/
theorem sendPhase_eq_sendChunks {link : Link} (threeWire : link.mode = .threeWire)
    (selector : Selector) (clock : Option Nat) (words : Words) (width : Width) (places : Places) :
    link.sendPhase selector clock words width places =
      (liftM (link.encoder.tag selector words width) >>= link.sendChunks selector clock places) := by
  rw [sendPhase_eq, if_pos threeWire, pure_bind, threeWire]
  cases tagged : link.encoder.tag selector words width with
  | error error =>
    rw [Encoder.phase, tagged]
    rfl
  | ok chunks =>
    rw [Encoder.phase_threeWire tagged]
    show _ = (pure chunks >>= link.sendChunks selector clock places)
    rw [pure_bind]
    rcases Encoder.encode_chunks tagged places.tagged with each | refused
    · obtain ⟨encoded, ran⟩ := Encoder.mapM_eq_ok each
      rw [sendChunks_of_mapM ran, ran]
      rfl
    · cases chunks with
      | nil => rfl
      | cons chunk chunks =>
        have first := refused chunk List.mem_cons_self
        rw [List.mapM_cons, first]
        show _ = (liftM (link.encoder.encode (Words.ofList .half chunk) .bits9 places.tagged) >>= _) >>= _
        rw [first]
        rfl

end Link

end PanelLink.Spi
