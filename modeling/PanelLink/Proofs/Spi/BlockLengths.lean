/-
**How long the blocks of a phase are.**

The words of a phase that belong together are one unit: those of an element, or those of a packed group
of nine-bit words. Every block holds whole units, and the longest is as long as the scratch buffer and
the payload allow.

* `Encoder.unit`: the words of a unit, and `Encoder.longestBlock`: those of the longest block;
* `Encoder.handedAddress`: where each block begins;
* `Measured`: blocks of whole units at one place, none longer than a length and one of that length;
* `measured_repackBlocks`, `measured_native`, `measured_packed`: repacked words and tagged chunks are
  measured so;
* **`measured_repacked`**, **`measured_threeWire`**: so is every phase whose units may be cut;
* `longestBlock_le_scratch`: no block that is repacked or tagged is longer than the scratch buffer.
-/

import PanelLink.Proofs.Spi.Carriage

namespace PanelLink.Spi

/-- **Blocks of whole units**, none longer than a length and one of that length, all beginning at one
place in memory. -/
structure Measured (blocks : List Block) (element : Element) (start unit longest : Nat) : Prop where
  element : ∀ block ∈ blocks, block.words.element = element
  address : ∀ block ∈ blocks, block.address = start
  whole : ∀ block ∈ blocks, unit ∣ block.words.length
  bound : ∀ block ∈ blocks, block.words.length ≤ longest
  attained : ∃ block ∈ blocks, block.words.length = longest

/-- One block is measured by its own length. -/
theorem measured_singleton {block : Block} {element : Element} {start unit : Nat}
    (size : block.words.element = element) (place : block.address = start)
    (whole : unit ∣ block.words.length) :
    Measured [block] element start unit block.words.length where
  element := List.forall_mem_singleton.mpr size
  address := List.forall_mem_singleton.mpr place
  whole := List.forall_mem_singleton.mpr whole
  bound := List.forall_mem_singleton.mpr (Nat.le_refl _)
  attained := ⟨block, List.mem_singleton_self block, rfl⟩

namespace Encoder

variable (encoder : Encoder)

/-- **The words that belong together** in a phase: those of an element, or of a group of nine-bit
words. -/
def unit (mode : Mode) (width : Width) : Nat :=
  match mode with
  | .threeWire =>
    if encoder.mask.contains .bits9 then width.element.bytes else NineBit.pack.targetGroup
  | _ => if encoder.mask.contains width then 1 else (repackingFor width).targetGroup

/-- The units of a phase of so many elements. -/
def units (mode : Mode) (width : Width) (count : Nat) : Nat :=
  match mode with
  | .threeWire =>
    if encoder.mask.contains .bits9 then count else (count * width.element.bytes + 7) / 8
  | _ => if encoder.mask.contains width then count else count / (repackingFor width).sourceGroup

/-- The memory size of the words that a phase hands to the controller. -/
def handedElement (mode : Mode) (width : Width) : Element :=
  if encoder.mask.contains (handedWidth mode width) then (handedWidth mode width).element else .byte

/-- **Where the words begin** that a phase hands to the controller: in the scratch buffer if they are
repacked, and else where they carry the selector or where the payload lies. -/
def handedAddress (mode : Mode) (width : Width) (places : Places) : Nat :=
  if encoder.mask.contains (handedWidth mode width) then
    match mode with
    | .threeWire => places.tags
    | _ => places.payload
  else places.scratch

/-- **The words in the longest block** of a phase, which is all of it unless it is repacked or
tagged: the scratch buffer holds so many units, and a chunk so many tagged words. -/
def longestBlock (mode : Mode) (width : Width) (count : Nat) : Nat :=
  let unit := encoder.unit mode width
  let total := encoder.units mode width count * unit
  if encoder.mask.contains (handedWidth mode width) then
    match mode with
    | .threeWire => min encoder.tagChunk total
    | _ => total
  else min (max (encoder.scratchLength / unit) 1 * unit) total

variable {encoder} {words : Words} {width : Width}

/-! ### Repacked words -/

/-- The bytes of repacked values, and how many of the values they take. -/
structure Packs (repacking : Repacking) : Prop where
  source : 0 < repacking.sourceGroup
  length : ∀ values : List Nat, values.length % repacking.sourceGroup = 0 →
    (repacking.all values).length = values.length / repacking.sourceGroup * repacking.targetGroup

theorem packs_packBytes (count : Nat) : Packs (packBytes count) where
  source := Nat.one_pos
  length values whole := by
    refine (packBytes count).length_all whole Nat.one_pos fun group full => ?_
    obtain ⟨value, rfl⟩ := List.length_eq_one_iff.mp full
    show ([value].flatMap (bigEndian count)).length = count
    rw [List.flatMap_singleton, length_bigEndian]

theorem packs_pack : Packs NineBit.pack where
  source := by decide
  length _ whole :=
    NineBit.pack.length_all whole (by decide) fun group _ => NineBit.length_packGroup group

/-- Of groups and of values, the fewer are converted. -/
theorem min_mul_div_mul {source : Nat} (positive : 0 < source) (target groups values : Nat) :
    min (groups * source) values / source * target =
      min (groups * target) (values / source * target) := by
  rcases Nat.le_total (groups * source) values with fewer | more
  · have within : groups ≤ values / source := (Nat.le_div_iff_mul_le positive).mpr fewer
    rw [Nat.min_eq_left fewer, Nat.mul_div_cancel groups positive,
      Nat.min_eq_left (Nat.mul_le_mul_right target within)]
  · have within : values / source ≤ groups := Nat.div_le_of_le_mul (by rwa [Nat.mul_comm])
    rw [Nat.min_eq_right more, Nat.min_eq_right (Nat.mul_le_mul_right target within)]

/-- Repacked values fall into scratch-fulls. -/
theorem measured_repackBlocks {repacking : Repacking} (packs : Packs repacking) {values : List Nat}
    (nonempty : values ≠ []) (whole : values.length % repacking.sourceGroup = 0) {scratch : Nat}
    {blocks : List Block} (encoded : encoder.repackBlocks repacking values scratch = .ok blocks) :
    Measured blocks .byte scratch repacking.targetGroup
      (min (encoder.scratchGroups repacking * repacking.targetGroup)
        (values.length / repacking.sourceGroup * repacking.targetGroup)) := by
  unfold repackBlocks at encoded
  split at encoded
  · cases encoded
  cases encoded
  have groups : 0 < encoder.scratchGroups repacking :=
    Nat.lt_of_lt_of_le Nat.one_pos (Nat.le_max_right _ _)
  have positive := Nat.mul_pos groups packs.source
  have count {chunk : List Nat}
      (member : chunk ∈ portions (encoder.scratchGroups repacking * repacking.sourceGroup) values) :
      (Words.ofList .byte (repacking.all chunk)).length =
        chunk.length / repacking.sourceGroup * repacking.targetGroup := by
    rw [← packs.length chunk
      (length_mod_of_mem_portions positive (Nat.mul_mod_left _ _) whole member)]
    exact List.length_map _
  rw [← min_mul_div_mul packs.source]
  refine ⟨fun block member => ?_, fun block member => ?_, fun block member => ?_,
    fun block member => ?_, ?_⟩
  · obtain ⟨chunk, -, rfl⟩ := List.mem_map.mp member
    rfl
  · obtain ⟨chunk, -, rfl⟩ := List.mem_map.mp member
    rfl
  · obtain ⟨chunk, inPortions, rfl⟩ := List.mem_map.mp member
    rw [count inPortions]
    exact Nat.dvd_mul_left _ _
  · obtain ⟨chunk, inPortions, rfl⟩ := List.mem_map.mp member
    rw [count inPortions]
    exact Nat.mul_le_mul_right _
      (Nat.div_le_div_right (length_le_min_of_mem_portions positive inPortions))
  · obtain ⟨chunk, inPortions, long⟩ := exists_mem_portions_length positive nonempty
    refine ⟨_, List.mem_map_of_mem inPortions, ?_⟩
    rw [count inPortions, long]

theorem packs_repackingFor (width : Width) : Packs (repackingFor width) := by
  cases width with
  | bits9 => exact packs_pack
  | bits8 => exact packs_packBytes 1
  | bits16 => exact packs_packBytes 2
  | bits24 => exact packs_packBytes 3
  | bits32 => exact packs_packBytes 4

theorem whole_of_repackable {count : Nat} (repackable : Repackable width count) :
    count % (repackingFor width).sourceGroup = 0 := by
  rcases repackable with rfl | rfl | rfl | ⟨rfl, whole⟩
  · exact Nat.mod_one count
  · exact Nat.mod_one count
  · exact Nat.mod_one count
  · exact whole

/-- Words that are repacked at their width. -/
theorem measured_encode (emulated : encoder.mask.contains width = false)
    (element : words.element = width.element) (repackable : Repackable width words.length)
    (nonempty : words.values ≠ []) {places : Places} {blocks : List Block}
    (encoded : encoder.encode words width places = .ok blocks) :
    Measured blocks .byte places.scratch (repackingFor width).targetGroup
      (min (encoder.scratchGroups (repackingFor width) * (repackingFor width).targetGroup)
        (words.length / (repackingFor width).sourceGroup * (repackingFor width).targetGroup)) := by
  rw [encode_of_repackable emulated element repackable places] at encoded
  exact measured_repackBlocks (packs_repackingFor width) nonempty (whole_of_repackable repackable)
    encoded

/-! ### Tagged chunks -/

/-- Each value comes from an item, and each item has its value. -/
theorem mem_of_mapM {α β ε : Type} {items : List α} {action : α → Except ε β} {values : List β}
    (ran : items.mapM action = .ok values) :
    (∀ value ∈ values, ∃ item ∈ items, action item = .ok value) ∧
      ∀ item ∈ items, ∃ value ∈ values, action item = .ok value := by
  induction items generalizing values with
  | nil =>
    cases ran
    exact ⟨nofun, nofun⟩
  | cons item items ih =>
    rw [List.mapM_cons] at ran
    cases first : action item with
    | error error =>
      rw [first] at ran
      cases ran
    | ok value =>
      cases rest : items.mapM action with
      | error error =>
        rw [first, rest] at ran
        cases ran
      | ok later =>
        rw [first, rest] at ran
        cases ran
        obtain ⟨sources, results⟩ := ih rest
        refine ⟨List.forall_mem_cons.mpr ⟨⟨item, List.mem_cons_self, first⟩, ?_⟩,
          List.forall_mem_cons.mpr ⟨⟨value, List.mem_cons_self, first⟩, ?_⟩⟩
        · intro given member
          obtain ⟨source, inItems, same⟩ := sources given member
          exact ⟨source, List.mem_cons_of_mem item inItems, same⟩
        · intro given member
          obtain ⟨result, inValues, same⟩ := results given member
          exact ⟨result, List.mem_cons_of_mem value inValues, same⟩

/-- **Blocks of chunks.** If the blocks of every chunk are measured, and those of one chunk reach the
length, the blocks of all chunks are measured. -/
theorem Measured.flatten {chunks : List (List Nat)} {encoded : List (List Block)} {places : Places}
    {element : Element} {start unit longest : Nat}
    (ran : chunks.mapM (fun chunk => encoder.encode (Words.ofList .half chunk) .bits9 places) =
      .ok encoded)
    (each : ∀ chunk ∈ chunks, ∀ blocks,
      encoder.encode (Words.ofList .half chunk) .bits9 places = .ok blocks →
        ∃ length ≤ longest, Measured blocks element start unit length)
    (one : ∃ chunk ∈ chunks, ∀ blocks,
      encoder.encode (Words.ofList .half chunk) .bits9 places = .ok blocks →
        Measured blocks element start unit longest) :
    Measured encoded.flatten element start unit longest := by
  obtain ⟨sources, results⟩ := mem_of_mapM ran
  have measured {block : Block} (member : block ∈ encoded.flatten) :
      ∃ blocks length, block ∈ blocks ∧ length ≤ longest ∧
        Measured blocks element start unit length := by
    obtain ⟨blocks, inEncoded, inBlocks⟩ := List.mem_flatten.mp member
    obtain ⟨chunk, inChunks, same⟩ := sources blocks inEncoded
    obtain ⟨length, within, measured⟩ := each chunk inChunks blocks same
    exact ⟨blocks, length, inBlocks, within, measured⟩
  refine ⟨fun block member => ?_, fun block member => ?_, fun block member => ?_,
    fun block member => ?_, ?_⟩
  · obtain ⟨blocks, length, inBlocks, -, measured⟩ := measured member
    exact measured.element block inBlocks
  · obtain ⟨blocks, length, inBlocks, -, measured⟩ := measured member
    exact measured.address block inBlocks
  · obtain ⟨blocks, length, inBlocks, -, measured⟩ := measured member
    exact measured.whole block inBlocks
  · obtain ⟨blocks, length, inBlocks, within, measured⟩ := measured member
    exact Nat.le_trans (measured.bound block inBlocks) within
  · obtain ⟨chunk, inChunks, longest_measured⟩ := one
    obtain ⟨blocks, inEncoded, same⟩ := results chunk inChunks
    obtain ⟨block, inBlocks, reaches⟩ := (longest_measured blocks same).attained
    exact ⟨block, List.mem_flatten_of_mem inEncoded inBlocks, reaches⟩

/-- The tagged words of a payload, in chunks or in one piece if they were padded. -/
theorem chunks_of_tag {selector : Selector} {chunks : List (List Nat)}
    (tagged : encoder.tag selector words width = .ok chunks) :
    ∃ tags : List Nat, (chunks = portions encoder.tagChunk tags ∨
        (encoder.mask.contains .bits9 = false ∧ chunks = [tags])) ∧
      tags.length = if encoder.mask.contains .bits9 then words.length * words.element.bytes
        else (words.length * words.element.bytes + 7) / 8 * 8 := by
  have count := length_wordsFor selector words
  have bare (enough : encoder.mask.contains .bits9 = true ∨
      NineBit.padding (words.length * words.element.bytes) = 0) :
      (NineBit.wordsFor selector words).length =
        if encoder.mask.contains .bits9 then words.length * words.element.bytes
        else (words.length * words.element.bytes + 7) / 8 * 8 := by
    rw [count]
    split
    · rfl
    · rename_i emulated
      rw [← add_padding, enough.resolve_left emulated, Nat.add_zero]
  rcases taggable tagged with ⟨rfl, element⟩ | ⟨rfl, element⟩
  · rw [tag_bytes encoder selector element] at tagged
    rw [element, show Element.byte.bytes = 1 from rfl, Nat.mul_one] at bare count ⊢
    split at tagged
    · rename_i enough
      cases tagged
      exact ⟨_, Or.inl rfl, bare enough⟩
    · rename_i short
      have emulated : encoder.mask.contains .bits9 = false :=
        Bool.eq_false_iff.mpr fun native => short (Or.inl native)
      split at tagged
      · cases tagged
        refine ⟨_, Or.inr ⟨emulated, rfl⟩, ?_⟩
        rw [emulated, if_neg Bool.false_ne_true, NineBit.length_padded, count, add_padding]
      · cases tagged
  · rw [tag_halves encoder selector element] at tagged
    rw [element, show Element.half.bytes = 2 from rfl] at bare ⊢
    split at tagged
    · rename_i enough
      cases tagged
      exact ⟨_, Or.inl rfl, bare enough⟩
    · cases tagged

/-- A chunk of tagged words fills the scratch buffer. -/
theorem scratchGroups_pack_le (encoder : Encoder) :
    encoder.scratchGroups NineBit.pack ≤ encoder.tagChunk / 8 := by
  show max (encoder.scratchLength / 9) 1 ≤ max (encoder.scratchLength / 8 * 8) 8 / 8
  omega

/-- Native nine-bit words go as they are, a chunk to a block. -/
theorem measured_native (places : Places) (native : encoder.mask.contains .bits9 = true) {group : Nat}
    (divides : group ∣ 8) {tags : List Nat} (whole : group ∣ tags.length) (nonempty : tags ≠ [])
    {encoded : List (List Block)}
    (ran : (portions encoder.tagChunk tags).mapM
      (fun chunk => encoder.encode (Words.ofList .half chunk) .bits9 places) = .ok encoded) :
    Measured encoded.flatten .half places.payload group (min encoder.tagChunk tags.length) := by
  have single {chunk : List Nat} (member : chunk ∈ portions encoder.tagChunk tags)
      {blocks : List Block}
      (same : encoder.encode (Words.ofList .half chunk) .bits9 places = .ok blocks) :
      Measured blocks .half places.payload group chunk.length := by
    have count : (Words.ofList .half chunk).length = chunk.length := List.length_map _
    have wholeChunk : group ∣ chunk.length := Nat.dvd_of_mod_eq_zero <|
      length_mod_of_mem_portions encoder.tagChunk_pos
        (Nat.mod_eq_zero_of_dvd (Nat.dvd_trans divides encoder.dvd_tagChunk))
        (Nat.mod_eq_zero_of_dvd whole) member
    unfold encode at same
    rw [if_pos native] at same
    cases same
    rw [← count] at wholeChunk ⊢
    exact measured_singleton rfl rfl wholeChunk
  refine Measured.flatten ran (fun chunk member blocks same => ?_) ?_
  · exact ⟨chunk.length, length_le_min_of_mem_portions encoder.tagChunk_pos member, single member same⟩
  · obtain ⟨chunk, member, long⟩ := exists_mem_portions_length encoder.tagChunk_pos nonempty
    refine ⟨chunk, member, fun blocks same => ?_⟩
    rw [← long]
    exact single member same

/-- Packed nine-bit words fall into scratch-fulls, chunk by chunk. -/
theorem measured_packed (places : Places) (emulated : encoder.mask.contains .bits9 = false)
    {tags : List Nat} (whole : tags.length % 8 = 0) (nonempty : tags ≠ []) {chunks : List (List Nat)}
    (cut : chunks = portions encoder.tagChunk tags ∨ chunks = [tags]) {encoded : List (List Block)}
    (ran : chunks.mapM (fun chunk => encoder.encode (Words.ofList .half chunk) .bits9 places) =
      .ok encoded) :
    Measured encoded.flatten .byte places.scratch NineBit.pack.targetGroup
      (min (encoder.scratchGroups NineBit.pack * NineBit.pack.targetGroup)
        (tags.length / 8 * NineBit.pack.targetGroup)) := by
  have single {chunk : List Nat} (wholeChunk : chunk.length % 8 = 0) (filled : chunk ≠ [])
      {blocks : List Block}
      (same : encoder.encode (Words.ofList .half chunk) .bits9 places = .ok blocks) :
      Measured blocks .byte places.scratch NineBit.pack.targetGroup
        (min (encoder.scratchGroups NineBit.pack * NineBit.pack.targetGroup)
          (chunk.length / 8 * NineBit.pack.targetGroup)) := by
    have count : (Words.ofList .half chunk).length = chunk.length := List.length_map _
    have repackable := repackable_tagged wholeChunk
    rw [← count]
    exact measured_encode emulated rfl repackable
      (fun empty => filled (List.map_eq_nil_iff.mp empty)) same
  rcases cut with rfl | rfl
  · refine Measured.flatten ran (fun chunk member blocks same => ?_) ?_
    · have within := Nat.le_trans (length_le_min_of_mem_portions encoder.tagChunk_pos member)
        (Nat.min_le_right _ _)
      refine ⟨_, Nat.le_min.mpr ⟨Nat.min_le_left _ _, Nat.le_trans (Nat.min_le_right _ _) ?_⟩,
        single (whole_of_mem_portions whole member) (ne_nil_of_mem_portions member) same⟩
      exact Nat.mul_le_mul_right _ (Nat.div_le_div_right within)
    · obtain ⟨chunk, member, long⟩ := exists_mem_portions_length encoder.tagChunk_pos nonempty
      refine ⟨chunk, member, fun blocks same => ?_⟩
      have measured := single (whole_of_mem_portions whole member) (ne_nil_of_mem_portions member) same
      rw [long] at measured
      -- A full chunk already fills the scratch buffer, so more tags make no longer block.
      rcases Nat.le_total encoder.tagChunk tags.length with more | fewer
      · have full := encoder.scratchGroups_pack_le
        have enough := Nat.le_trans full (Nat.div_le_div_right more)
        rw [Nat.min_eq_left more, Nat.min_eq_left (Nat.mul_le_mul_right _ full)] at measured
        rwa [Nat.min_eq_left (Nat.mul_le_mul_right _ enough)]
      · rwa [Nat.min_eq_right fewer] at measured
  · refine Measured.flatten ran (fun chunk member blocks same => ?_) ?_
    · rw [List.mem_singleton.mp member] at same
      exact ⟨_, Nat.le_refl _, single whole nonempty same⟩
    · exact ⟨tags, List.mem_singleton_self tags, fun blocks same => single whole nonempty same⟩

/-! ### Elements that travel at their own width, over a 4-wire link or behind an opening byte -/

/-- Words are tagged or repacked, or they are clocked as they are. -/
theorem converted_or_in_place (encoder : Encoder) (mode : Mode) (width : Width) :
    (mode = .threeWire ∨ encoder.mask.contains width = false) ∨
      (mode ≠ .threeWire ∧ encoder.mask.contains width = true) := by
  by_cases converted : mode = .threeWire ∨ encoder.mask.contains width = false
  · exact Or.inl converted
  · obtain ⟨apart, notEmulated⟩ := not_or.mp converted
    exact Or.inr ⟨apart, Bool.eq_true_of_not_eq_false notEmulated⟩

section Apart

variable {mode : Mode}

theorem phase_of_apart (apart : mode ≠ .threeWire) (selector : Selector) (places : Places) :
    encoder.phase mode selector words width places = encoder.encode words width places := by
  cases mode with
  | threeWire => exact absurd rfl apart
  | _ => rfl

theorem handedWidth_of_apart (apart : mode ≠ .threeWire) (width : Width) :
    handedWidth mode width = width := by
  cases mode with
  | threeWire => exact absurd rfl apart
  | _ => rfl

theorem unit_of_apart (apart : mode ≠ .threeWire) (width : Width) :
    encoder.unit mode width =
      if encoder.mask.contains width then 1 else (repackingFor width).targetGroup := by
  cases mode with
  | threeWire => exact absurd rfl apart
  | _ => rfl

/-- Words that the controller clocks as they are, are units of their own. -/
theorem unit_of_native (apart : mode ≠ .threeWire) (native : encoder.mask.contains width = true) :
    encoder.unit mode width = 1 := by
  rw [unit_of_apart apart, if_pos native]

theorem unit_of_repacked (apart : mode ≠ .threeWire)
    (emulated : encoder.mask.contains width = false) :
    encoder.unit mode width = (repackingFor width).targetGroup := by
  rw [unit_of_apart apart, if_neg (Bool.eq_false_iff.mp emulated)]

theorem units_of_repacked (apart : mode ≠ .threeWire)
    (emulated : encoder.mask.contains width = false) (count : Nat) :
    encoder.units mode width count = count / (repackingFor width).sourceGroup := by
  cases mode with
  | threeWire => exact absurd rfl apart
  | _ => exact if_neg (Bool.eq_false_iff.mp emulated)

theorem handedElement_of_repacked (apart : mode ≠ .threeWire)
    (emulated : encoder.mask.contains width = false) : encoder.handedElement mode width = .byte := by
  rw [handedElement, handedWidth_of_apart apart, if_neg (Bool.eq_false_iff.mp emulated)]

theorem handedAddress_of_repacked (apart : mode ≠ .threeWire)
    (emulated : encoder.mask.contains width = false) (places : Places) :
    encoder.handedAddress mode width places = places.scratch := by
  unfold handedAddress
  rw [handedWidth_of_apart apart, if_neg (Bool.eq_false_iff.mp emulated)]

theorem longestBlock_of_repacked (apart : mode ≠ .threeWire)
    (emulated : encoder.mask.contains width = false) (count : Nat) :
    encoder.longestBlock mode width count =
      min (encoder.scratchGroups (repackingFor width) * (repackingFor width).targetGroup)
        (count / (repackingFor width).sourceGroup * (repackingFor width).targetGroup) := by
  unfold longestBlock
  rw [handedWidth_of_apart apart, if_neg (Bool.eq_false_iff.mp emulated),
    unit_of_repacked apart emulated, units_of_repacked apart emulated]
  rfl

/-- The phase of repacked elements. -/
theorem measured_repacked (apart : mode ≠ .threeWire)
    (emulated : encoder.mask.contains width = false) (element : words.element = width.element)
    (nonempty : words.values ≠ []) (repackable : Repackable width words.length) {selector : Selector}
    {places : Places} {blocks : List Block}
    (encoded : encoder.phase mode selector words width places = .ok blocks) :
    Measured blocks (encoder.handedElement mode width) (encoder.handedAddress mode width places)
      (encoder.unit mode width) (encoder.longestBlock mode width words.length) := by
  rw [phase_of_apart apart] at encoded
  rw [handedElement_of_repacked apart emulated, handedAddress_of_repacked apart emulated,
    unit_of_repacked apart emulated, longestBlock_of_repacked apart emulated]
  exact measured_encode emulated element repackable nonempty encoded

end Apart

/-! ### Limits of the longest block -/

/-- No block is longer than its phase. -/
theorem longestBlock_le (encoder : Encoder) (mode : Mode) (width : Width) (count : Nat) :
    encoder.longestBlock mode width count ≤
      encoder.units mode width count * encoder.unit mode width := by
  unfold longestBlock
  dsimp only
  split
  · split
    · exact Nat.min_le_right _ _
    · exact Nat.le_refl _
  · exact Nat.min_le_right _ _

theorem unit_le (encoder : Encoder) (mode : Mode) (width : Width) :
    encoder.unit mode width ≤ NineBit.groupBytes := by
  unfold unit
  split <;> split <;> cases width <;> decide

/-- A block that is repacked or tagged fits the scratch buffer, if that holds a group. -/
theorem longestBlock_le_scratch {encoder : Encoder} {mode : Mode} {width : Width}
    (room : NineBit.groupBytes ≤ encoder.scratchLength)
    (cut : mode = .threeWire ∨ encoder.mask.contains width = false) (count : Nat) :
    encoder.longestBlock mode width count ≤ encoder.scratchLength := by
  have tagged : encoder.tagChunk ≤ encoder.scratchLength := by
    change 9 ≤ encoder.scratchLength at room
    show max (encoder.scratchLength / 8 * 8) 8 ≤ encoder.scratchLength
    omega
  have packed : max (encoder.scratchLength / encoder.unit mode width) 1 * encoder.unit mode width ≤
      encoder.scratchLength := by
    rcases Nat.le_total (encoder.scratchLength / encoder.unit mode width) 1 with one | more
    · rw [Nat.max_eq_right one, Nat.one_mul]
      exact Nat.le_trans (encoder.unit_le mode width) room
    · rw [Nat.max_eq_left more]
      exact Nat.div_mul_le_self _ _
  unfold longestBlock
  dsimp only
  split
  · rename_i native
    cases mode with
    | threeWire => exact Nat.le_trans (Nat.min_le_left _ _) tagged
    | _ => exact absurd native (Bool.eq_false_iff.mp (cut.resolve_left nofun))
  · exact Nat.le_trans (Nat.min_le_left _ _) packed

theorem bytes_handedElement_le {encoder : Encoder} {mode : Mode} {width : Width}
    (cut : mode = .threeWire ∨ encoder.mask.contains width = false) :
    (encoder.handedElement mode width).bytes ≤ 2 := by
  by_cases threeWire : mode = .threeWire
  · rw [threeWire, handedElement]
    split
    · show Width.bits9.element.bytes ≤ 2
      decide
    · decide
  · rw [handedElement_of_repacked threeWire (cut.resolve_left threeWire)]
    decide

/-! ### 3-wire phases -/

theorem longestBlock_threeWire_native (native : encoder.mask.contains .bits9 = true) (width : Width)
    (count : Nat) :
    encoder.longestBlock .threeWire width count =
      min encoder.tagChunk (count * width.element.bytes) := by
  simp only [longestBlock, handedWidth, units, unit, native, if_true]

theorem longestBlock_threeWire_packed (emulated : encoder.mask.contains .bits9 = false) (width : Width)
    (count : Nat) :
    encoder.longestBlock .threeWire width count =
      min (encoder.scratchGroups NineBit.pack * NineBit.pack.targetGroup)
        ((count * width.element.bytes + 7) / 8 * NineBit.pack.targetGroup) := by
  simp only [longestBlock, handedWidth, units, unit, emulated, Bool.false_eq_true, if_false]
  rfl

/-- **The blocks of a 3-wire phase** are measured by its elements. -/
theorem measured_threeWire (nonempty : words.values ≠ []) {selector : Selector} {places : Places}
    {blocks : List Block}
    (encoded : encoder.phase .threeWire selector words width places = .ok blocks) :
    Measured blocks (encoder.handedElement .threeWire width)
      (encoder.handedAddress .threeWire width places) (encoder.unit .threeWire width)
      (encoder.longestBlock .threeWire width words.length) := by
  cases tagged : encoder.tag selector words width with
  | error error =>
    rw [phase, tagged] at encoded
    cases encoded
  | ok chunks =>
    have element := element_of_tag tagged
    have some_words : 0 < words.length * width.element.bytes :=
      Nat.mul_pos (List.length_pos_iff.mpr nonempty) width.element.bytes_pos
    rw [phase_threeWire tagged] at encoded
    cases ran : chunks.mapM fun chunk =>
      encoder.encode (Words.ofList .half chunk) .bits9 places.tagged with
    | error error =>
      rw [ran] at encoded
      cases encoded
    | ok encodedChunks =>
      rw [ran] at encoded
      cases encoded
      obtain ⟨tags, cut, count⟩ := chunks_of_tag tagged
      rw [element] at count
      cases native : encoder.mask.contains .bits9 with
      | true =>
        rw [native, if_pos rfl] at count
        rw [longestBlock_threeWire_native native, ← count, handedElement, handedAddress, handedWidth,
          unit, if_pos native, if_pos native, if_pos native]
        have uncut : chunks = portions encoder.tagChunk tags :=
          cut.resolve_right fun padded => by
            rw [native] at padded
            cases padded.1
        rw [uncut] at ran
        refine measured_native places.tagged native ?_ ⟨words.length, ?_⟩ ?_ ran
        · cases width <;> decide
        · rw [count, Nat.mul_comm]
        · rintro rfl
          exact absurd count (Nat.ne_of_lt some_words)
      | false =>
        rw [native, if_neg Bool.false_ne_true] at count
        have emulated : ¬encoder.mask.contains .bits9 = true := Bool.eq_false_iff.mp native
        have groups : (words.length * width.element.bytes + 7) / 8 = tags.length / 8 := by omega
        rw [longestBlock_threeWire_packed native, groups, handedElement, handedAddress, handedWidth,
          unit, if_neg emulated, if_neg emulated, if_neg emulated]
        refine measured_packed places.tagged native ?_ ?_ (cut.imp_right And.right) ran
        · omega
        · rintro rfl
          rw [List.length_nil] at count
          omega

end Encoder

end PanelLink.Spi
