/-
**The words that the panel latches over a parallel link.**

The panel takes what is on the data lines when the write strobe goes up.

* `Link.shown`: the rows of levels at these moments, replayed from the events of a write;
* `presented`: the rows that a link shows for words, given the word it remembers and the levels
  before, and `presented_none`: a link that remembers no word shows exactly the words;
* `shows_presented`: a write that succeeds shows these rows;
* **`shows_words_iff`**: after every history a write shows its words exactly if its first word
  drives every torn line.
-/

import PanelLink.Proofs.Parallel.Coherence

namespace PanelLink.Parallel

/-! ### Rows of levels -/

/-- A word as the levels of the data lines. -/
def wordRow (lines word : Nat) : List Bool :=
  (List.range lines).map (wordBit word)

theorem map_range_eq_iff {count : Nat} {first second : Nat → Bool} :
    (List.range count).map first = (List.range count).map second ↔
      ∀ bit, bit < count → first bit = second bit := by
  rw [List.map_inj_left]
  simp only [List.mem_range]

/-- The level of a data line with a word on the lines. -/
def nextRow (before : Option Nat) (row : Nat → Bool) (word bit : Nat) : Bool :=
  if differs before word bit then wordBit word bit else row bit

theorem nextRow_none (row : Nat → Bool) (word bit : Nat) :
    nextRow none row word bit = wordBit word bit :=
  rfl

/-- A line that is not driven must be at its bit already. -/
theorem nextRow_eq_iff {shown : Nat} {row : Nat → Bool} {word bit : Nat} :
    nextRow (some shown) row word bit = wordBit word bit ↔
      (wordBit shown bit = wordBit word bit → row bit = wordBit word bit) := by
  unfold nextRow
  by_cases drives : differs (some shown) word bit = true
  · rw [if_pos drives]
    exact iff_of_true rfl fun equal => absurd equal (differs_some_iff.mp drives)
  · rw [if_neg drives]
    exact ⟨fun same _ => same, fun settled => settled (eq_of_not_differs drives)⟩

/-- **The rows that are shown** while the words are latched one after the other. -/
def presented (lines : Nat) : Option Nat → (Nat → Bool) → List Nat → List (List Bool)
  | _, _, [] => []
  | before, row, word :: later =>
    (List.range lines).map (nextRow before row word) ::
      presented lines (some word) (nextRow before row word) later

/-- Only the levels of the data lines matter. -/
theorem presented_congr {lines : Nat} {before : Option Nat} {row other : Nat → Bool}
    (same : ∀ bit, bit < lines → row bit = other bit) (words : List Nat) :
    presented lines before row words = presented lines before other words := by
  induction words generalizing before row other with
  | nil => rfl
  | cons word later ih =>
    have next (bit : Nat) (inRow : bit < lines) :
        nextRow before row word bit = nextRow before other word bit := by
      rw [nextRow, nextRow, same bit inRow]
    rw [presented, presented, map_range_eq_iff.mpr next, ih next]

/-- A link whose remembered word is on the data lines shows exactly the words. -/
theorem presented_of_agrees {lines shown : Nat} {row : Nat → Bool}
    (agrees : ∀ bit, bit < lines → row bit = wordBit shown bit) (words : List Nat) :
    presented lines (some shown) row words = words.map (wordRow lines) := by
  induction words generalizing shown row with
  | nil => rfl
  | cons word later ih =>
    have next (bit : Nat) (inRow : bit < lines) :
        nextRow (some shown) row word bit = wordBit word bit :=
      nextRow_eq_iff.mpr (agrees bit inRow).trans
    rw [presented, ih next, map_range_eq_iff.mpr next]
    rfl

/-- A link that remembers no word drives every data line and shows exactly the words. -/
theorem presented_none (lines : Nat) (row : Nat → Bool) (words : List Nat) :
    presented lines none row words = words.map (wordRow lines) := by
  cases words with
  | nil => rfl
  | cons word later =>
    rw [presented, presented_of_agrees fun bit _ => nextRow_none row word bit,
      funext (nextRow_none row word)]
    rfl

/-- **Exactly the words are shown** if every data line that is not driven for the first one is at
its bit already. -/
theorem presented_eq_iff {lines shown : Nat} {row : Nat → Bool} (word : Nat) (later : List Nat) :
    presented lines (some shown) row (word :: later) = (word :: later).map (wordRow lines) ↔
      ∀ bit, bit < lines → wordBit shown bit = wordBit word bit → row bit = wordBit word bit := by
  constructor
  · intro same bit inRow
    exact nextRow_eq_iff.mp (map_range_eq_iff.mp (List.cons.inj same).1 bit inRow)
  · intro settled
    have next (bit : Nat) (inRow : bit < lines) :
        nextRow (some shown) row word bit = wordBit word bit :=
      nextRow_eq_iff.mpr (settled bit inRow)
    rw [presented, presented_of_agrees next, map_range_eq_iff.mpr next]
    rfl

/-! ### What a write shows -/

namespace Link

/-- **The rows shown**: the levels of the data lines whenever the write strobe goes up. -/
def shown (link : Link) (levels : Levels) (events : List Event) : List (List Bool) :=
  (levels.history events).filterMap fun moment =>
    if moment.1 = strobe true .done then
      some ((List.range link.lines).map fun bit => moment.2 (.data bit))
    else none

theorem shown_append (link : Link) (levels : Levels) (first later : List Event) :
    link.shown levels (first ++ later) =
      link.shown levels first ++ link.shown (levels.afterAll first) later := by
  rw [shown, Levels.history_append, List.filterMap_append]
  rfl

theorem shown_of_still (link : Link) (levels : Levels) {events : List Event}
    (still : ∀ event ∈ events, event ≠ strobe true .done) : link.shown levels events = [] := by
  induction events generalizing levels with
  | nil => rfl
  | cons event events ih =>
    rw [← List.singleton_append, shown_append,
      ih _ fun other member => still other (List.mem_cons_of_mem event member)]
    rw [shown, Levels.history, Levels.history, List.filterMap_cons,
      if_neg (still event List.mem_cons_self)]
    rfl

theorem mem_changes {before : Option Nat} {word count : Nat} {event : Event}
    (member : event ∈ changes before word count) : event ≠ strobe true .done := by
  obtain ⟨bit, -, rfl⟩ := List.mem_map.mp member
  exact nofun

/-- A latch shows the data lines once, with the word on them. -/
theorem shown_latched (link : Link) (levels : Levels) (before : Option Nat) (word : Nat) :
    link.shown levels
        (strobe false .done :: (changes before word link.lines ++ [strobe true .done])) =
      [(List.range link.lines).map (nextRow before (fun bit => levels (.data bit)) word)] := by
  have still (event : Event) (member : event ∈ strobe false .done :: changes before word link.lines) :
      event ≠ strobe true .done := by
    rcases List.mem_cons.mp member with rfl | later
    · exact nofun
    · exact mem_changes later
  have raised (bit : Nat) (inRow : bit < link.lines) :
      ((levels.afterAll (strobe false .done :: changes before word link.lines)).after
        (strobe true .done)) (.data bit) = nextRow before (fun bit => levels (.data bit)) word bit := by
    have latched := levels_latched levels before word link.lines bit .done
    rw [← List.cons_append, Levels.afterAll_append, Levels.afterAll_singleton] at latched
    rw [latched, nextRow]
    exact if_congr (and_iff_right inRow) rfl rfl
  rw [← List.cons_append, shown_append, shown_of_still _ _ still, List.nil_append,
    ← map_range_eq_iff.mpr raised]
  rfl

end Link

/-! ### One write -/

/-- What is left of the rows of a write after the rows shown so far. -/
def Showing (link : Link) (start : Bench) (rows : List (List Bool)) (words : List Nat) : Condition :=
  fun memory bench => (memory.word.isSome → memory.direction = .output) ∧
    ∃ events, start.Went bench events ∧
      rows = link.shown start.levels events ++
        presented link.lines memory.word (fun bit => bench.levels (.data bit)) words

/-- The condition goes on over events that leave the data lines and the strobe alone. -/
theorem Showing.went {link : Link} {start : Bench} {rows : List (List Bool)} {words : List Nat}
    {memory : Memory} {bench after : Bench} {events : List Event}
    (showing : Showing link start rows words memory bench) (went : bench.Went after events)
    (still : ∀ event ∈ events, event ≠ strobe true .done)
    (row : ∀ bit, bit < link.lines → after.levels (.data bit) = bench.levels (.data bit)) :
    Showing link start rows words memory after := by
  obtain ⟨output, earlier, sofar, rest⟩ := showing
  refine ⟨output, earlier ++ events, sofar.trans went, ?_⟩
  rw [Link.shown_append, Link.shown_of_still _ _ still, List.append_nil, rest,
    presented_congr fun bit inRow => (row bit inRow).symm]

theorem tracks_showing (link : Link) (start : Bench) (rows : List (List Bool)) :
    Tracks link (Showing link start rows) fun _ _ => True where
  spared := by
    intro words memory bench after events went frames showing
    refine showing.went went (fun event member => ?_) fun bit _ => went.level_of_spared ?_ bit
    · obtain ⟨name, level, outcome, rfl, rfl | rfl⟩ := frames event member <;> exact nofun
    · intro event member
      obtain ⟨name, level, outcome, rfl, rfl | rfl⟩ := frames event member <;> rfl
  sparedFailed := fun _ _ _ _ _ _ _ => trivial
  fails := fun _ _ _ _ => trivial
  turn := by
    refine fun words => Leads.of_run fun {memory now bench after result} showing ran => ?_
    cases result with
    | error error => trivial
    | ok =>
      rcases turnData_went (by decide) ran with
        ⟨-, rfl, rfl, still⟩ | ⟨other, forgotten, switched, events, went, turns⟩
      · exact ⟨showing, still⟩
      · obtain ⟨output, earlier, sofar, rest⟩ := showing
        have unknown : memory.word = none :=
          Option.not_isSome_iff_eq_none.mp fun known => other (output known)
        have still (event : Event) (member : event ∈ events) : event ≠ strobe true .done := by
          obtain ⟨bit, direction, outcome, rfl⟩ := turns event member
          exact nofun
        refine ⟨⟨fun known => ?_, earlier ++ events, sofar.trans went, ?_⟩, switched rfl⟩
        · rw [forgotten] at known
          cases known
        · rw [Link.shown_append, Link.shown_of_still _ _ still, List.append_nil, rest, unknown,
            forgotten, presented_none, presented_none]
  latch := by
    refine fun word words => Leads.of_run fun {memory now bench after result} holds ran => ?_
    cases result with
    | error error => trivial
    | ok =>
      cases latchWord_went ran with
      | done went =>
        obtain ⟨⟨-, earlier, sofar, rest⟩, driving⟩ := holds
        refine ⟨⟨fun _ => driving, _, sofar.trans went, ?_⟩, driving⟩
        have row (bit : Nat) (inRow : bit < link.lines) :
            nextRow memory.word (fun bit => bench.levels (.data bit)) word bit =
              after.levels (.data bit) := by
          rw [went.levels, levels_latched, nextRow]
          exact if_congr (and_iff_right inRow).symm rfl rfl
        rw [Link.shown_append, ← sofar.levels, Link.shown_latched, rest, presented,
          presented_congr row, List.append_assoc]
        rfl

/-- **A write that succeeds shows the rows of its words**, given the word that the link remembers. -/
theorem shows_presented {link : Link} {memory last : Memory} {bench after : Bench}
    (ready : memory.word.isSome → memory.direction = .output) {context : Context} {register : Nat}
    {request : Option WriteRequest}
    (ran : ((link.write context register request).run.run memory).run bench =
      ((.ok (), last), after)) :
    ∃ events, bench.Went after events ∧ link.shown bench.levels events =
      presented link.lines memory.word (fun bit => bench.levels (.data bit))
        (link.writeWords context register request) := by
  have begins : Showing link bench
      (presented link.lines memory.word (fun bit => bench.levels (.data bit))
        (link.writeWords context register request))
      (link.writeWords context register request ++ []) memory bench := by
    rw [List.append_nil]
    exact ⟨ready, [], Bench.Went.refl bench, rfl⟩
  have ends := (tracks_showing link bench _).leads_write context register request [] memory bench begins
  rw [ran] at ends
  obtain ⟨-, events, went, rows⟩ := ends
  refine ⟨events, went, ?_⟩
  rw [rows]
  exact (List.append_nil _).symm

/-! ### After a history -/

/-- Words are shown as they are if the first one drives every torn line. -/
theorem Coherent.presented_iff {link : Link} {memory : Memory} {bench : Bench}
    (coherent : Coherent link memory bench) (words : List Nat) :
    presented link.lines memory.word (fun bit => bench.levels (.data bit)) words =
        words.map (wordRow link.lines) ↔
      ∀ shown first, memory.word = some shown → words.head? = some first →
        ∀ bit, bit < link.lines → bench.torn bit = true → wordBit first bit ≠ wordBit shown bit := by
  cases remembered : memory.word with
  | none => exact iff_of_true (presented_none _ _ _) fun shown first known => by cases known
  | some shown =>
    cases words with
    | nil => exact iff_of_true rfl fun shown first _ head => by cases head
    | cons word later =>
      have row := (coherent shown remembered).2
      rw [presented_eq_iff]
      constructor
      · rintro settled _ _ ⟨⟩ ⟨⟩ bit inRow torn equal
        have level := settled bit inRow equal.symm
        rw [row bit inRow, torn, equal, Bool.xor_true] at level
        exact (Bool.not_eq_self _).mp level
      · intro driven bit inRow equal
        have sound : bench.torn bit = false :=
          Bool.eq_false_iff.mpr fun torn => driven shown word rfl rfl bit inRow torn equal.symm
        rw [row bit inRow, sound, equal, Bool.xor_false]

/-- **When the remembered word can be relied on.** A link is made, and any accesses follow, in which
any uses of lines fail. Then a data line is at its bit of the remembered word exactly if it is not
torn, and a write that succeeds shows exactly its words, as `presented_none` says of a link just
made, if and only if its first word differs from the remembered one at every torn line. -/
theorem shows_words_iff (link : Link) (bench : Bench) (accesses : List Access) :
    (∀ shown, (link.performAll bench accesses).1.word = some shown →
      ∀ bit, bit < link.lines →
        ((link.performAll bench accesses).2.levels (.data bit) = wordBit shown bit ↔
          (link.performAll bench accesses).2.torn bit = false)) ∧
    ∀ context register request last after,
      ((link.write context register request).run.run (link.performAll bench accesses).1).run
        (link.performAll bench accesses).2 = ((.ok (), last), after) →
      ∃ events, (link.performAll bench accesses).2.Went after events ∧
        (link.shown (link.performAll bench accesses).2.levels events =
            (link.writeWords context register request).map (wordRow link.lines) ↔
          ∀ shown first, (link.performAll bench accesses).1.word = some shown →
            (link.writeWords context register request).head? = some first →
            ∀ bit, bit < link.lines → (link.performAll bench accesses).2.torn bit = true →
              wordBit first bit ≠ wordBit shown bit) := by
  have coherent := coherent_performAll link bench accesses
  generalize (link.performAll bench accesses).1 = memory at *
  generalize (link.performAll bench accesses).2 = now at *
  refine ⟨fun shown remembered bit inRow => ?_, ?_⟩
  · rw [(coherent shown remembered).2 bit inRow]
    cases now.torn bit <;> simp
  · intro context register request last after ran
    have ready (known : memory.word.isSome) : memory.direction = .output := by
      obtain ⟨shown, remembered⟩ := Option.isSome_iff_exists.mp known
      exact (coherent shown remembered).1
    obtain ⟨events, went, rows⟩ := shows_presented ready ran
    refine ⟨events, went, ?_⟩
    rw [rows]
    exact coherent.presented_iff _

/-! ### A slip in the middle of a word -/

/-- A link of eight data lines that can only be written to. -/
def eightLines : Link where
  lines := 8
  hasReadStrobe := false
  hasChipSelect := false
  reset := .absent

/-- A bench whose fourth data line refuses its third use and works again afterwards. -/
def slipBench : Bench where
  data := (List.range 8).map fun bit => { failsAt := fun use => bit == 3 && use == 2 }

def byteWide : Context where
  width := .bits8
  deviations := ⟨0⟩

/-- The link after it latched 0 and slipped in the middle of 255. -/
def slipped : Memory × Bench :=
  eightLines.performAll slipBench [.write byteWide 0 none, .write byteWide 255 none]

theorem run_eq_of_isOk {result : (Except AccessError Unit × Memory) × Bench}
    (succeeded : result.1.1.isOk = true) : result = ((.ok (), result.1.2), result.2) := by
  obtain ⟨⟨outcome, memory⟩, bench⟩ := result
  cases outcome with
  | ok => rfl
  | error error => cases succeeded

/-- Writing 255 again drives the three torn lines, and is seen as it should be. -/
theorem shows_words_iff_slipped : ∃ last after events,
    ((eightLines.write byteWide 255 none).run.run slipped.1).run slipped.2 =
      ((.ok (), last), after) ∧
    slipped.2.Went after events ∧
    eightLines.shown slipped.2.levels events =
      (eightLines.writeWords byteWide 255 none).map (wordRow 8) := by
  have ran := run_eq_of_isOk (show (((eightLines.write byteWide 255 none).run.run slipped.1).run
    slipped.2).1.1.isOk = true by decide +kernel)
  obtain ⟨events, went, shows⟩ := (shows_words_iff eightLines slipBench
    [.write byteWide 0 none, .write byteWide 255 none]).2 byteWide 255 none _ _ ran
  refine ⟨_, _, events, ran, went, shows.mpr fun shown first remembered head => ?_⟩
  have known : slipped.1.word = some 0 := by decide +kernel
  have latches : (eightLines.writeWords byteWide 255 none).head? = some 255 := by decide +kernel
  cases Option.some.inj (remembered.symm.trans known)
  cases Option.some.inj (head.symm.trans latches)
  decide +kernel

/-- **The remembered word can be stale.** The link remembers 0 while the first data line is high, and
a write of 0 that succeeds is latched as 7, where a link just made shows 0. -/
theorem remembered_word_stale :
    slipped.1.word = some 0 ∧ slipped.2.levels (.data 0) = true ∧
    ∃ last after events,
      ((eightLines.write byteWide 0 none).run.run slipped.1).run slipped.2 =
        ((.ok (), last), after) ∧
      slipped.2.Went after events ∧
      eightLines.shown slipped.2.levels events = [wordRow 8 7] ∧
      (eightLines.writeWords byteWide 0 none).map (wordRow 8) = [wordRow 8 0] := by
  have ran := run_eq_of_isOk (show (((eightLines.write byteWide 0 none).run.run slipped.1).run
    slipped.2).1.1.isOk = true by decide +kernel)
  obtain ⟨events, went, rows⟩ := shows_presented (fun _ => by decide +kernel) ran
  refine ⟨by decide +kernel, by decide +kernel, _, _, events, ran, went, rows.trans ?_, ?_⟩
  · decide +kernel
  · decide +kernel

end PanelLink.Parallel
